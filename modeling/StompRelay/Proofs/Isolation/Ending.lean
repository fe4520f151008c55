import StompRelay.Proofs.Isolation.Containment
import StompRelay.Proofs.Reading.Reference
/-!
# Who ends a session

A session that ends was ended by its own client, its own broker, a write of its own that failed, or
the loss of the bus, unless somebody asked for the end of all sessions.

## Main definitions

* `Relay.Ends` — a step ends a session
* `Relay.EndedBy` — who does

## Main results

* `Relay.MoveStep.endedBy` — every session is ended by one of these
* `Relay.failures_contained` — what one client suffers is no concern of the others
-/

namespace StompRelay

/-- Whether it is the broker, or the connection to it, for which a reader stops. -/
def Exit.byBroker : Exit → Bool
  | peerClosed | failed | malformed _ | tooLarge => true
  | closed | busClosed => false

namespace Relay

variable {setup : Setup} {busCapacity : Nat} {s t : Relay} {h k : History} {m : Move}
  {e e' : Place} {i : CallId} {c : Call} {x x' : Session} {a id : SessionId}

/-- A step ends session `e`: its close signal fires, or its entry is taken out of the register. -/
def Ends (s t : Relay) (e : Place) : Prop :=
  ∃ x y : Session, s.sessions[e]? = some x ∧ t.sessions[e]? = some y ∧ x.closed = false
    ∧ (y.closed = true ∨ e ∈ s.registeredPlaces ∧ e ∉ t.registeredPlaces)

/-- Who ends session `e`, which is `x`, when nobody asks for the end of all sessions. -/
inductive EndedBy (h : History) (s : Relay) (e : Place) (x : Session) : Move → Prop where
  /-- Its client logs out or is gone, or has the session under its id ended. -/
  | client {i : CallId} {c : Call} : s.calls[i]? = some c → c.purpose.removes = true →
    c.purpose.session? = some x.id → c.stage.removes = true → EndedBy h s e x (.act (.call i))
  /-- It is closed by hand. -/
  | closed {i : CallId} {c : Call} : s.calls[i]? = some c → c.purpose = .close e →
    EndedBy h s e x (.act (.call i))
  /-- Its entry is removed by hand. -/
  | forgotten : EndedBy h s e x (.forget x.id)
  /-- A message of its client could not be written to it. -/
  | write {i : CallId} {c : Call} {f : WriteFault} : s.calls[i]? = some c →
    c.purpose.session? = some x.id → Broke h i e f → EndedBy h s e x (.act (.call i))
  /-- Its broker has gone or has sent what is no frame, or nothing can be fetched from it. -/
  | broker {exit : Exit} : exits e h = [exit] → exit.byBroker = true →
    EndedBy h s e x (.act (.reader e))
  /-- Nobody receives from the bus any more. -/
  | bus : exits e h = [.busClosed] → s.bus.closed = true → EndedBy h s e x (.act (.reader e))

/-! ### Steps that end nothing -/

namespace Ends

/-- A step that changes no session and takes no entry out ends nothing. -/
theorem false_of_eq (hends : Ends s t e) (ht : t.sessions = s.sessions)
    (hr : s.registry ⊆ t.registry) : False := by
  obtain ⟨x, y, hx, hy, hopen, hend⟩ := hends
  rw [ht, hx, Option.some.injEq] at hy
  subst hy
  rcases hend with hclosed | ⟨hin, hout⟩
  · exact Bool.false_ne_true (hopen.symm.trans hclosed)
  · exact hout (List.map_subset _ hr hin)

/-- A step that only adds a session ends nothing. -/
theorem false_of_append (hends : Ends s t e) {z : Session} (ht : t.sessions = s.sessions ++ [z])
    (hr : t.registry = s.registry) : False := by
  obtain ⟨x, y, hx, hy, hopen, hend⟩ := hends
  rw [ht, List.getElem?_append_left (List.getElem?_eq_some_iff.mp hx).1, hx,
    Option.some.injEq] at hy
  subst hy
  rcases hend with hclosed | ⟨hin, hout⟩
  · exact Bool.false_ne_true (hopen.symm.trans hclosed)
  · rw [registeredPlaces, hr] at hout
    exact hout hin

/-- A step that changes one session, but not its close signal, ends nothing. -/
theorem false_of_modify (hends : Ends s t e) {f : Session → Session}
    (ht : t.sessions = (s.modifySession e' f).sessions) (hr : t.registry = s.registry)
    (hf : ∀ x, s.sessions[e']? = some x → (f x).closed = x.closed) : False := by
  obtain ⟨x, y, hx, hy, hopen, hend⟩ := hends
  have hclosed : y.closed = x.closed := by
    rw [ht] at hy
    by_cases he : e' = e
    · subst he
      rw [eq_of_modifySession hx hy]
      exact hf x hx
    · rw [getElem?_modifySession_of_ne he, hx, Option.some.injEq] at hy
      rw [hy]
  rcases hend with hclosed' | ⟨hin, hout⟩
  · exact Bool.false_ne_true (hopen.symm.trans (hclosed.symm.trans hclosed'))
  · rw [registeredPlaces, hr] at hout
    exact hout hin

/-- A step that is confined to one session ends no other. -/
theorem eq_of_confined (hends : Ends s t e) (hconf : Confined s t e') : e = e' := by
  obtain ⟨x, y, hx, hy, hopen, hend⟩ := hends
  by_contra he
  rw [hconf.sessions e he, hx, Option.some.injEq] at hy
  subst hy
  rcases hend with hclosed | ⟨hin, hout⟩
  · exact Bool.false_ne_true (hopen.symm.trans hclosed)
  · obtain ⟨p, hp, rfl⟩ := List.mem_map.mp hin
    have hmem : p ∈ t.registry.filter (·.2 ≠ e') :=
      hconf.registry ▸ List.mem_filter.mpr ⟨hp, decide_eq_true he⟩
    exact hout (List.mem_map_of_mem (List.mem_filter.mp hmem).1)

/-- A step that is contained ends only sessions of that client. -/
theorem id_eq_of_contained (hends : Ends s t e) (hcont : Contained a s t) (hcen : Census h s)
    (hcen' : Census k t) (hx : s.sessions[e]? = some x) : x.id = a := by
  obtain ⟨x', y, hx', hy, hopen, hend⟩ := hends
  obtain rfl := Option.some.inj (hx.symm.trans hx')
  by_contra hid
  obtain rfl := Option.some.inj (hy.symm.trans ((hcont.sessions e x hid).mpr hx))
  rcases hend with hclosed | ⟨hin, hout⟩
  · exact Bool.false_ne_true (hopen.symm.trans hclosed)
  · refine hout ((hcen'.registered?_iff hy).mp ?_)
    rw [hcont.registered y.id hid]
    exact (hcen.registered?_iff hx).mpr hin

end Ends

/-! ### Steps that may end a session -/

/-- A call that ends a session could not write to it, or finds it under its id, or ends all
sessions, or closes it. -/
theorem CallStep.ends (hcen : Census h s) (step : CallStep setup s i c t) (hends : Ends s t e) :
    (∃ f, c.stage = .failing e f)
      ∨ c.stage.removes = true ∧ s.registered? c.purpose.id = some e
      ∨ c.stage = .clearing ∨ e ∈ c.stage.closes := by
  cases step with
  | condemn hst hr =>
    obtain rfl := hends.eq_of_confined (.unregister hcen hr rfl rfl)
    exact .inl ⟨_, hst⟩
  | remove hst hr =>
    obtain rfl := hends.eq_of_confined (.unregister hcen hr rfl rfl)
    exact .inr (.inl ⟨by rw [hst]; rfl, hr⟩)
  | clear hst => exact .inr (.inr (.inl hst))
  | close hst =>
    obtain rfl := hends.eq_of_confined (.modifySession rfl rfl)
    exact .inr (.inr (.inr (hst ▸ List.mem_cons_self)))
  | register => exact (hends.false_of_eq rfl (List.subset_append_left _ _)).elim
  | reject | attach | start | queue | bounce | cut | accept | finish | snap =>
    exact (hends.false_of_modify rfl rfl fun _ _ => rfl).elim
  | push _ hx _ _ hpush =>
    refine (hends.false_of_modify rfl rfl ?_).elim
    intro x' hx'
    obtain rfl := Option.some.inj (hx.symm.trans hx')
    obtain ⟨bs, -, hy⟩ := Session.eq_of_push? hpush
    rw [hy]
  | @complete e' x y _ _ hx _ _ hpush =>
    have ht : ((s.modifySession e' fun _ => y).modifySession e' fun x => x.leave i).sessions
        = (s.modifySession e' fun _ => y.leave i).sessions := List.modify_modify_eq _ _ _ _
    refine (hends.false_of_modify ht rfl ?_).elim
    intro x' hx'
    obtain rfl := Option.some.inj (hx.symm.trans hx')
    obtain ⟨bs, -, hy⟩ := Session.eq_of_push? hpush
    rw [hy]
    rfl
  | _ => exact (hends.false_of_eq rfl (List.Subset.refl _)).elim

/-- A reader that ends a session has stopped reading. -/
theorem ReaderStep.ends (hcen : Census h s) (step : ReaderStep setup s e x t)
    (hends : Ends s t e') : e' = e ∧ (x.reader = .ending ∨ x.reader = .shutting) := by
  refine ⟨hends.eq_of_confined (step.confined hcen), ?_⟩
  cases step with
  | unregister hr => exact .inl hr
  | shut hr => exact .inr hr
  | _ => exact (hends.false_of_modify rfl rfl fun _ _ => rfl).elim

/-! ### Who it was -/

/-- A reader that stopped for the close signal was right. -/
theorem closed_of_mem_exits (run : Run setup busCapacity h s) (hmem : Exit.closed ∈ exits e h) :
    s.HasClosed e := by
  induction run with
  | nil => cases hmem
  | @snoc h s t m run hm ih =>
    have step := run.moveStep hm
    rw [exits_snoc, List.mem_append] at hmem
    rcases hmem with hmem | hmem
    · exact (ih hmem).step step
    · refine HasClosed.step ?_ step
      have hexit := Option.mem_toList.mp hmem
      unfold Transition.exit? at hexit
      split at hexit
      · obtain ⟨-, hexit⟩ := Option.ite_none_right_eq_some.mp hexit
        obtain ⟨x, hx, hexit⟩ := Option.bind_eq_some_iff.mp hexit
        exact ⟨x, hx, (Session.exit?_eq_closed hexit).1⟩
      · cases hexit

/-- A session that a call is about to close is closed, unless the call closes it by hand. -/
theorem closed_of_closes (run : Run setup busCapacity h s) (hc : s.calls[i]? = some c)
    (hmem : e ∈ c.stage.closes) : s.HasClosed e ∨ c.purpose = .close e := by
  induction run generalizing c with
  | nil => simp [Relay.empty] at hc
  | snoc run hm ih =>
    have step := run.moveStep hm
    rcases step.closes_before (sound_of_run run) hc hmem with
      ⟨b, hb, hpurpose, hmem'⟩ | hclosed | ⟨-, hpurpose⟩
    · exact (ih hb hmem').imp (fun hclosed => hclosed.step step) hpurpose.trans
    · exact .inl hclosed
    · exact .inr hpurpose

/-- Every call was started. -/
theorem started_of_run (run : Run setup busCapacity h s) (hc : s.calls[i]? = some c) :
    (∃ τ ∈ h, τ.move = .start c.purpose)
      ∨ ∃ id reads holds, c.purpose = .attach id reads holds := by
  induction run generalizing c with
  | nil => simp [Relay.empty] at hc
  | @snoc h s t m run hm ih =>
    have step := run.moveStep hm
    cases hs : s.calls[i]? with
    | some b =>
      have hpurpose := step.purpose_eq hs hc
      rw [hpurpose]
      refine (ih hs).imp_left ?_
      rintro ⟨τ, hτ, heq⟩
      exact ⟨τ, List.mem_append_left _ hτ, heq⟩
    | none =>
      obtain ⟨-, rfl | ⟨id, capacity, reads, holds, -, hp⟩⟩ := step.call_new hs hc
      · exact .inl ⟨_, List.mem_append_right _ (List.mem_singleton_self _), rfl⟩
      · exact .inr ⟨id, reads, holds, hp⟩

/-- What a reader ends it ends because of its broker or the bus. -/
theorem ReaderStep.endedBy (run : Run setup busCapacity h s) (hx : s.sessions[e]? = some x)
    (step : ReaderStep setup s e x t) (hends : Ends s t e') :
    e' = e ∧ EndedBy h s e x (.act (.reader e)) := by
  obtain ⟨rfl, hr⟩ := step.ends (census_of_run run) hends
  refine ⟨rfl, ?_⟩
  obtain ⟨x', y, hx', -, hopen, -⟩ := hends
  obtain rfl := Option.some.inj (hx.symm.trans hx')
  have told {exit : Exit} {text : String} (hexits : exits e' h = [exit])
      (htext : exit.text? setup.maxFrameBytes x.id = some text) :
      EndedBy h s e' x (.act (.reader e')) := by
    refine .broker hexits ?_
    cases exit <;> first | rfl | cases htext
  cases ((progress_of_run run _).2 x hx).of_stopped hr with
  | @cut exit hexits htext =>
    have hmem : exit ∈ exits e' h := hexits ▸ List.mem_singleton_self _
    cases exit with
    | closed =>
      -- a session that had been closed before is not ended any more
      obtain ⟨z, hz, hclosed⟩ := closed_of_mem_exits run hmem
      obtain rfl := Option.some.inj (hx.symm.trans hz)
      exact absurd (hopen.symm.trans hclosed) Bool.false_ne_true
    | busClosed => exact .bus hexits (bus_closed_of_mem_exits run hmem)
    | peerClosed | failed | malformed | tooLarge => cases htext
  | hushed hexits htext => exact told hexits htext
  | told hexits htext => exact told hexits htext

/-- What a call ends it ends for the client of the session, or because it could not write to it,
unless it ends all sessions. -/
theorem CallStep.endedBy (run : Run setup busCapacity h s) (hc : s.calls[i]? = some c)
    (hx : s.sessions[e]? = some x) (step : CallStep setup s i c t) (hends : Ends s t e)
    (hclear : c.purpose ≠ .teardownAll) : EndedBy h s e x (.act (.call i)) := by
  have hv := visits_of_run run hc
  rcases step.ends (census_of_run run) hends with ⟨f, hst⟩ | ⟨hst, hr⟩ | hst | hmem
  · rw [hst] at hv
    obtain ⟨⟨msg, command⟩, hp⟩ := Option.isSome_iff_exists.mp hv
    have hid := Stage.session?_of_usesId hv rfl
    have hb := trail_of_run run hc hp
    rw [hst] at hb
    have ho := owner_of_run (e := e) run hc hid (by rw [hst]; simp [Stage.keeps])
    obtain ⟨z, hz, hzid⟩ := owner?_eq_some_iff.mp ho
    obtain rfl := Option.some.inj (hx.symm.trans hz)
    exact .write hc (hzid ▸ hid) hb
  · have hu : c.stage.usesId = true := by
      cases hstage : c.stage <;> simp_all [Stage.removes, Stage.usesId]
    have hid := Stage.session?_of_usesId hv hu
    have hremoves : c.purpose.removes = true := by
      cases hstage : c.stage <;> simp_all [Stage.removes, Purpose.visits]
    refine .client hc hremoves ?_ hst
    rw [(census_of_run run).id_eq_of_registered? hx hr]
    exact hid
  · rw [hst] at hv
    cases hp : c.purpose <;> simp_all [Purpose.visits, Purpose.clears]
  · rcases closed_of_closes run hc hmem with ⟨z, hz, hclosed⟩ | hp
    · obtain ⟨x', y, hx', -, hopen, -⟩ := hends
      obtain rfl := Option.some.inj (hz.symm.trans hx')
      exact absurd (hopen.symm.trans hclosed) Bool.false_ne_true
    · exact .closed hc hp

/-- Every session is ended by one of these, unless a call ends all sessions. -/
theorem MoveStep.endedBy (run : Run setup busCapacity h s) (step : MoveStep setup s m t)
    (hx : s.sessions[e]? = some x) (hends : Ends s t e)
    (hclear : ∀ (i : CallId) (c : Call), s.calls[i]? = some c → c.purpose ≠ .teardownAll) :
    EndedBy h s e x m := by
  cases step with
  | reader hx' step =>
    obtain ⟨rfl, hby⟩ := step.endedBy run hx' hends
    obtain rfl := Option.some.inj (hx'.symm.trans hx)
    exact hby
  | @call i c _ hc step => exact step.endedBy run hc hx hends (hclear i c hc)
  | attach | connected => exact (hends.false_of_append rfl rfl).elim
  | brokerPut | brokerTake | brokerDrop | breakInput | letGo =>
    exact (hends.false_of_modify rfl rfl fun _ _ => rfl).elim
  | @forget id =>
    -- only the session with that id is taken out
    obtain ⟨x', y, hx', hy, hopen, hend⟩ := hends
    obtain rfl := Option.some.inj (hx.symm.trans hx')
    obtain rfl := Option.some.inj (hx.symm.trans hy)
    rcases hend with hclosed | ⟨hin, hout⟩
    · exact absurd (hopen.symm.trans hclosed) Bool.false_ne_true
    · obtain ⟨p, hp, rfl⟩ := List.mem_map.mp hin
      have hid : id = x.id := by
        rw [(census_of_run run).id_eq hx hp]
        by_contra hne
        refine hout (List.mem_map_of_mem (List.mem_filter.mpr ⟨hp, ?_⟩))
        exact decide_eq_true (Ne.symm hne)
      subst hid
      exact .forgotten
  | start | refused | undialed | receive | dropBus =>
    exact (hends.false_of_eq rfl (List.Subset.refl _)).elim

/-! ### Moves on no account -/

/-- A session that is not there is not changed. -/
theorem sessions_modifySession_of_none {f : Session → Session} (hs : s.sessions[e]? = none) :
    (s.modifySession e f).sessions = s.sessions := by
  apply List.ext_getElem?
  intro e'
  by_cases he : e = e'
  · subst he
    rw [getElem?_modifySession, if_pos rfl, hs, Option.map_none]
  · exact getElem?_modifySession_of_ne he

/-- In every run, a session that a call names by its place is there. -/
theorem target_lt_of_run (run : Run setup busCapacity h s) (hc : s.calls[i]? = some c)
    (htarget : c.purpose.target? = some e) : e < s.sessions.length := by
  induction run generalizing c with
  | nil => simp [Relay.empty] at hc
  | @snoc h s t m run hm ih =>
    have step := run.moveStep hm
    have hlen : s.sessions.length ≤ t.sessions.length := by
      rcases step.sessions_grow with heq | ⟨id, capacity, heq⟩
      · exact Nat.le_of_eq heq.symm
      · simp [heq]
    refine Nat.lt_of_lt_of_le ?_ hlen
    cases hs : s.calls[i]? with
    | some b =>
      have hpurpose := step.purpose_eq hs hc
      exact ih hs (hpurpose ▸ htarget)
    | none =>
      obtain ⟨-, rfl | ⟨id, capacity, reads, holds, -, hp⟩⟩ := step.call_new hs hc
      · cases step with
        | start hmay =>
          cases hp : c.purpose with
          | write | close =>
            rw [hp] at hmay htarget
            cases htarget
            exact of_decide_eq_true hmay
          | _ =>
            rw [hp] at htarget
            cases htarget
      · rw [hp] at htarget
        cases htarget

/-- In every run, a call on no client's account ends all sessions. -/
theorem eq_teardownAll_of_run (run : Run setup busCapacity h s) (hc : s.calls[i]? = some c)
    (ha : s.client? c.purpose = none) : c.purpose = .teardownAll := by
  have target (e : Place) (htarget : c.purpose.target? = some e) : False := by
    rw [client?, htarget] at ha
    have hlt := target_lt_of_run run hc htarget
    simp [Relay.owner?, List.getElem?_eq_getElem hlt] at ha
  cases hp : c.purpose with
  | teardownAll => rfl
  | write e _ | close e => exact (target e (by rw [hp]; rfl)).elim
  | _ =>
    rw [hp] at ha
    cases ha

/-- A step on no client's account changes no session and no entry, unless it is of a call that ends
all sessions. -/
theorem MoveStep.of_no_account (run : Run setup busCapacity h s) (step : MoveStep setup s m t)
    (ha : s.account? m = none) :
    t.sessions = s.sessions ∧ t.registry = s.registry
      ∨ ∃ i c, m = .act (.call i) ∧ s.calls[i]? = some c ∧ c.purpose = .teardownAll := by
  cases step with
  | reader hx =>
    have ha' : s.owner? _ = none := ha
    rw [owner?_of_getElem? hx] at ha'
    cases ha'
  | @call i c _ hc =>
    have hp : s.client? c.purpose = none := by simpa [account?, Actor.ticket, holder?, hc] using ha
    exact .inr ⟨i, c, rfl, hc, eq_teardownAll_of_run run hc hp⟩
  | @refused i p reason hc | @connected i p capacity hc =>
    have hp : s.client? p = none := by simpa [account?, holder?, hc] using ha
    have heq : p = .teardownAll := eq_teardownAll_of_run run hc hp
    -- a call that ends all sessions does not wait for a connection
    have hv : p.visits .dialing = true := visits_of_run run hc
    rw [heq] at hv
    cases hv
  | brokerPut | brokerTake | brokerDrop | breakInput | letGo =>
    exact .inl ⟨sessions_modifySession_of_none (Option.map_eq_none_iff.mp ha), rfl⟩
  | attach | forget => cases ha
  | start | undialed | receive | dropBus => exact .inl ⟨rfl, rfl⟩

/-! ### The whole -/

/-- A step on the account of one client changes nothing that belongs to another, and the bus only by
messages for that client and by its places in line. A step on no client's account changes no session
and no entry of the register, unless it is of a call that ends all sessions, and only such a step
ends sessions of two clients. So unless somebody has asked for the end of all sessions, every
session that ends is ended on account of its own client, its own broker, a write of its own, or the
loss of the bus. -/
theorem failures_contained (run : Run setup busCapacity h s) (hm : s.move? setup m = some t) :
    (∀ a, s.account? m = some a → Contained a s t)
      ∧ (s.account? m = none → t.sessions = s.sessions ∧ t.registry = s.registry
        ∨ ∃ i c, m = .act (.call i) ∧ s.calls[i]? = some c ∧ c.purpose = .teardownAll)
      ∧ (∀ e e' x x', s.sessions[e]? = some x → s.sessions[e']? = some x' → x.id ≠ x'.id →
        Ends s t e → Ends s t e' →
        ∃ i c, m = .act (.call i) ∧ s.calls[i]? = some c ∧ c.purpose = .teardownAll)
      ∧ ((∀ τ ∈ h, τ.move ≠ .start .teardownAll) →
        ∀ e x, s.sessions[e]? = some x → Ends s t e → EndedBy h s e x m) := by
  have step := run.moveStep hm
  refine ⟨fun a ha => step.contained run ha, fun ha => step.of_no_account run ha, ?_, ?_⟩
  · intro e e' x x' hx hx' hid hends hends'
    cases ha : s.account? m with
    | some a =>
      have hcont := step.contained run ha
      have hcen := census_of_run run
      have hcen' := census_of_run (.snoc run hm)
      exact absurd ((hends.id_eq_of_contained hcont hcen hcen' hx).trans
        (hends'.id_eq_of_contained hcont hcen hcen' hx').symm) hid
    | none =>
      rcases step.of_no_account run ha with ⟨hsessions, hregistry⟩ | hclear
      · exact (hends.false_of_eq hsessions (fun _ hp => hregistry ▸ hp)).elim
      · exact hclear
  · intro hnone e x hx hends
    refine step.endedBy run hx hends ?_
    intro i c hc hp
    rcases started_of_run run hc with ⟨τ, hτ, heq⟩ | ⟨id, reads, holds, heq⟩
    · exact hnone τ hτ (hp ▸ heq)
    · exact nomatch hp.symm.trans heq

/-- Two clients have a session each, and the broker of the first one hangs up. -/
def hangUp : List Move :=
  [.attach "a" 64 true false, .act (.call 0), .act (.call 0),
    .attach "b" 64 true false, .act (.call 1), .act (.call 1),
    .brokerDrop 0, .act (.reader 0), .act (.reader 0)]

/-- The reader of the first session ends it because of its broker, and nothing happens to the
second. -/
theorem failures_contained_of_hang_up :
    ∃ h s t x, Run ⟨.standard, 16, "broker"⟩ 4 h s
      ∧ s.move? ⟨.standard, 16, "broker"⟩ (.act (.reader 0)) = some t
      ∧ t.ids = ["b"] ∧ t.sessions.map Session.closed = [true, false]
      ∧ s.sessions[0]? = some x ∧ Contained "a" s t
      ∧ EndedBy h s 0 x (.act (.reader 0)) := by
  obtain ⟨h, s, t, x, run, hm, hids, hclosed, hx, ha, hends, hnone⟩ :
      ∃ h s t x, Run ⟨.standard, 16, "broker"⟩ 4 h s
        ∧ s.move? ⟨.standard, 16, "broker"⟩ (.act (.reader 0)) = some t
        ∧ t.ids = ["b"] ∧ t.sessions.map Session.closed = [true, false]
        ∧ s.sessions[0]? = some x ∧ s.account? (.act (.reader 0)) = some "a" ∧ Ends s t 0
        ∧ ∀ τ ∈ h, τ.move ≠ .start .teardownAll :=
    ⟨_, _, _, _, path_of_trace? hangUp rfl, rfl, rfl, rfl, rfl, rfl,
      ⟨_, _, rfl, rfl, rfl, .inl rfl⟩, by simp⟩
  obtain ⟨hcontained, -, -, hended⟩ := failures_contained run hm
  exact ⟨h, s, t, x, run, hm, hids, hclosed, hx, hcontained "a" ha, hended hnone 0 x hx hends⟩

end Relay

end StompRelay
