import StompRelay.Proofs.Handling.Launch
import StompRelay.Proofs.Wire.Share
/-!
# Logins of one id at the same time

A login asks whether its id is free before it dials, and again when it registers its session; in
between, others may have come first. However many logins of one id there are, one of them at most
gets its session registered before that session is ended. A login that finds its id taken, at
either time, changes nothing, except that it may have opened a connection, which it drops unused.

## Main definitions

* `Relay.entrants` — the calls that registered a session under an id
* `Relay.claims` — what the calls found that asked whether their ids were free
* `Relay.Unused` — a session was never registered, read from or written to
* `Relay.TurnedAway` — what is known of a call that found its id taken

## Main results

* `Relay.entrants_of_path` — one call at most gets in until a session of the id is ended
* `Relay.unused_of_run` — a session that was not registered was not used
* `Relay.taken_of_run`, `Relay.exists_claim_of_done` — the calls that find their ids taken are those
  that say so
* `Relay.one_login_admitted` — the whole
-/

namespace StompRelay

/-- Whether a call asks next whether its id is free, before it dials or when it registers its
session. -/
def Stage.claims : Stage → Bool
  | admitting | registering _ => true
  | _ => false

/-- Whether a call has not been let in: it has not registered a session yet. -/
def Stage.isOutside : Stage → Bool
  | admitting | dialing | registering _ => true
  | _ => false

theorem Stage.isOutside_of_claims {stage : Stage} (hs : stage.claims = true) :
    stage.isOutside = true := by
  cases stage <;> first | rfl | cases hs

/-- A call that asks whether its id is free has not looked for a session, nor does it now. -/
theorem Stage.not_looked_of_claims {stage : Stage} (hs : stage.claims = true) :
    stage.hasLooked = false ∧ stage.looks = false := by
  cases stage <;> first | exact ⟨rfl, rfl⟩ | cases hs

/-- A call that is outside has been so all the time. -/
theorem Stage.Next.isOutside {codec : Codec} {p : Purpose} {old new : Stage}
    (hnext : Stage.Next codec p old new) (hnew : new.isOutside = true) : old.isOutside = true := by
  have hw : new.wrapsUp = false := by cases new <;> first | rfl | cases hnew
  cases hnext.advance hw with
  | dial | dialed => rfl
  | _ => cases hnew

namespace Relay

/-- The call that registers a session under an id in a step. -/
def Transition.entrant? (id : SessionId) (τ : Transition) : Option CallId :=
  match τ.move with
  | .act (.call i) => τ.before.calls[i]?.bind fun c =>
    if c.purpose.id = id ∧ c.stage.registers ∧ τ.before.registered? id = none then some i else none
  | _ => none

/-- The calls that registered a session under an id, in order. -/
def entrants (id : SessionId) (h : History) : List CallId :=
  h.filterMap (Transition.entrant? id)

/-- What the calls found that asked whether their ids were free, in order. -/
abbrev claims (h : History) : List (CallId × Option Place) := inquiries Stage.claims h

/-- Whether a move is one of a call, or gives it a connection or none. -/
def Move.isOfCall (i : CallId) : Move → Bool
  | .act (.call j) | .dialed j _ => j = i
  | _ => false

/-- Nothing that is there changes, except for a session that was opened for call `i`. -/
structure Reserved (h : History) (i : CallId) (s t : Relay) : Prop where
  registry : t.registry = s.registry
  bus : t.bus = s.bus
  sessions : ∀ (e : Place) (x : Session), (i, e) ∉ openings h → s.sessions[e]? = some x →
    t.sessions[e]? = some x

/-- A call has changed nothing but the session that was opened for it. -/
def Aloof (h : History) (i : CallId) : Prop :=
  ∀ τ ∈ h, τ.move.isOfCall i = true → Reserved h i τ.before τ.after

/-- Session `e` was never registered. It never had a reader, and has been given up; and nothing was
written to it. -/
structure Unused (h : History) (s : Relay) (e : Place) : Prop where
  unregistered : e ∉ (creations h).map Prod.snd
  unread : ∀ τ ∈ h, τ.move ≠ .act (.reader e) ∧ ∀ y, τ.after.sessions[e]? = some y →
    y.reader = .unstarted ∨ y.reader = .finished
  unwritten : queuedWrites (writes e h) = []
  released : ∃ x, s.sessions[e]? = some x ∧ x.reader = .finished ∧ x.toBroker.sent = []
    ∧ s.released e = true

/-- What is known of call `i` that was told that its id is taken. -/
structure TurnedAway (h : History) (s : Relay) (i : CallId) : Prop where
  taken : ∃ e, (i, some e) ∈ claims h
  aloof : Aloof h i
  wrote : ∀ e, putBy i e h = [] ∧ ∀ frame, (i, frame) ∉ queuedWrites (writes e h)
  dropped : ∀ e, (i, e) ∈ openings h → Unused h s e

variable {setup : Setup} {busCapacity : Nat} {s t : Relay} {h k : History} {m : Move} {e : Place}
  {i : CallId} {c d : Call} {x y : Session} {id key : SessionId}

/-!
### One gets in

What a login found when it asked before it dialed may be out of date when it registers. But it asks
again in the very step in which it registers, and a session that is registered stays so until it is
ended.
-/

theorem entrants_snoc (id : SessionId) (h : History) (τ : Transition) :
    entrants id (h ++ [τ]) = entrants id h ++ (τ.entrant? id).toList := by
  cases hτ : τ.entrant? id <;> simp [entrants, hτ]

/-- A call gets in where nobody is in, and is in then. -/
theorem MoveStep.registered?_of_entrant (step : MoveStep setup s m t)
    (hτ : Transition.entrant? id ⟨s, m, t⟩ = some i) :
    s.registered? id = none ∧ ∃ e, t.registered? id = some e := by
  cases step with
  | @call j c _ hc own =>
    simp only [Transition.entrant?, hc, Option.bind_some] at hτ
    obtain ⟨⟨rfl, hregisters, hnone⟩, -⟩ := Option.ite_none_right_eq_some.mp hτ
    refine ⟨hnone, ?_⟩
    cases own with
    | @register e => exact ⟨e, by rw [registered?_of_append rfl, hnone]; simp⟩
    | reject hst hr => exact nomatch hnone.symm.trans hr
    | refuse hst | dial hst | attach hst | start hst | find hst | miss hst | encode hst
    | unencodable hst | queue hst | turn hst | bounce hst | cut hst | accept hst | finish hst
    | snap hst | push hst | complete hst | condemn hst | late hst | remove hst | pass hst
    | clear hst | close hst | leave hst | join hst | refrain hst | post hst =>
      rw [hst] at hregisters
      cases hregisters
  | _ => cases hτ

/-- Who is in stays in, unless the session is ended. -/
theorem RegisterStep.registered? {event : Option LifeEvent} (step : RegisterStep s t event)
    (hr : s.registered? id = some e)
    (hends : ∀ e, .ends e ∉ event.toList.flatMap (LifeEvent.lives id)) :
    t.registered? id = some e := by
  cases step with
  | rest ht => rw [registered?_of_eq ht, hr]
  | create _ _ _ _ ht => rw [registered?_of_append ht, hr, Option.some_or]
  | @«end» key e' hkey ht =>
    by_cases hid : key = id
    · exact absurd (by simp [LifeEvent.lives, hid]) (hends e')
    · rw [registered?_of_filter ht, if_neg hid, hr]
  | clear =>
    have hlookup : s.registry.lookup id = some e := hr
    exact absurd (by simp [LifeEvent.lives, hlookup]) (hends e)

/-- In a managed run, one call at most gets its session registered under an id until a session of
that id is ended. -/
theorem entrants_of_path (run : Run setup busCapacity h s) (hm : Managed h)
    (path : Path setup s k t) (hk : Managed k) (hends : ∀ e, .ends e ∉ lives id k) :
    (entrants id k).length ≤ 1 ∧ (entrants id k ≠ [] → ∃ e, t.registered? id = some e) := by
  induction path with
  | nil => exact ⟨Nat.zero_le 1, fun hne => absurd rfl hne⟩
  | @snoc k t u m path hmove ih =>
    obtain ⟨hbefore, hmanual⟩ := managed_snoc.mp hk
    have run' := run.append path
    have step := run'.moveStep hmove
    have hm' := managed_append.mpr ⟨hm, hbefore⟩
    have hends' (e : Place) := hends e
    simp only [lives_snoc, List.mem_append, not_or] at hends'
    obtain ⟨hlength, hin⟩ := ih hbefore fun e => (hends' e).1
    rw [entrants_snoc]
    cases hτ : Transition.entrant? id ⟨t, m, u⟩ with
    | none =>
      rw [Option.toList_none, List.append_nil]
      refine ⟨hlength, fun hne => ?_⟩
      obtain ⟨e, hr⟩ := hin hne
      have horderly := (orderly_snoc.mp (managed_snoc.mpr ⟨hm', hmanual⟩ :
        Managed ((h ++ k) ++ [⟨t, m, u⟩])).orderly).2
      have register := step.registerStep (enrolled_of_run run' hm'.orderly) horderly
      exact ⟨e, register.registered? hr fun e => (hends' e).2⟩
    | some i =>
      -- whoever got in before would still be in
      obtain ⟨hnone, hr⟩ := step.registered?_of_entrant hτ
      have hnil : entrants id k = [] := by
        by_contra hne
        obtain ⟨e, hr'⟩ := hin hne
        exact nomatch hnone.symm.trans hr'
      rw [hnil]
      exact ⟨Nat.le_refl 1, fun _ => hr⟩

/-! ### Sessions that were not registered -/

/-- A reader that moves is there. -/
theorem ReaderStep.reader_ne (step : ReaderStep setup s e x t) :
    x.reader ≠ .unstarted ∧ x.reader ≠ .finished := by
  cases step with
  | stop hr | read hr | overflow hr | reject hr | skip hr | offer hr | fetch hr | lose hr
  | fail hr | abandon hr | post hr | hush hr | announce hr | unregister hr | quit hr | shut hr =>
    rw [hr]
    exact ⟨nofun, nofun⟩

/-- In a managed run, the reader of a session that was not registered has not been started, or the
session has been dropped. -/
theorem reader_of_unregistered (run : Run setup busCapacity h s) (hm : Managed h)
    (hx : s.sessions[e]? = some x) (hu : e ∉ (creations h).map Prod.snd) :
    x.reader = .unstarted ∨ x.reader = .finished := by
  obtain ⟨i, ho⟩ := exists_opening_of_run run hm hx
  obtain ⟨c, -, hc, -⟩ := (opened_of_run run).calls i e ho
  rcases launched_of_run run hm ho hc hx with (hst | ⟨hmem, -⟩) | hdropped
  · exact .inl ((opening_of_run run).eq_unstarted hx hc (by simp [hst, Stage.opens]))
  · exact absurd (List.mem_map_of_mem hmem) hu
  · exact .inr hdropped.finished

/-- In a managed run, a session that was not registered has never had a reader. -/
theorem unread_of_unregistered (run : Run setup busCapacity h s) (hm : Managed h)
    (hu : e ∉ (creations h).map Prod.snd) :
    ∀ τ ∈ h, τ.move ≠ .act (.reader e) ∧ ∀ y, τ.after.sessions[e]? = some y →
      y.reader = .unstarted ∨ y.reader = .finished := by
  induction run with
  | nil => exact fun τ hτ => nomatch hτ
  | @snoc h s t m run hmove ih =>
    have hbefore := (managed_snoc.mp hm).1
    have hold : e ∉ (creations h).map Prod.snd := fun hmem => by
      obtain ⟨entry, hentry, rfl⟩ := List.mem_map.mp hmem
      exact hu (List.mem_map_of_mem (mem_creations_snoc hentry))
    intro τ hτ
    rcases List.mem_append.mp hτ with hτ | hτ
    · exact ih hbefore hold τ hτ
    · obtain rfl := List.mem_singleton.mp hτ
      refine ⟨?_, fun y hy => reader_of_unregistered (.snoc run hmove) hm hy hu⟩
      rintro rfl
      cases run.moveStep hmove with
      | reader hx own =>
        obtain ⟨hunstarted, hfinished⟩ := own.reader_ne
        exact (reader_of_unregistered run hbefore hx hold).elim hunstarted hfinished

/-- A session that a call finds is, or was, registered. -/
theorem created_of_inquiry {asks : Stage → Bool} (run : Run setup busCapacity h s)
    (horderly : Orderly h) (hq : (i, some e) ∈ inquiries asks h) :
    ∃ id, (id, e) ∈ creations h := by
  induction run with
  | nil => cases hq
  | @snoc h s t m run hmove ih =>
    have hbefore := (orderly_snoc.mp horderly).1
    rw [inquiries_snoc, List.mem_append, Option.mem_toList] at hq
    rcases hq with hq | hq
    · obtain ⟨id, hmem⟩ := ih hbefore hq
      exact ⟨id, mem_creations_snoc hmem⟩
    · obtain ⟨-, c, -, -, hr, -⟩ := (run.moveStep hmove).exists_of_inquiry? hq
      have hentry := mem_registry_of_registered? hr.symm
      exact ⟨_, mem_creations_snoc ((chronicle_of_run run hbefore).entered _ e hentry)⟩

/-- In a managed run, nobody has queued to write to a session that was not registered. -/
theorem unwritten_of_unregistered (run : Run setup busCapacity h s) (hm : Managed h)
    (hu : e ∉ (creations h).map Prod.snd) : queuedWrites (writes e h) = [] := by
  rw [List.eq_nil_iff_forall_not_mem]
  rintro ⟨j, frame⟩ hq
  obtain ⟨d, hd, hp | ⟨msg, command, hp, -⟩⟩ := writes_of_queued run hq
  · have hmanual := isManual_of_run run hm hd
    rw [hp] at hmanual
    cases hmanual
  · obtain ⟨id, hmem⟩ := created_of_inquiry run hm.orderly (look_of_queued run hd hp hq).1
    exact hu (List.mem_map_of_mem hmem)

/-- In a managed run, a session that was dropped was never used. -/
theorem unused_of_run (run : Run setup busCapacity h s) (hm : Managed h) (ho : (i, e) ∈ openings h)
    (hc : s.calls[i]? = some c) (hx : s.sessions[e]? = some x) (hdropped : Dropped h i c e x) :
    Unused h s e := by
  have hunwritten := unwritten_of_unregistered run hm hdropped.unregistered
  exact ⟨hdropped.unregistered, unread_of_unregistered run hm hdropped.unregistered, hunwritten,
    x, hx, hdropped.finished, ((wired_of_run run e).2 x hx).2.sent_eq_nil hunwritten,
    (hdropped.released run hm ho hc hx).2⟩

/-! ### Calls that find their ids taken -/

theorem Reserved.snoc {τ : Transition} (hr : Reserved h i s t) : Reserved (h ++ [τ]) i s t where
  registry := hr.registry
  bus := hr.bus
  sessions e x ho := hr.sessions e x fun ho' => ho (mem_openings_snoc ho')

theorem Aloof.snoc {τ : Transition} (ha : Aloof h i)
    (hτ : τ.move.isOfCall i = true → Reserved h i τ.before τ.after) : Aloof (h ++ [τ]) i := by
  intro τ' hmem hmove
  rcases List.mem_append.mp hmem with hmem | hmem
  · exact (ha τ' hmem hmove).snoc
  · obtain rfl := List.mem_singleton.mp hmem
    exact (hτ hmove).snoc

/-- A connection that is opened for a call, or not, changes nothing that was there. -/
theorem MoveStep.reserved_of_dialed {j : CallId} {answer : Except String Nat}
    (step : MoveStep setup s (.dialed j answer) t) : Reserved h i s t := by
  cases step with
  | refused | undialed => exact ⟨rfl, rfl, fun _ _ _ hx => hx⟩
  | connected =>
    exact ⟨rfl, rfl, fun e x _ hx =>
      (List.getElem?_append_left (List.getElem?_eq_some_iff.mp hx).1).trans hx⟩

/-- A call that is outside registers its session, or changes nothing but the session that was opened
for it. -/
theorem CallStep.reserved (run : Run setup busCapacity h s) (hm : Managed h)
    (hc : s.calls[i]? = some c) (step : CallStep setup s i c t)
    (hout : c.stage.isOutside = true) :
    (∃ e, t.stage? i = some (.starting e)) ∨ Reserved h i s t := by
  cases step with
  | refuse | dial => exact .inr ⟨rfl, rfl, fun _ _ _ hx => hx⟩
  | register => exact .inl ⟨_, stage?_of_calls_eq (stage?_eq_of_getElem? hc) rfl⟩
  | @reject e _ hst =>
    refine .inr ⟨rfl, rfl, fun e' x ho hx => ?_⟩
    have hopens := opening_of_opens run hm hc (e := e) (by simp [hst, Stage.opens])
    have hne : e ≠ e' := fun he => ho (he ▸ hopens)
    exact (getElem?_modifySession_of_ne hne).trans hx
  | attach hst | start hst | find hst | miss hst | encode hst | unencodable hst | queue hst
  | turn hst | bounce hst | cut hst | accept hst | finish hst | snap hst | push hst
  | complete hst | condemn hst | late hst | remove hst | pass hst | clear hst | close hst
  | leave hst | join hst | refrain hst | post hst =>
    rw [hst] at hout
    cases hout

/-- In a managed run, a call that is outside, or has not been started, has changed nothing. -/
theorem aloof_of_run (run : Run setup busCapacity h s) (hm : Managed h)
    (hout : ∀ c, s.calls[i]? = some c → c.stage.isOutside = true) : Aloof h i := by
  induction run with
  | nil => exact fun τ hτ => nomatch hτ
  | @snoc h s t m run hmove ih =>
    have hbefore := (managed_snoc.mp hm).1
    have step := run.moveStep hmove
    -- nobody gets outside again, so the call was outside before
    have hout' (c : Call) (hc : s.calls[i]? = some c) : c.stage.isOutside = true := by
      obtain ⟨d, hd, -, heq | hnext⟩ := step.call_after hc
      · exact heq ▸ hout d hd
      · exact hnext.isOutside (hout d hd)
    refine (ih hbefore hout').snoc fun hmine => ?_
    cases m with
    | act a =>
      cases a with
      | reader => cases hmine
      | call j =>
        obtain rfl : j = i := by simpa [Move.isOfCall] using hmine
        cases step with
        | call hc own =>
          refine (own.reserved run hbefore hc (hout' _ hc)).resolve_left ?_
          rintro ⟨e, hnew⟩
          obtain ⟨d, hd, hst⟩ := Option.map_eq_some_iff.mp hnew
          have hstage := hout d hd
          rw [hst] at hstage
          cases hstage
    | dialed => exact step.reserved_of_dialed
    | _ => cases hmine

/-- A call that has ended changes nothing any more. -/
theorem MoveStep.reserved_of_done {o : Outcome} (step : MoveStep setup s m t)
    (hc : s.calls[i]? = some c) (hdone : c.stage = .done o) (hmine : m.isOfCall i = true) :
    Reserved h i s t := by
  cases m with
  | act a =>
    cases a with
    | reader => cases hmine
    | call j =>
      obtain rfl : j = i := by simpa [Move.isOfCall] using hmine
      cases step with
      | call hc' own =>
        obtain rfl := Option.some.inj (hc'.symm.trans hc)
        obtain ⟨new, -, hnext, -⟩ := own.stage?_eq hc
        rw [hdone] at hnext
        cases hnext
  | dialed => exact step.reserved_of_dialed
  | _ => cases hmine

/-- A call that finds its id taken says so, and drops the session that was opened for it. -/
theorem CallStep.turned_away (step : CallStep setup s i c t) (hc : s.calls[i]? = some c)
    (hclaims : c.stage.claims = true) (hr : s.registered? c.purpose.id = some e) :
    t.stage? i = some (.done (.failed (.sessionAlreadyExists c.purpose.id)))
      ∧ ∀ e', c.stage = .registering e' → t.sessions = (s.setReader e' .finished).sessions := by
  have moved {stage : Stage} (hcalls : t.calls = (s.setStage i stage).calls) :
      t.stage? i = some stage :=
    stage?_of_calls_eq (stage?_eq_of_getElem? hc) hcalls
  cases step with
  | refuse hst => exact ⟨moved rfl, fun e' hst' => nomatch hst.symm.trans hst'⟩
  | reject hst =>
    refine ⟨moved rfl, fun e' hst' => ?_⟩
    cases hst.symm.trans hst'
    rfl
  | dial _ hnone | register _ hnone => exact nomatch hr.symm.trans hnone
  | attach hst | start hst | find hst | miss hst | encode hst | unencodable hst | queue hst
  | turn hst | bounce hst | cut hst | accept hst | finish hst | snap hst | push hst
  | complete hst | condemn hst | late hst | remove hst | pass hst | clear hst | close hst
  | leave hst | join hst | refrain hst | post hst =>
    rw [hst] at hclaims
    cases hclaims

/-- In a managed run, a call that found its id taken says so. It has looked for no session, has
changed nothing, and has dropped the session that was opened for it. -/
theorem taken_of_run (run : Run setup busCapacity h s) (hm : Managed h)
    (hq : (i, some e) ∈ claims h) :
    ∃ c, s.calls[i]? = some c ∧ c.stage = .done (.failed (.sessionAlreadyExists c.purpose.id))
      ∧ (∀ r, (i, r) ∉ looks h) ∧ Aloof h i
      ∧ ∀ e' x, (i, e') ∈ openings h → s.sessions[e']? = some x → Dropped h i c e' x := by
  induction run with
  | nil => cases hq
  | @snoc h s t m run hmove ih =>
    obtain ⟨hbefore, hmanual⟩ := managed_snoc.mp hm
    have step := run.moveStep hmove
    rw [claims, inquiries_snoc, List.mem_append, Option.mem_toList] at hq
    rcases hq with hq | hq
    · obtain ⟨c, hc, hst, hlooks, haloof, hdropped⟩ := ih hbefore hq
      refine ⟨c, step.done_after hc hst, hst, ?_,
        haloof.snoc fun hmine => step.reserved_of_done hc hst hmine, ?_⟩
      · intro r hl
        rw [looks, inquiries_snoc, List.mem_append, Option.mem_toList] at hl
        rcases hl with hl | hl
        · exact hlooks r hl
        · obtain ⟨-, c', hc', hlooks', -⟩ := step.exists_of_inquiry? hl
          obtain rfl := Option.some.inj (hc'.symm.trans hc)
          rw [hst] at hlooks'
          cases hlooks'
      · intro e' y ho hy
        rw [openings_snoc, List.mem_append, Option.mem_toList] at ho
        rcases ho with ho | ho
        · obtain ⟨b, x, hb, hx, -⟩ := (opened_of_run run).calls i e' ho
          exact (hdropped e' x ho hx).step run hbefore step hmanual ho hc hx
            (step.done_after hc hst) hy
        · obtain ⟨-, p, capacity, hc', -⟩ := step.exists_of_opening? ho
          obtain rfl := Option.some.inj (hc'.symm.trans hc)
          cases hst
    · obtain ⟨rfl, c, hc, hclaims, hr, own⟩ := step.exists_of_inquiry? hq
      obtain ⟨hdone, hreader⟩ := own.turned_away hc hclaims hr.symm
      obtain ⟨d, hd, hpurpose, -⟩ := step.call_after hc
      have hout := Stage.isOutside_of_claims hclaims
      refine ⟨d, hd, ?_, ?_, ?_, ?_⟩
      · rw [hpurpose]
        exact Option.some.inj ((stage?_eq_of_getElem? hd).symm.trans hdone)
      · intro r hl
        obtain ⟨hunlooked, hlooks⟩ := Stage.not_looked_of_claims hclaims
        rw [looks, inquiries_snoc, List.mem_append, inquiry?_call hc, hlooks] at hl
        have hl : (i, r) ∈ looks h := hl.resolve_right (by simp)
        obtain ⟨c', hc', hlooked⟩ := (looked_of_run run).2 i (List.mem_map_of_mem hl)
        obtain rfl := Option.some.inj (hc'.symm.trans hc)
        exact Bool.false_ne_true (hunlooked.symm.trans hlooked)
      · have hall (c' : Call) (hc' : s.calls[i]? = some c') : c'.stage.isOutside = true :=
          Option.some.inj (hc.symm.trans hc') ▸ hout
        refine (aloof_of_run run hbefore hall).snoc fun _ => ?_
        refine (own.reserved run hbefore hc hout).resolve_left ?_
        rintro ⟨e', hnew⟩
        cases hnew.symm.trans hdone
      · intro e' y ho hy
        rw [openings_snoc, List.mem_append] at ho
        have ho : (i, e') ∈ openings h := ho.resolve_right (by simp [Transition.opening?])
        obtain ⟨b, x, hb, hx, -, -, hdialed⟩ := (opened_of_run run).calls i e' ho
        obtain rfl := Option.some.inj (hb.symm.trans hc)
        -- a call that has dialed and asks is registering its session
        have hst : b.stage = .registering e' := by
          cases hst : b.stage with
          | registering e'' =>
            have hopens := opening_of_opens run hbefore hc (e := e'') (by simp [hst, Stage.opens])
            rw [(opened_of_run run).session i e' e'' ho hopens]
          | admitting =>
            rw [hst] at hdialed
            cases hdialed
          | _ =>
            rw [hst] at hclaims
            cases hclaims
        exact dropped_of_done run hbefore hc hst ⟨e, hr.symm⟩ hdone (hreader e' hst) hx hd hpurpose
          hy

/-- A call that opens a connection and says that its id is taken has found it so. -/
theorem exists_claim_of_done (run : Run setup busCapacity h s) (hc : s.calls[i]? = some c)
    (hdials : c.purpose.dials = true)
    (hdone : c.stage = .done (.failed (.sessionAlreadyExists key))) :
    key = c.purpose.id ∧ ∃ e, (i, some e) ∈ claims h := by
  refine known_of_run (P := fun p => p.dials = true) (K := fun h p stage => ∀ key,
    stage = .done (.failed (.sessionAlreadyExists key)) →
      key = p.id ∧ ∃ e, (i, some e) ∈ claims h) ?_ ?_ ?_ ?_ run hc hdials key hdone
  · intro h p n _ _ key hst
    cases p <;> cases hst
  · intro h τ p stage _ hk key hst
    obtain ⟨hkey, e, hq⟩ := hk key hst
    exact ⟨hkey, e, mem_inquiries_snoc hq⟩
  · intro h p new _ _ hnext key hst
    subst hst
    cases hnext
  · intro h s t c new run hp hc step hnew _ key hfailed
    obtain ⟨⟨msg, command⟩, hsends⟩ := Purpose.exists_sends_of_dials hp
    have trail := trail_of_run run hc hsends
    have moved {stage : Stage} (hcalls : t.calls = (s.setStage i stage).calls) :
        .done (.failed (.sessionAlreadyExists key)) = stage :=
      hfailed ▸ stage_eq_of_calls_eq (stage?_eq_of_getElem? hc) hnew hcalls
    have concluded {o : Outcome} (hcalls : t.calls = (s.setStage i (c.purpose.conclude o)).calls) :
        .done (.failed (.sessionAlreadyExists key)) = Stage.done o :=
      (moved hcalls).trans (Purpose.conclude_of_dials hp o)
    have claimed {e : Place} (hclaims : c.stage.claims = true)
        (hr : s.registered? c.purpose.id = some e)
        (heq : .done (.failed (.sessionAlreadyExists key))
          = Stage.done (.failed (.sessionAlreadyExists c.purpose.id))) :
        key = c.purpose.id ∧ ∃ e, (i, some e) ∈ claims (h ++ [⟨s, .act (.call i), t⟩]) := by
      cases heq
      exact ⟨rfl, e, hr ▸ mem_inquiries_call hc hclaims⟩
    have not_logout (hlogout : ∃ m, c.purpose = .logout m) : False := by
      obtain ⟨m, hm⟩ := hlogout
      rw [hm] at hp
      cases hp
    -- the two steps that turn a call away record what it found; no other ends it with that answer
    cases step with
    | refuse hst hr => exact claimed (by rw [hst]; rfl) hr (moved rfl)
    | reject hst hr => exact claimed (by rw [hst]; rfl) hr (moved rfl)
    | miss | unencodable | late | finish | complete => cases concluded rfl
    | bounce | cut | snap => cases (moved rfl).trans (c.purpose.afterBreak_of_sends hsends _ _)
    | @leave o final hst =>
      rw [hst] at trail
      cases final with
      | true => exact (not_logout trail.1).elim
      | false =>
        obtain ⟨e, f, -, rfl, -⟩ := trail
        cases concluded rfl
    | pass hst =>
      rw [hst] at trail
      exact (not_logout trail.1).elim
    | clear hst | join hst | refrain hst | post hst =>
      rw [hst] at trail
      exact trail.elim
    | attach _ hattach =>
      rw [hattach] at hp
      cases hp
    | dial | register | start | find | encode | queue | turn | accept | push | condemn | remove
    | close => cases moved rfl

/-! ### The whole -/

/-- However many logins of one id there are at the same time, in whatever order they and all others
take their steps: one session at most is registered under the id at any moment; one call at most
gets its session registered between two moments at which a session of the id is ended; and a call
that is told that its id is taken, whether before it dialed or as it registered its session, has
found a session registered there. It has written nothing to any session and has changed nothing at
all but the session that was opened for it, if one was; that session was never registered or
written to and never had a reader, and the relay has let go of its connection. -/
theorem one_login_admitted (run : Run setup busCapacity h s) (hm : Managed h) (id : SessionId) :
    (s.registry.filter fun entry => entry.1 = id).length ≤ 1
      ∧ (∀ k t, Path setup s k t → Managed k → (∀ e, .ends e ∉ lives id k) →
        (entrants id k).length ≤ 1)
      ∧ ∀ i c key, s.calls[i]? = some c → c.purpose.dials = true →
        s.outcome? i = some (.failed (.sessionAlreadyExists key)) →
        key = c.purpose.id ∧ TurnedAway h s i := by
  refine ⟨?_, fun k t path hk hends => (entrants_of_path run hm path hk hends).1, ?_⟩
  · have hids := (census_of_run run).ids
    have hcount : (s.registry.filter fun entry => entry.1 = id).length = s.ids.count id := by
      rw [ids, List.count_eq_countP, List.countP_map, List.countP_eq_length_filter]
      congr
    rw [hcount]
    exact List.nodup_iff_count_le_one.mp hids id
  · intro i c key hc hdials ho
    have hdone := (outcome?_eq_some_iff hc).mp ho
    obtain ⟨hkey, e, hq⟩ := exists_claim_of_done run hc hdials hdone
    obtain ⟨c', hc', -, hlooks, haloof, hdropped⟩ := taken_of_run run hm hq
    obtain rfl := Option.some.inj (hc'.symm.trans hc)
    obtain ⟨⟨msg, command⟩, hsends⟩ := Purpose.exists_sends_of_dials hdials
    have hqueued (e : Place) (frame : Bytes) : (i, frame) ∉ queuedWrites (writes e h) := fun hq =>
      hlooks _ (look_of_queued run hc hsends hq).1
    refine ⟨hkey, ⟨e, hq⟩, haloof, fun e => ⟨putBy_eq_nil run (hqueued e), hqueued e⟩, ?_⟩
    intro e' ho'
    obtain ⟨b, x, hb, hx, -⟩ := (opened_of_run run).calls i e' ho'
    exact unused_of_run run hm ho' hc hx (hdropped e' x ho' hx)

/-- Two logins of one client find its id free and get their connections. The one that dialed last
registers its session first; a third one comes then. -/
def threeLogins : List Move :=
  [.start (loginOf "a"), .start (loginOf "a"), .act (.call 0), .act (.call 1),
    .dialed 0 (.ok 64), .dialed 1 (.ok 64), .act (.call 1), .act (.call 0),
    .start (loginOf "a"), .act (.call 2)]

/-- One of them gets in; the others are told that the id is taken, and the connection of one of them
has been dropped without a byte. -/
theorem one_login_admitted_of_three_logins :
    ∃ h s, Run ⟨.standard, 16, "broker"⟩ 4 h s ∧ s.registry = [("a", 1)]
      ∧ entrants "a" h = [1] ∧ (entrants "a" h).length ≤ 1
      ∧ s.outcome? 0 = some (.failed (.sessionAlreadyExists "a"))
      ∧ s.outcome? 2 = some (.failed (.sessionAlreadyExists "a"))
      ∧ openings h = [(0, 0), (1, 1)] ∧ Unused h s 0 ∧ TurnedAway h s 2 := by
  obtain ⟨h, s, run, hm, hregistry, hentrants, hlives, hopenings, c, d, hc, hd, hcdials, hddials,
      ho, ho'⟩ :
      ∃ h s, Run ⟨.standard, 16, "broker"⟩ 4 h s ∧ Managed h ∧ s.registry = [("a", 1)]
        ∧ entrants "a" h = [1] ∧ lives "a" h = [.begins 1] ∧ openings h = [(0, 0), (1, 1)]
        ∧ ∃ c d, s.calls[0]? = some c ∧ s.calls[2]? = some d ∧ c.purpose.dials = true
        ∧ d.purpose.dials = true ∧ s.outcome? 0 = some (.failed (.sessionAlreadyExists "a"))
        ∧ s.outcome? 2 = some (.failed (.sessionAlreadyExists "a")) :=
    ⟨_, _, path_of_trace? threeLogins rfl, rfl, rfl, rfl, rfl, rfl, _, _, rfl, rfl, rfl, rfl, rfl,
      rfl⟩
  obtain ⟨-, hlength, -⟩ := one_login_admitted (.nil : Run ⟨.standard, 16, "broker"⟩ 4 [] _) rfl "a"
  obtain ⟨-, -, haway⟩ := one_login_admitted run hm "a"
  refine ⟨h, s, run, hregistry, hentrants, hlength h s run hm ?_, ho, ho', hopenings, ?_,
    (haway 2 d "a" hd hddials ho').2⟩
  · simp [hlives]
  · exact (haway 0 c "a" hc hcdials ho).2.dropped 0 (by simp [hopenings])

end Relay

end StompRelay
