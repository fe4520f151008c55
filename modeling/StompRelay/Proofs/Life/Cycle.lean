import StompRelay.Proofs.Life.Enrolment
/-!
# The life cycle of sessions

In every orderly run, a session that was registered is in the register exactly as long as it is
open, the lives under an id take turns, and the register holds as many sessions as were registered
and not ended since.

## Main definitions

* `Relay.Chronicle` — the register is what its history makes it
* `Stage.Tallied` — what a call that ends sessions will answer
* `Relay.LifeCycle` — what holds of the lives of sessions

## Main results

* `Relay.chronicle_of_run`, `Relay.tallied_of_run` — in every orderly run they do
* `Relay.life_cycle` — the life cycle of sessions
-/

namespace StompRelay

/-- Whether a call only ends sessions and answers how many. -/
def Purpose.tearsDown : Purpose → Bool
  | .teardown _ _ | .teardownAll => true
  | _ => false

/-- A call that only ends sessions and has ended so many will answer so many. -/
def Stage.Tallied (n : Nat) : Stage → Prop
  | .removing _ found missed => n = 0 ∧ found = .ended 1 ∧ missed = .ended 0
  | .clearing => n = 0
  | .closing _ o final => final = true ∧ o = .ended n
  | .done o => o = .ended n
  | _ => False

namespace Relay

variable {setup : Setup} {busCapacity : Nat} {s t : Relay} {h : History} {m : Move} {e : Place}
  {i : CallId} {c d : Call} {x : Session} {id : SessionId} {event : Option LifeEvent}
  {τ : Transition}

/-! ### The register and its history -/

/-- The register is what its history makes it. -/
structure Chronicle (h : History) (s : Relay) : Prop where
  entered : ∀ (id : SessionId) (e : Place), (id, e) ∈ s.registry → (id, e) ∈ creations h
  created : ∀ (id : SessionId) (e : Place), (id, e) ∈ creations h →
    ∃ x : Session, s.sessions[e]? = some x ∧ x.id = id
      ∧ (x.closed = false → (id, e) ∈ s.registry)
  once : ∀ (i : CallId) (c : Call) (e : Place), s.calls[i]? = some c →
    c.stage = .registering e → e ∉ (creations h).map Prod.snd
  nodup : ((creations h).map Prod.snd).Nodup
  alternating : ∀ id, Alternating (lives id h) (s.registered? id)
  balance : (creations h).length
    = s.registry.length + (teardowns h).length + (clearances h).sum

section Snoc

variable (hevent : τ.life? = event)
include hevent

theorem creations_snoc :
    creations (h ++ [τ]) = creations h ++ (event.bind LifeEvent.creation?).toList :=
  hevent ▸ filterMap_lifeEvents_snoc _ h τ

theorem teardowns_snoc :
    teardowns (h ++ [τ]) = teardowns h ++ (event.bind LifeEvent.teardown?).toList :=
  hevent ▸ filterMap_lifeEvents_snoc _ h τ

theorem clearances_snoc :
    clearances (h ++ [τ]) = clearances h ++ (event.bind LifeEvent.clearance?).toList :=
  hevent ▸ filterMap_lifeEvents_snoc _ h τ

end Snoc

/-- A session that is registered and not closed in a step stays registered. -/
theorem RegisterStep.mem_of_open (step : RegisterStep s t event) (he : s.Enrolled)
    (hmem : (id, e) ∈ s.registry) (hopen : ¬t.HasClosed e) : (id, e) ∈ t.registry := by
  obtain ⟨x, hx, -⟩ := he.live id e hmem
  have closed {es : List Place} (hspared : Spared s t es) (hin : e ∈ es) : False := by
    obtain ⟨y, hy, -, hclosed, -⟩ := hspared e x hx
    exact hopen ⟨y, hy, hclosed hin⟩
  cases step with
  | rest ht => exact ht ▸ hmem
  | create _ _ _ _ ht =>
    rw [ht]
    exact List.mem_append_left _ hmem
  | @«end» id' e' hreg ht hspared =>
    rw [ht]
    refine List.mem_filter.mpr ⟨hmem, decide_eq_true fun hid : id = id' => ?_⟩
    rw [← hid, (registered?_eq_some_iff he.nodup).mpr hmem, Option.some.injEq] at hreg
    exact closed hspared (List.mem_singleton.mpr hreg)
  | clear _ hspared => exact (closed hspared (mem_registeredPlaces hmem)).elim

namespace Chronicle

variable (hch : Chronicle h s) (hevent : τ.life? = event) (step : RegisterStep s t event)
include hch hevent step

theorem entered_step (hmem : (id, e) ∈ t.registry) : (id, e) ∈ creations (h ++ [τ]) := by
  rw [creations_snoc hevent]
  rcases step.mem_registry hmem with hold | ⟨rfl, -⟩
  · exact List.mem_append_left _ (hch.entered id e hold)
  · exact List.mem_append_right _ (List.mem_singleton_self _)

theorem created_step (he : s.Enrolled) (he' : t.Enrolled) (hmem : (id, e) ∈ creations (h ++ [τ])) :
    ∃ y : Session, t.sessions[e]? = some y ∧ y.id = id
      ∧ (y.closed = false → (id, e) ∈ t.registry) := by
  rw [creations_snoc hevent] at hmem
  rcases List.mem_append.mp hmem with hold | hnew
  · obtain ⟨x, hx, hid, hreg⟩ := hch.created id e hold
    obtain ⟨es, hspared, hes⟩ := step.spared he
    obtain ⟨y, hy, hid', hclosed, hkept⟩ := hspared e x hx
    refine ⟨y, hy, hid'.trans hid, ?_⟩
    intro hopen
    have hnot : e ∉ es := fun hin => Bool.false_ne_true (hopen.symm.trans (hclosed hin))
    refine step.mem_of_open he (hreg ((hkept hnot).1.symm.trans hopen)) ?_
    rintro ⟨y', hy', hclosed'⟩
    rw [hy, Option.some.injEq] at hy'
    subst hy'
    exact Bool.false_ne_true (hopen.symm.trans hclosed')
  · have hreg : (id, e) ∈ t.registry := by
      cases step with
      | create _ _ _ _ ht =>
        rw [ht]
        exact List.mem_append_right _ hnew
      | rest | «end» | clear => cases hnew
    obtain ⟨y, hy, hid, -⟩ := he'.live id e hreg
    exact ⟨y, hy, hid, fun _ => hreg⟩

theorem once_step (ho' : t.Opening) (move : MoveStep setup s m t)
    (hd : t.calls[i]? = some d) (hst : d.stage = .registering e) :
    e ∉ (creations (h ++ [τ])).map Prod.snd := by
  rw [creations_snoc hevent, List.map_append, List.mem_append]
  rintro (hold | hnew)
  · rcases move.registering_before hd hst with ⟨c, hc, hst'⟩ | ⟨hfresh, -⟩
    · exact hch.once i c e hc hst' hold
    · obtain ⟨⟨id, e'⟩, hmem, rfl⟩ := List.mem_map.mp hold
      obtain ⟨x, hx, -⟩ := hch.created id e' hmem
      exact Nat.lt_irrefl _ (hfresh ▸ (List.getElem?_eq_some_iff.mp hx).1)
  · cases step with
    | @create j c e' _ _ hnew' =>
      have heq : e = e' := List.mem_singleton.mp hnew
      subst heq
      exact ho'.stage?_ne_starting hd hst hnew'
    | rest | «end» | clear => cases hnew

theorem nodup_step : ((creations (h ++ [τ])).map Prod.snd).Nodup := by
  rw [creations_snoc hevent, List.map_append]
  cases step with
  | create hc hst =>
    refine List.nodup_append.mpr
      ⟨hch.nodup, List.pairwise_singleton _ _, ?_⟩
    intro a ha b hb hab
    rw [hab, List.mem_singleton.mp hb] at ha
    exact hch.once _ _ _ hc hst ha
  | rest | «end» | clear =>
    rw [show List.map Prod.snd (Option.toList _) = [] from rfl, List.append_nil]
    exact hch.nodup

/-- The lives under an id take turns. -/
theorem alternating_step (id : SessionId) :
    Alternating (lives id (h ++ [τ])) (t.registered? id) := by
  -- only a free id is registered, and only the session that is found under an id is ended
  have hold := hch.alternating id
  rw [lives_snoc, hevent]
  cases step with
  | rest ht =>
    rw [registered?_of_eq ht]
    simpa using hold
  | @create i c e _ _ _ hfree ht =>
    rw [registered?_of_append ht]
    by_cases hid : c.purpose.id = id
    · subst hid
      rw [hfree] at hold ⊢
      simpa [LifeEvent.lives] using Alternating.begins hold
    · simpa [LifeEvent.lives, hid] using hold
  | @«end» id' e hreg ht =>
    rw [registered?_of_filter ht]
    by_cases hid : id' = id
    · subst hid
      rw [hreg] at hold
      simpa [LifeEvent.lives] using Alternating.ends hold
    · simpa [LifeEvent.lives, hid] using hold
  | clear ht =>
    have hnone : t.registered? id = none := by rw [registered?, ht, List.lookup_nil]
    rw [hnone]
    cases hreg : s.registered? id with
    | none =>
      rw [hreg] at hold
      rw [registered?] at hreg
      simpa [LifeEvent.lives, hreg] using hold
    | some e =>
      rw [hreg] at hold
      rw [registered?] at hreg
      simpa [LifeEvent.lives, hreg] using Alternating.ends hold

/-- What is registered and not ended is there. -/
theorem balance_step (he : s.Enrolled) : (creations (h ++ [τ])).length
    = t.registry.length + (teardowns (h ++ [τ])).length + (clearances (h ++ [τ])).sum := by
  -- a life that begins adds an entry, and lives that end take as many entries out
  have hold := hch.balance
  rw [creations_snoc hevent, teardowns_snoc hevent, clearances_snoc hevent]
  cases step with
  | rest ht => simpa [ht] using hold
  | create _ _ _ _ ht =>
    simp only [Option.bind_some, LifeEvent.creation?, LifeEvent.teardown?, LifeEvent.clearance?,
      Option.toList, ht, List.length_append, List.length_singleton, List.append_nil]
    omega
  | «end» hreg ht =>
    have hlen := length_filter_of_mem he.nodup (mem_registry_of_registered? hreg)
    simp only [Option.bind_some, LifeEvent.creation?, LifeEvent.teardown?, LifeEvent.clearance?,
      Option.toList, ht, List.length_append, List.length_singleton, List.append_nil]
    omega
  | clear ht =>
    simp only [Option.bind_some, LifeEvent.creation?, LifeEvent.teardown?, LifeEvent.clearance?,
      Option.toList, ht, List.length_nil, List.sum_append, List.sum_singleton, List.append_nil]
    omega

end Chronicle

/-- In every orderly run the register is what its history makes it. -/
theorem chronicle_of_run (run : Run setup busCapacity h s) (horderly : Orderly h) :
    Chronicle h s := by
  induction run with
  | nil =>
    exact ⟨by simp [Relay.empty], by simp [creations, lifeEvents], by simp [Relay.empty],
      List.nodup_nil, fun _ => .nil, rfl⟩
  | snoc run hm ih =>
    obtain ⟨hbefore, hmove⟩ := orderly_snoc.mp horderly
    have he := enrolled_of_run run hbefore
    have move := run.moveStep hm
    have step := move.registerStep he hmove
    have hch := ih hbefore
    exact ⟨fun _ _ hmem => hch.entered_step rfl step hmem,
      fun _ _ hmem => hch.created_step rfl step he (enrolled_of_run (.snoc run hm) horderly) hmem,
      fun _ _ _ hd hst => hch.once_step rfl step (opening_of_run (.snoc run hm)) move hd hst,
      hch.nodup_step rfl step, hch.alternating_step rfl step, hch.balance_step rfl step he⟩

/-! ### What calls answer -/

/-- A step of a call that only ends sessions adds what it ends to what the call will answer. -/
theorem CallStep.tallied {n : Nat} {new : Stage} (hc : s.calls[i]? = some c)
    (step : CallStep setup s i c t) (hn : c.stage.Tallied n) (hnew : t.stage? i = some new) :
    new.Tallied
      (n + ((Transition.life? ⟨s, .act (.call i), t⟩).map LifeEvent.ends).getD 0) := by
  rw [life?_call hc hnew]
  have moved {stage : Stage} (ht : t.calls = (s.setStage i stage).calls) : new = stage :=
    stage_eq_of_calls_eq (stage?_eq_of_getElem? hc) hnew ht
  -- all other steps are steps of calls with another purpose, which no tally fits
  cases step with
  | remove hst =>
    rw [hst] at hn ⊢
    obtain ⟨rfl, rfl, -⟩ := hn
    rw [moved rfl]
    exact ⟨rfl, rfl⟩
  | pass hst =>
    rw [hst] at hn ⊢
    obtain ⟨rfl, -, rfl⟩ := hn
    rw [moved rfl]
    rfl
  | clear hst =>
    rw [hst] at hn ⊢
    obtain rfl : n = 0 := hn
    rw [moved (calls_clear _ _)]
    exact ⟨rfl, by simp [Stage.life?, LifeEvent.ends]⟩
  | close hst =>
    rw [hst] at hn ⊢
    rw [moved rfl]
    exact hn
  | @leave o final hst =>
    rw [hst] at hn ⊢
    obtain ⟨rfl, rfl⟩ := hn
    rw [moved rfl]
    rfl
  | refuse hst | dial hst | reject hst | register hst | attach hst | start hst | find hst
  | miss hst | encode hst | unencodable hst | queue hst | turn hst | bounce hst | cut hst
  | accept hst | finish hst | snap hst | push hst | complete hst | condemn hst | late hst
  | join hst | refrain hst | post hst =>
    rw [hst] at hn
    exact hn.elim

/-- In every run, a call that only ends sessions answers with how many it has ended. -/
theorem tallied_of_run (run : Run setup busCapacity h s) (i : CallId) :
    (s.calls[i]? = none → endedBy (.call i) h = 0)
      ∧ ∀ c, s.calls[i]? = some c → c.purpose.tearsDown = true →
        c.stage.Tallied (endedBy (.call i) h) := by
  induction run with
  | nil => exact ⟨fun _ => rfl, fun c hc => by simp [Relay.empty] at hc⟩
  | @snoc h s t m run hm ih =>
    have move := run.moveStep hm
    cases hc : s.calls[i]? with
    | none =>
      have hne : m ≠ .act (.call i) := by
        rintro rfl
        cases move with
        | call hc' => simp [hc] at hc'
      rw [endedBy_snoc_of_ne hne, ih.1 hc]
      refine ⟨fun _ => rfl, ?_⟩
      intro d hd hp
      obtain ⟨hstage, -⟩ := move.call_new hc hd
      rw [hstage]
      cases hpurpose : d.purpose with
      | teardown => exact ⟨rfl, rfl, rfl⟩
      | teardownAll => rfl
      | _ => simp [hpurpose, Purpose.tearsDown] at hp
    | some c =>
      obtain ⟨d, hd, hpurpose, -⟩ := move.call_after hc
      refine ⟨fun hnone => by simp [hd] at hnone, fun d' hd' hp => ?_⟩
      rw [hd, Option.some.injEq] at hd'
      subst hd'
      have hn := ih.2 c hc (hpurpose ▸ hp)
      by_cases hm' : m = .act (.call i)
      · subst hm'
        rw [endedBy_snoc (by simp [Transition.isOf])]
        cases move with
        | call hc' step =>
          obtain rfl := Option.some.inj (hc'.symm.trans hc)
          exact step.tallied hc hn (stage?_eq_of_getElem? hd)
      · rw [endedBy_snoc_of_ne hm']
        rcases move.stage_of_ne hm' hc hd with heq | ⟨hdialing, -⟩
        · exact heq ▸ hn
        · rw [hdialing] at hn
          exact hn.elim

/-! ### The life cycle -/

/-- What holds of the lives of sessions after a history that leads to a state. -/
structure LifeCycle (h : History) (s : Relay) : Prop where
  /-- A session that was registered is open exactly as long as it is in the register, and it is
  there under no id but the one for which it was opened. -/
  open_iff : ∀ (id : SessionId) (e : Place), (id, e) ∈ creations h →
    ∃ x : Session, s.sessions[e]? = some x ∧ x.id = id
      ∧ (x.closed = false ↔ (id, e) ∈ s.registry)
      ∧ ∀ id', (id', e) ∈ s.registry → id' = id
  /-- If its reader has finished, it is neither open nor in the register. -/
  finished : ∀ (id : SessionId) (e : Place) (x : Session), (id, e) ∈ creations h →
    s.sessions[e]? = some x → x.reader = .finished →
    x.closed = true ∧ e ∉ s.registeredPlaces
  /-- No session is registered twice. -/
  once : ((creations h).map Prod.snd).Nodup
  /-- No two sessions have the same number. -/
  numbered : s.Numbered
  /-- No id and no session is in the register twice. -/
  nodup : s.ids.Nodup ∧ s.registeredPlaces.Nodup
  /-- What is found by id was registered under it and is open. -/
  found : ∀ (id : SessionId) (e : Place), s.registered? id = some e →
    (id, e) ∈ creations h ∧ ∃ x : Session, s.sessions[e]? = some x ∧ x.closed = false
  /-- The lives under an id begin and end by turns. -/
  alternating : ∀ id, Alternating (lives id h) (s.registered? id)
  /-- Every session that was registered is in the register or was ended, alone or with all
  others. -/
  balance : (creations h).length
    = s.registry.length + (teardowns h).length + (clearances h).sum
  /-- The calls to end sessions answer with how many they have ended. -/
  answered : ∀ (i : CallId) (c : Call) (o : Outcome), s.calls[i]? = some c →
    c.purpose.tearsDown = true → c.stage = .done o → o = .ended (endedBy (.call i) h)

/-- No session is in the register twice. -/
theorem Enrolled.nodup_registeredPlaces (he : s.Enrolled) : s.registeredPlaces.Nodup := by
  have hids : s.registry.Pairwise fun p q => p.1 ≠ q.1 := List.pairwise_map.mp he.nodup
  refine List.pairwise_map.mpr (hids.imp_of_mem fun {p q} hp hq hne heq => hne ?_)
  obtain ⟨x, hx, hid, -⟩ := he.live p.1 p.2 hp
  rw [heq] at hx
  exact hid.symm.trans (he.of_mem hx hq).1

/-- Sessions are registered and ended in an orderly way, however the steps of calls and readers are
interleaved with each other and with what the world outside does. -/
theorem life_cycle (run : Run setup busCapacity h s) (horderly : Orderly h) : LifeCycle h s := by
  have he := enrolled_of_run run horderly
  have hch := chronicle_of_run run horderly
  constructor
  case open_iff =>
    intro id e hmem
    obtain ⟨x, hx, hid, hreg⟩ := hch.created id e hmem
    refine ⟨x, hx, hid, ⟨hreg, ?_⟩, ?_⟩
    · intro hp
      exact (he.of_mem hx hp).2.1
    · intro id' hp
      exact (he.of_mem hx hp).1.symm.trans hid
  case finished =>
    intro id e x hmem hx hr
    have hout : e ∉ s.registeredPlaces := by
      intro hin
      obtain ⟨⟨id', e'⟩, hp, rfl⟩ := List.mem_map.mp hin
      have hover := (he.of_mem hx hp).2.2
      simp [hr, Reader.leaves] at hover
    refine ⟨?_, hout⟩
    obtain ⟨x', hx', -, hreg⟩ := hch.created id e hmem
    rw [hx, Option.some.injEq] at hx'
    subst hx'
    cases hclosed : x.closed with
    | true => rfl
    | false => exact absurd (mem_registeredPlaces (hreg hclosed)) hout
  case once => exact hch.nodup
  case numbered => exact numbered_of_run run
  case nodup => exact ⟨he.nodup, he.nodup_registeredPlaces⟩
  case found =>
    intro id e hreg
    have hp := mem_registry_of_registered? hreg
    obtain ⟨x, hx, -, hopen, -⟩ := he.live id e hp
    exact ⟨hch.entered id e hp, x, hx, hopen⟩
  case alternating => exact hch.alternating
  case balance => exact hch.balance
  case answered =>
    intro i c o hc hp hst
    have hn := (tallied_of_run run i).2 c hc hp
    rw [hst] at hn
    exact hn

/-- An id is used twice: its first session is ended alone, its second one with all others. -/
def idReused : List Move :=
  [.attach "a" 64 true false, .act (.call 0), .act (.call 0), .start (.teardown "a" none),
    .act (.call 1), .act (.call 1), .act (.call 1), .act (.reader 0), .act (.reader 0),
    .attach "a" 64 true false, .act (.call 2), .act (.call 2), .start .teardownAll,
    .act (.call 3), .act (.call 3), .act (.call 3)]

/-- Both lives have ended, and both calls have answered that they ended one. -/
theorem life_cycle_of_id_reused :
    ∃ h s, Run ⟨.standard, 8, "broker"⟩ 4 h s ∧ Orderly h ∧ LifeCycle h s
      ∧ lives "a" h = [.begins 0, .ends 0, .begins 1, .ends 1]
      ∧ s.outcome? 1 = some (.ended 1) ∧ s.outcome? 3 = some (.ended 1) := by
  obtain ⟨h, s, run, horderly, hlives, hone, hall⟩ :
      ∃ h s, Run ⟨.standard, 8, "broker"⟩ 4 h s ∧ Orderly h
        ∧ lives "a" h = [.begins 0, .ends 0, .begins 1, .ends 1]
        ∧ s.outcome? 1 = some (.ended 1) ∧ s.outcome? 3 = some (.ended 1) :=
    ⟨_, _, path_of_trace? idReused rfl, rfl, rfl, rfl, rfl⟩
  exact ⟨h, s, run, horderly, life_cycle run horderly, hlives, hone, hall⟩

end Relay

end StompRelay
