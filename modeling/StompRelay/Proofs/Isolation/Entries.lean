import StompRelay.Proofs.Life.Enrolment
/-!
# The entries of the register in all runs

Whatever the world outside does, with entries removed and sessions closed by hand: the register
holds each id and each session once, every session under the id it was opened for, and a session
that has left it never comes back.

## Main definitions

* `Relay.departures` — the sessions that have left the register
* `Relay.Census` — the register holds each session once, and none that has left it

## Main results

* `Relay.MoveStep.registry` — entries stay or go, and one is added at most
* `Relay.census_of_run` — in every run the register is like this
-/

namespace StompRelay.Relay

variable {setup : Setup} {busCapacity : Nat} {s t : Relay} {h : History} {m : Move} {e : Place}
  {i : CallId} {c d : Call} {x : Session} {id : SessionId}

/-! ### What a step does to the entries -/

/-- A step of a reader adds no entry. -/
theorem ReaderStep.registry (step : ReaderStep setup s e x t) :
    t.registry.Sublist s.registry := by
  cases step with
  | unregister => exact List.filter_sublist
  | _ => exact List.Sublist.refl _

/-- A step of a call adds the entry of the session that the call registers, or none. -/
theorem CallStep.registry (hc : s.calls[i]? = some c) (step : CallStep setup s i c t) :
    t.registry.Sublist s.registry
      ∨ ∃ e, c.stage = .registering e ∧ t.stage? i = some (.starting e)
        ∧ s.registered? c.purpose.id = none ∧ t.sessions = s.sessions
        ∧ t.registry = s.registry ++ [(c.purpose.id, e)] := by
  cases step with
  | register hst hr =>
    exact .inr ⟨_, hst, stage?_of_calls_eq (stage?_eq_of_getElem? hc) rfl, hr, rfl, rfl⟩
  | condemn | remove => exact .inl List.filter_sublist
  | clear => exact .inl (List.nil_sublist _)
  | _ => exact .inl (List.Sublist.refl _)

/-- Entries stay or go, and the entry of a session that a call registers may be added. -/
theorem MoveStep.registry (step : MoveStep setup s m t) :
    t.registry.Sublist s.registry
      ∨ ∃ i c e, m = .act (.call i) ∧ s.calls[i]? = some c ∧ c.stage = .registering e
        ∧ t.stage? i = some (.starting e) ∧ s.registered? c.purpose.id = none
        ∧ t.sessions = s.sessions ∧ t.registry = s.registry ++ [(c.purpose.id, e)] := by
  cases step with
  | reader _ step => exact .inl step.registry
  | @call i c _ hc step =>
    exact (step.registry hc).imp_right fun ⟨e, hst, hrest⟩ => ⟨i, c, e, rfl, hc, hst, hrest⟩
  | forget => exact .inl List.filter_sublist
  | _ => exact .inl (List.Sublist.refl _)

/-- A session keeps the id it was opened for. -/
theorem MoveStep.session_id (step : MoveStep setup s m t) (hx : s.sessions[e]? = some x) :
    ∃ y, t.sessions[e]? = some y ∧ y.id = x.id := by
  obtain ⟨y, hy, input⟩ := step.inputStep hx
  refine ⟨y, hy, ?_⟩
  cases input with
  | rest _ same => exact same.id
  | drop _ _ _ hy' | start _ _ _ _ hy' => rw [hy']
  | own own =>
    cases own with
    | unregister =>
      obtain rfl := eq_of_unregister hx hy
      rfl
    | shut =>
      obtain rfl := eq_of_modifySession hx hy
      exact (Session.SameInput.close x).id
    | _ =>
      obtain rfl := eq_of_modifySession hx hy
      rfl

/-! ### Each session once -/

/-- The sessions that leave the register in a step. -/
def Transition.departures (τ : Transition) : List Place :=
  τ.before.registeredPlaces.filter fun e => e ∉ τ.after.registeredPlaces

/-- The sessions that have left the register, in order, and with which moves. -/
def departures (h : History) : List (Move × Place) :=
  h.flatMap fun τ => τ.departures.map fun e => (τ.move, e)

theorem departures_snoc (h : History) (τ : Transition) :
    departures (h ++ [τ]) = departures h ++ τ.departures.map fun e => (τ.move, e) := by
  simp [departures]

theorem map_departures_snoc (h : History) (τ : Transition) :
    (departures (h ++ [τ])).map Prod.snd = (departures h).map Prod.snd ++ τ.departures := by
  simp [departures_snoc, Function.comp_def]

/-- The register holds each id and each session once, every session under the id it was opened for,
and no session that has left it. -/
structure Census (h : History) (s : Relay) : Prop where
  ids : s.ids.Nodup
  places : s.registeredPlaces.Nodup
  owned : ∀ (id : SessionId) (e : Place), (id, e) ∈ s.registry →
    ∃ x : Session, s.sessions[e]? = some x ∧ x.id = id
  left : ∀ e ∈ (departures h).map Prod.snd, e < s.sessions.length ∧ e ∉ s.registeredPlaces
  once : ((departures h).map Prod.snd).Nodup
  entering : ∀ (i : CallId) (c : Call) (e : Place), s.calls[i]? = some c →
    c.stage = .registering e → e ∉ s.registeredPlaces ∧ e ∉ (departures h).map Prod.snd

namespace Census

theorem empty : Census [] (.empty busCapacity) where
  ids := List.nodup_nil
  places := List.nodup_nil
  owned id e hmem := by cases hmem
  left e he := by cases he
  once := List.nodup_nil
  entering i c e hc := by simp [Relay.empty] at hc

/-- The session of an entry has the id of the entry. -/
theorem id_eq (hcen : Census h s) (hx : s.sessions[e]? = some x)
    (hmem : (id, e) ∈ s.registry) : x.id = id := by
  obtain ⟨x', hx', hid⟩ := hcen.owned id e hmem
  rw [hx, Option.some.injEq] at hx'
  exact hx' ▸ hid

/-- The session that is found under an id has that id. -/
theorem id_eq_of_registered? (hcen : Census h s) (hx : s.sessions[e]? = some x)
    (hr : s.registered? id = some e) : x.id = id :=
  hcen.id_eq hx (mem_registry_of_registered? hr)

/-- A session is found under its own id exactly if it is in the register. -/
theorem registered?_iff (hcen : Census h s) (hx : s.sessions[e]? = some x) :
    s.registered? x.id = some e ↔ e ∈ s.registeredPlaces := by
  rw [registered?_eq_some_iff hcen.ids]
  constructor
  · exact mem_registeredPlaces
  · intro hmem
    obtain ⟨⟨id, e'⟩, hp, rfl⟩ := List.mem_map.mp hmem
    rwa [hcen.id_eq hx hp]

section Step

variable (hcen : Census h s) (hs : s.Sound) (ho : s.Opening) (ho' : t.Opening)
  (step : MoveStep setup s m t)
include hcen

include step in
theorem ids_step : t.ids.Nodup := by
  rcases step.registry with hsub | ⟨i, c, e, -, -, -, -, hfree, -, heq⟩
  · exact hcen.ids.sublist (hsub.map _)
  · rw [Relay.ids, heq, List.map_append, List.nodup_append]
    refine ⟨hcen.ids, List.pairwise_singleton _ _, ?_⟩
    rintro id hid id' hid' rfl
    obtain rfl : id = c.purpose.id := by simpa using hid'
    exact registered?_eq_none_iff.mp hfree hid

include step in
theorem places_step : t.registeredPlaces.Nodup := by
  rcases step.registry with hsub | ⟨i, c, e, -, hc, hst, -, -, -, heq⟩
  · exact hcen.places.sublist (hsub.map _)
  · rw [registeredPlaces, heq, List.map_append, List.nodup_append]
    refine ⟨hcen.places, List.pairwise_singleton _ _, ?_⟩
    rintro e' he' e'' he'' rfl
    obtain rfl : e' = e := by simpa using he''
    exact (hcen.entering i c e' hc hst).1 he'

include ho step in
theorem owned_step (hmem : (id, e) ∈ t.registry) :
    ∃ y : Session, t.sessions[e]? = some y ∧ y.id = id := by
  have kept (hold : (id, e) ∈ s.registry) : ∃ y : Session, t.sessions[e]? = some y ∧ y.id = id := by
    obtain ⟨x, hx, hid⟩ := hcen.owned id e hold
    obtain ⟨y, hy, hid'⟩ := step.session_id hx
    exact ⟨y, hy, hid'.trans hid⟩
  rcases step.registry with hsub | ⟨i, c, e', -, hc, hst, -, -, hsessions, heq⟩
  · exact kept (hsub.subset hmem)
  · rw [heq] at hmem
    rcases List.mem_append.mp hmem with hmem | hmem
    · exact kept hmem
    · cases List.mem_singleton.mp hmem
      obtain ⟨x, hx, -, hid⟩ := ho.unstarted i c e hc (by simp [hst, Stage.opens])
      exact ⟨x, hsessions ▸ hx, hid⟩

include hs step in
theorem left_step (he : e ∈ (departures (h ++ [⟨s, m, t⟩])).map Prod.snd) :
    e < t.sessions.length ∧ e ∉ t.registeredPlaces := by
  have hlen : s.sessions.length ≤ t.sessions.length := by
    rcases step.sessions_grow with heq | ⟨id, capacity, heq⟩
    · exact Nat.le_of_eq heq.symm
    · simp [heq]
  rw [map_departures_snoc] at he
  rcases List.mem_append.mp he with he | he
  · obtain ⟨hlt, hout⟩ := hcen.left e he
    refine ⟨Nat.lt_of_lt_of_le hlt hlen, ?_⟩
    intro hin
    rcases step.registry with hsub | ⟨i, c, e', -, hc, hst, -, -, -, heq⟩
    · exact hout ((hsub.map _).subset hin)
    · rw [registeredPlaces, heq, List.map_append] at hin
      rcases List.mem_append.mp hin with hin | hin
      · exact hout hin
      · obtain rfl : e = e' := by simpa using hin
        exact (hcen.entering i c e hc hst).2 he
  · obtain ⟨hin, hout⟩ := List.mem_filter.mp he
    obtain ⟨p, hp, rfl⟩ := List.mem_map.mp hin
    exact ⟨Nat.lt_of_lt_of_le (hs.registered p hp) hlen, of_decide_eq_true hout⟩

theorem once_step : ((departures (h ++ [⟨s, m, t⟩])).map Prod.snd).Nodup := by
  rw [map_departures_snoc, List.nodup_append]
  refine ⟨hcen.once, hcen.places.filter _, ?_⟩
  rintro e he e' he' rfl
  exact (hcen.left e he).2 (List.mem_filter.mp he').1

include hs ho' step in
theorem entering_step (hd : t.calls[i]? = some d) (hst : d.stage = .registering e) :
    e ∉ t.registeredPlaces ∧ e ∉ (departures (h ++ [⟨s, m, t⟩])).map Prod.snd := by
  -- the session was on its way in before, or is new
  have before : e ∉ s.registeredPlaces ∧ e ∉ (departures h).map Prod.snd := by
    rcases step.registering_before hd hst with ⟨c, hc, hst'⟩ | ⟨hfresh, -⟩
    · exact hcen.entering i c e hc hst'
    · refine ⟨?_, fun he => Nat.lt_irrefl _ (hfresh ▸ (hcen.left e he).1)⟩
      intro hin
      obtain ⟨p, hp, rfl⟩ := List.mem_map.mp hin
      exact Nat.lt_irrefl _ (hfresh ▸ hs.registered p hp)
  refine ⟨?_, ?_⟩
  · intro hin
    rcases step.registry with hsub | ⟨j, c, e', -, -, -, hnew, -, -, heq⟩
    · exact before.1 ((hsub.map _).subset hin)
    · rw [registeredPlaces, heq, List.map_append] at hin
      rcases List.mem_append.mp hin with hin | hin
      · exact before.1 hin
      · obtain rfl : e = e' := by simpa using hin
        exact ho'.stage?_ne_starting hd hst hnew
  · rw [map_departures_snoc]
    intro he
    rcases List.mem_append.mp he with he | he
    · exact before.2 he
    · exact before.1 (List.mem_filter.mp he).1

end Step

end Census

/-- In every run, the register holds each id and each session once, every session under the id it
was opened for, and no session that has left it. -/
theorem census_of_run (run : Run setup busCapacity h s) : Census h s := by
  induction run with
  | nil => exact .empty
  | snoc run hm ih =>
    have step := run.moveStep hm
    have hs := sound_of_run run
    exact ⟨ih.ids_step step, ih.places_step step,
      fun _ _ hmem => ih.owned_step (opening_of_run run) step hmem,
      fun _ he => ih.left_step hs step he, ih.once_step,
      fun _ _ _ hd hst => ih.entering_step hs (opening_of_run (.snoc run hm)) step hd hst⟩

end StompRelay.Relay
