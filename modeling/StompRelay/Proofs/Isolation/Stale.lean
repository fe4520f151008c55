import StompRelay.Proofs.Calls.Errand
import StompRelay.Proofs.Calls.Trail
import StompRelay.Proofs.Isolation.Entries
/-!
# Stale parties

A reader that ends, and a call whose write failed, end a session that may have been ended long ago,
while its id belongs to a newer one. They ask for it by its number, which no other session has, so
they never touch the newer one.

## Main definitions

* `Relay.Confined` — a step changes one session and its entry at most
* `Stage.cleansUp` — a call ends the session to which its write failed
* `Relay.Told` — what a call to end the session with a given number answers

## Main results

* `Relay.ReaderStep.confined`, `Relay.CallStep.confined` — a reader, and a call that cleans up,
  change their own session only
* `Relay.stale_parties_spare_newer` — neither ends a newer session, and no session is ended twice
-/

namespace StompRelay

/-- Whether a call ends the session to which its write failed, or closes it then. -/
def Stage.cleansUp : Stage → Bool
  | failing _ _ => true
  | closing _ _ final => !final
  | _ => false

namespace Relay

variable {setup : Setup} {busCapacity : Nat} {s t : Relay} {h : History} {e e' : Place} {i : CallId}
  {c : Call} {p : Purpose} {x : Session} {id : SessionId} {o : Outcome} {n : Epoch}
  {stage new : Stage}

/-- A step changes no session but `e`, and no entry of the register but that of `e`. -/
structure Confined (s t : Relay) (e : Place) : Prop where
  sessions : ∀ e', e' ≠ e → t.sessions[e']? = s.sessions[e']?
  registry : t.registry.filter (·.2 ≠ e) = s.registry.filter (·.2 ≠ e)

/-- A step that changes one session and no entry. -/
theorem Confined.modifySession {f : Session → Session}
    (ht : t.sessions = (s.modifySession e f).sessions) (hr : t.registry = s.registry) :
    Confined s t e where
  sessions e' he := by
    rw [ht]
    exact getElem?_modifySession_of_ne (Ne.symm he)
  registry := by rw [hr]

/-- The entry of the session that is found under an id is the only one with that id. -/
theorem Census.filter_filter (hcen : Census h s) (hr : s.registered? id = some e) :
    (s.registry.filter (·.1 ≠ id)).filter (·.2 ≠ e) = s.registry.filter (·.2 ≠ e) := by
  rw [List.filter_filter]
  apply List.filter_congr
  rintro ⟨id', e'⟩ hp
  by_cases hid : id' = id
  · subst hid
    have he : e' = e :=
      Option.some.inj (((registered?_eq_some_iff hcen.ids).mpr hp).symm.trans hr)
    simp [he]
  · simp [hid]

/-- A session that is ended is in the register no more. -/
theorem Census.notMem_of_filter (hcen : Census h s) (hr : s.registered? id = some e) :
    e ∉ (s.registry.filter (·.1 ≠ id)).map Prod.snd := by
  intro hin
  obtain ⟨⟨id', e'⟩, hp, rfl⟩ := List.mem_map.mp hin
  obtain ⟨hp, hne⟩ := List.mem_filter.mp hp
  obtain ⟨x, hx, hid⟩ := hcen.owned id' e' hp
  have hid' : x.id = id := hcen.id_eq_of_registered? hx hr
  exact of_decide_eq_true hne (hid.symm.trans hid')

/-- A step that ends the session that is found under an id. -/
theorem Confined.unregister (hcen : Census h s) (hr : s.registered? id = some e)
    {f : Session → Session} (ht : t.sessions = (s.modifySession e f).sessions)
    (hreg : t.registry = s.registry.filter (·.1 ≠ id)) : Confined s t e where
  sessions e' he := by
    rw [ht]
    exact getElem?_modifySession_of_ne (Ne.symm he)
  registry := by rw [hreg, hcen.filter_filter hr]

/-- A reader changes its own session only. -/
theorem ReaderStep.confined (hcen : Census h s) (step : ReaderStep setup s e x t) :
    Confined s t e where
  sessions e' he := step.getElem?_of_ne (Ne.symm he)
  registry := by
    cases step with
    | unregister _ hr => exact hcen.filter_filter hr
    | _ => rfl

/-- A call that cleans up changes only the session that it found and could not write to. -/
theorem CallStep.confined (hcen : Census h s) (hclean : c.stage.cleansUp = true)
    (ht : Trail setup.codec h i c.purpose c.stage) (step : CallStep setup s i c t) :
    ∃ e f, Broke h i e f ∧ Confined s t e := by
  cases step with
  | @condemn e f hst hr =>
    rw [hst] at ht
    exact ⟨e, f, ht, .unregister hcen hr rfl rfl⟩
  | @late e f hst =>
    rw [hst] at ht
    exact ⟨e, f, ht, fun _ _ => rfl, rfl⟩
  | @close e es o final hst =>
    rw [hst] at ht hclean
    obtain rfl : final = false := by simpa [Stage.cleansUp] using hclean
    obtain ⟨e', f, hb, -, hes⟩ := ht
    obtain rfl := hes e List.mem_cons_self
    exact ⟨e, f, hb, .modifySession rfl rfl⟩
  | @leave o final hst =>
    rw [hst] at ht hclean
    obtain rfl : final = false := by simpa [Stage.cleansUp] using hclean
    obtain ⟨e', f, hb, -, -⟩ := ht
    exact ⟨e', f, hb, fun _ _ => rfl, rfl⟩
  | refuse hst | dial hst | reject hst | register hst | attach hst | start hst | find hst
  | miss hst | encode hst | unencodable hst | queue hst | turn hst | bounce hst | cut hst
  | accept hst | finish hst | snap hst | push hst | complete hst | remove hst | pass hst
  | clear hst | join hst | refrain hst | post hst =>
    rw [hst] at hclean
    cases hclean

/-! ### Calls to end one session -/

/-- What a call to end the session with number `n` answers, and why. -/
inductive Told (h : History) (i : CallId) (n : Epoch) : Outcome → Prop where
  /-- The session with this number was registered under the id, and left the register with the
  answer. -/
  | found {e : Place} : (i, some e) ∈ removals h → HadNumber h e n →
    (.act (.call i), e) ∈ departures h → Told h i n (.ended 1)
  /-- No session, or one with another number, was registered under the id. -/
  | missed {r : Option Place} : (i, r) ∈ removals h →
    (∀ e, r = some e → ∃ n', HadNumber h e n' ∧ n' ≠ n) → Told h i n (.ended 0)

/-- What is known from its stage of a call to end the session with number `n`. -/
def Stage.Tells (h : History) (i : CallId) (n : Epoch) : Stage → Prop
  | .removing only found missed => only = some n ∧ found = .ended 1 ∧ missed = .ended 0
  | .closing _ o final => final = true ∧ Told h i n o
  | .done o => Told h i n o
  | _ => False

theorem Told.snoc {τ : Transition} (ht : Told h i n o) : Told (h ++ [τ]) i n o := by
  cases ht with
  | found hq hn hd =>
    refine .found (mem_inquiries_snoc hq) hn.snoc ?_
    rw [departures_snoc]
    exact List.mem_append_left _ hd
  | missed hq hne =>
    refine .missed (mem_inquiries_snoc hq) fun e he => ?_
    obtain ⟨n', hn', hne'⟩ := hne e he
    exact ⟨n', hn'.snoc, hne'⟩

theorem CallStep.tells (hcen : Census h s) (hc : s.calls[i]? = some c)
    (step : CallStep setup s i c t) (hnew : t.stage? i = some new)
    (ht : Stage.Tells h i n c.stage) :
    Stage.Tells (h ++ [⟨s, .act (.call i), t⟩]) i n new := by
  have moved {stage : Stage} (hcalls : t.calls = (s.setStage i stage).calls) : new = stage :=
    stage_eq_of_calls_eq (stage?_eq_of_getElem? hc) hnew hcalls
  have asked {r : Option Place} (ha : c.stage.removes = true)
      (hr : s.registered? c.purpose.id = r) : (i, r) ∈ removals (h ++ [⟨s, .act (.call i), t⟩]) :=
    hr ▸ mem_inquiries_call hc ha
  -- a session has at the moment of the step the number that is looked at
  have number {e : Place} {n' : Epoch} (he : s.epoch? e = some n') :
      HadNumber (h ++ [⟨s, .act (.call i), t⟩]) e n' :=
    ⟨_, List.mem_append_right _ (List.mem_singleton_self _), he⟩
  cases step with
  | @remove e only found missed hst hr honly =>
    rw [hst] at ht
    obtain ⟨rfl, rfl, -⟩ := ht
    rw [moved rfl]
    refine ⟨rfl, .found (asked (by rw [hst]; rfl) hr) (number (by simpa using honly)) ?_⟩
    rw [departures_snoc]
    refine List.mem_append_right _ (List.mem_map.mpr ⟨e, List.mem_filter.mpr ⟨?_, ?_⟩, rfl⟩)
    · exact mem_registeredPlaces (mem_registry_of_registered? hr)
    · exact decide_eq_true (hcen.notMem_of_filter hr)
  | pass hst hnone =>
    rw [hst] at ht
    obtain ⟨rfl, -, rfl⟩ := ht
    rw [moved rfl]
    refine Told.missed (asked (by rw [hst]; rfl) rfl) fun e hr => ?_
    obtain ⟨x, hx, -⟩ := hcen.owned _ e (mem_registry_of_registered? hr)
    refine ⟨x.epoch, number (epoch?_eq_some_iff.mpr ⟨x, hx, rfl⟩), fun heq => ?_⟩
    have hother : s.epoch? e ≠ some n := by simpa using hnone e hr
    exact hother (epoch?_eq_some_iff.mpr ⟨x, hx, heq⟩)
  | close hst =>
    rw [hst] at ht
    rw [moved rfl]
    exact ⟨ht.1, ht.2.snoc⟩
  | leave hst =>
    rw [hst] at ht
    obtain ⟨rfl, ht⟩ := ht
    rw [moved rfl]
    exact Told.snoc ht
  | refuse hst | dial hst | reject hst | register hst | attach hst | start hst | find hst
  | miss hst | encode hst | unencodable hst | queue hst | turn hst | bounce hst | cut hst
  | accept hst | finish hst | snap hst | push hst | complete hst | condemn hst | late hst
  | clear hst | join hst | refrain hst | post hst =>
    rw [hst] at ht
    exact ht.elim

/-- In every run, what a call to end one session answers is known from its stage. -/
theorem tells_of_run (run : Run setup busCapacity h s) (hc : s.calls[i]? = some c)
    (hp : c.purpose = .teardown id (some n)) : Stage.Tells h i n c.stage := by
  refine known_of_run (P := fun p => p = .teardown id (some n))
    (K := fun h _ stage => Stage.Tells h i n stage) ?_ ?_ ?_ ?_ run hc hp
  · rintro h p l rfl -
    exact ⟨rfl, rfl, rfl⟩
  · intro h τ p stage _ ht
    cases stage with
    | removing => exact ht
    | closing => exact ⟨ht.1, ht.2.snoc⟩
    | done => exact Told.snoc ht
    | _ => exact ht.elim
  · intro h p new _ ht
    exact ht.elim
  · intro h s t c new run _ hc step hnew ht
    exact step.tells (census_of_run run) hc hnew ht

/-- When nobody can move, every call to end one session has answered. -/
theorem Quiet.exists_told (quiet : s.Quiet setup) (run : Run setup busCapacity h s)
    (hc : s.calls[i]? = some c) (hp : c.purpose = .teardown id (some n)) :
    ∃ o, s.outcome? i = some o := by
  have ht := tells_of_run run hc hp
  have hrests := quiet.rests run hc
  cases hst : c.stage with
  | removing | closing =>
    rw [hst] at hrests
    cases hrests
  | done o => exact ⟨o, (outcome?_eq_some_iff hc).mpr hst⟩
  | _ =>
    rw [hst] at ht
    exact ht.elim

/-! ### The whole -/

/-- Whatever has become of its id meanwhile, a reader that ends its session, and a call that ends
the session that it found and could not write to, change no other session and no entry of another
one. A call to end the session with a given number under an id looks that id up once, and answers
with one exactly if that session is registered there at that moment; it answers whenever the relay
comes to rest. No two sessions of a run have one number, none ever changes its number, and no
session leaves the register twice. -/
theorem stale_parties_spare_newer (run : Run setup busCapacity h s) :
    (∀ e t, s.move? setup (.act (.reader e)) = some t → Confined s t e)
      ∧ (∀ i c t, s.calls[i]? = some c → s.move? setup (.act (.call i)) = some t →
        c.stage.cleansUp = true → ∃ e f, Broke h i e f ∧ Confined s t e)
      ∧ (∀ i c id n, s.calls[i]? = some c → c.purpose = .teardown id (some n) →
        (∀ o, s.outcome? i = some o → Told h i n o)
          ∧ (s.Quiet setup → ∃ o, s.outcome? i = some o))
      ∧ ((removals h).map Prod.fst).Nodup
      ∧ s.Numbered
      ∧ (∀ e n, HadNumber h e n → s.epoch? e = some n)
      ∧ ((departures h).map Prod.snd).Nodup := by
  have hcen := census_of_run run
  refine ⟨?_, ?_, ?_, (removed_of_run run).1, numbered_of_run run,
    fun e n hn => hn.epoch?_eq run, hcen.once⟩
  · intro e t hm
    cases run.moveStep hm with
    | reader _ step => exact step.confined hcen
  · intro i c t hc hm hclean
    have hvisits := visits_of_run run hc
    -- only a call that sends a message cleans up
    have hsends : c.purpose.sends?.isSome = true := by
      cases hst : c.stage <;> simp_all [Stage.cleansUp, Purpose.visits]
    obtain ⟨⟨m, command⟩, hp⟩ := Option.isSome_iff_exists.mp hsends
    cases run.moveStep hm with
    | call hc' step =>
      obtain rfl := Option.some.inj (hc'.symm.trans hc)
      exact step.confined hcen hclean (trail_of_run run hc hp)
  · intro i c id n hc hp
    refine ⟨?_, fun quiet => quiet.exists_told run hc hp⟩
    intro o ho
    have ht := tells_of_run run hc hp
    rw [(outcome?_eq_some_iff hc).mp ho] at ht
    exact ht

/-- A message of client `a` without headers and without a body. -/
def shortMessage : Message := ⟨"a", none, [], .bytes []⟩

/-- A session over a connection that takes nothing is ended while a message is written to it, and
its id is used again before its reader and the call that writes have noticed. Then somebody asks to
end the session that is gone. -/
def lateNotice : List Move :=
  [.attach "a" 0 true false, .act (.call 0), .act (.call 0),
    .start (.forward shortMessage .send), .act (.call 1), .act (.call 1), .act (.call 1),
    .act (.call 1), .act (.call 1),
    .start (.teardown "a" none), .act (.call 2), .act (.call 2), .act (.call 2),
    .attach "a" 64 true false, .act (.call 3), .act (.call 3),
    .act (.call 1), .act (.reader 0), .start (.teardown "a" (some 0)), .act (.call 4)]

/-- The reader and the call are about to end session 0, and leave session 1 as it is. The call that
asked for session 0 was told that it is gone. -/
theorem stale_parties_spare_newer_of_late_notice :
    ∃ h s, Run ⟨.standard, 16, "broker"⟩ 4 h s ∧ s.registered? "a" = some 1
      ∧ s.sessions.map Session.closed = [true, false] ∧ s.outcome? 4 = some (.ended 0)
      ∧ (∀ t, s.move? ⟨.standard, 16, "broker"⟩ (.act (.reader 0)) = some t →
        t.sessions[1]? = s.sessions[1]?)
      ∧ (∃ t, s.move? ⟨.standard, 16, "broker"⟩ (.act (.call 1)) = some t)
      ∧ (∀ t, s.move? ⟨.standard, 16, "broker"⟩ (.act (.call 1)) = some t →
        t.sessions[1]? = s.sessions[1]?)
      ∧ Told h 4 0 (.ended 0) := by
  obtain ⟨h, s, run, hreg, hclosed, ho, hmove, hlooks, c, hc, hclean, d, hd, hp⟩ :
      ∃ h s, Run ⟨.standard, 16, "broker"⟩ 4 h s ∧ s.registered? "a" = some 1
        ∧ s.sessions.map Session.closed = [true, false] ∧ s.outcome? 4 = some (.ended 0)
        ∧ (∃ t, s.move? ⟨.standard, 16, "broker"⟩ (.act (.call 1)) = some t)
        ∧ looks h = [(1, some 0)]
        ∧ ∃ c, s.calls[1]? = some c ∧ c.stage.cleansUp = true
        ∧ ∃ d, s.calls[4]? = some d ∧ d.purpose = .teardown "a" (some 0) :=
    ⟨_, _, path_of_trace? lateNotice rfl, rfl, rfl, rfl, ⟨_, rfl⟩, rfl, _, rfl, rfl, _, rfl, rfl⟩
  obtain ⟨hreader, hcleanup, hteardown, -⟩ := stale_parties_spare_newer run
  refine ⟨h, s, run, hreg, hclosed, ho, ?_, hmove, ?_, (hteardown 4 d "a" 0 hd hp).1 _ ho⟩
  · intro t hm
    exact (hreader 0 t hm).sessions 1 (by decide)
  · intro t hm
    obtain ⟨e, f, hb, hconfined⟩ := hcleanup 1 c t hc hm hclean
    obtain rfl : e = 0 := by simpa [hlooks] using hb.1
    exact hconfined.sessions 1 (by decide)

end Relay

end StompRelay
