import StompRelay.Proofs.Handling.Launch
/-!
# Connections come to their end

The relay opens a connection for a session, and ends it when the session is not registered any more,
however that came about. Closing a session shuts the write side only if no call is about to write;
otherwise the connection ends when the last of those who have the session has let it go.

## Main definitions

* `Relay.LoginsEnded` — no call is about to register a session

## Main results

* `Relay.ended_of_unregistered`, `Relay.not_ended_of_registered` — which connections are ended when
  nobody can move
* `Relay.cleared_of_path` — once all sessions have been ended, none is registered
* `Relay.connections_ended` — the whole
-/

namespace StompRelay.Relay

variable {setup : Setup} {busCapacity : Nat} {s t : Relay} {h k : History} {m : Move} {e : Place}
  {i j : CallId} {c d : Call} {x : Session}

/-! ### When nobody can move -/

/-- When nobody can move in a managed run, the relay has let go of a connection whose session is not
registered, unless the reader still waits with its last message. -/
theorem ended_of_unregistered (quiet : s.Quiet setup) (run : Run setup busCapacity h s)
    (hm : Managed h) (hx : s.sessions[e]? = some x) (hn : ∀ m, x.reader ≠ .notifying m)
    (hr : e ∉ s.registeredPlaces) : s.released e = true := by
  obtain ⟨i, ho⟩ := exists_opening_of_run run hm hx
  obtain ⟨c, x', hc, hx', -⟩ := (opened_of_run run).calls i e ho
  obtain rfl := Option.some.inj (hx.symm.trans hx')
  have hrests := quiet.rests run hc
  have awake (hst : c.stage = .registering e ∨ c.stage = .starting e) : False := by
    rcases hst with hst | hst <;> rw [hst] at hrests <;> cases hrests
  rcases launched_of_run run hm ho hc hx with (hst | ⟨hmem, hst | hstarted⟩) | hdropped
  · exact (awake (.inl hst)).elim
  · exact (awake (.inr hst)).elim
  · -- it was registered, and was closed as its entry went
    obtain ⟨y, hy, -, hopen⟩ := (chronicle_of_run run hm.orderly).created _ e hmem
    obtain rfl := Option.some.inj (hx.symm.trans hy)
    have hclosed : x.closed = true := by
      by_contra hnot
      exact hr (mem_registeredPlaces (hopen (Bool.eq_false_iff.mpr hnot)))
    have hfinished := quiet.finished hx hclosed hstarted hn
    simp [released, quiet.kept_eq_false run hm hx hclosed, hx, hfinished, Reader.holdsInput]
  · exact (hdropped.released run hm ho hc hx).2

/-- The connection of a registered session is not ended by the relay. -/
theorem not_ended_of_registered (run : Run setup busCapacity h s) (hm : Managed h)
    (hx : s.sessions[e]? = some x) (hr : e ∈ s.registeredPlaces) : s.endedByRelay e = false := by
  have hopen := (enrolled_of_run run hm.orderly).closed_eq_false hx hr
  have hshut : x.shut = false := by
    rw [← Bool.not_eq_true]
    intro hshut
    have hclosed := ((wired_of_run run e).2 x hx).2.shut hshut
    exact Bool.false_ne_true (hopen.symm.trans hclosed)
  have hkept : s.kept e = true := by simp [kept, hr]
  simp [endedByRelay, released, hx, hshut, hkept]

/-! ### When all sessions have been ended -/

/-- Every login has ended, so no call is about to register a session. -/
def LoginsEnded (s : Relay) : Prop :=
  ∀ c ∈ s.calls, c.purpose.dials = true → c.stage.outcome?.isSome = true

instance : DecidablePred LoginsEnded := fun s =>
  inferInstanceAs (Decidable (∀ c ∈ s.calls, _ → _))

/-- A login has ended when all have. -/
theorem LoginsEnded.done (hl : s.LoginsEnded) (hc : s.calls[i]? = some c)
    (hd : c.purpose.dials = true) : ∃ o, c.stage = .done o := by
  have hended := hl c (List.mem_of_getElem? hc) hd
  cases hst : c.stage with
  | done o => exact ⟨o, rfl⟩
  | _ =>
    rw [hst] at hended
    cases hended

/-- Logins have ended as long as none is started. -/
theorem LoginsEnded.step (hl : s.LoginsEnded) (step : MoveStep setup s m t)
    (hnew : ∀ msg command, m ≠ .start (.login msg command)) : t.LoginsEnded := by
  intro d hmem hdials
  obtain ⟨i, hd⟩ := List.getElem?_of_mem hmem
  cases hs : s.calls[i]? with
  | some c =>
    have hpurpose := step.purpose_eq hs hd
    obtain ⟨o, ho⟩ := hl.done hs (hpurpose ▸ hdials)
    obtain rfl := Option.some.inj (hd.symm.trans (step.done_after hs ho))
    simp [ho, Stage.outcome?]
  | none =>
    obtain ⟨-, rfl | ⟨id, capacity, reads, holds, -, hp⟩⟩ := step.call_new hs hd
    · cases hp : d.purpose with
      | login msg command => exact absurd (hp ▸ rfl) (hnew msg command)
      | _ =>
        rw [hp] at hdials
        cases hdials
    · rw [hp] at hdials
      cases hdials

/-- While no login is under way, a managed step adds nothing to the register. -/
theorem LoginsEnded.registry_sublist (hl : s.LoginsEnded) (run : Run setup busCapacity h s)
    (hm : Managed h) (step : MoveStep setup s m t) : t.registry.Sublist s.registry := by
  rcases step.registry with hsub | ⟨i, c, e, -, hc, hst, -⟩
  · exact hsub
  · have hopens := opening_of_opens run hm hc (e := e) (by simp [hst, Stage.opens])
    obtain ⟨o, ho⟩ := hl.done hc ((opened_of_run run).dials hopens hc)
    cases hst.symm.trans ho

/-- A call that ends all sessions empties the register. -/
theorem CallStep.registry_of_clearing (step : CallStep setup s i c t)
    (hst : c.stage = .clearing) : t.registry = [] := by
  cases step with
  | clear => rfl
  | refuse hst' | dial hst' | reject hst' | register hst' | attach hst' | start hst' | find hst'
  | miss hst' | encode hst' | unencodable hst' | queue hst' | turn hst' | bounce hst' | cut hst'
  | accept hst' | finish hst' | snap hst' | push hst' | complete hst' | condemn hst' | late hst'
  | remove hst' | pass hst' | close hst' | leave hst' | join hst' | refrain hst' | post hst' =>
    cases hst.symm.trans hst'

/-- Once a call that was started while no login was under way has ended all sessions, the register
stays empty until somebody logs in. -/
theorem cleared_of_path (run : Run setup busCapacity h s) (hm : Managed h) (hl : s.LoginsEnded)
    (path : Path setup s k t) (hk : Managed k)
    (hnew : ∀ τ ∈ k, ∀ msg command, τ.move ≠ .start (.login msg command))
    (hj : s.calls[j]? = none) :
    t.LoginsEnded ∧ ∀ c, t.calls[j]? = some c → c.purpose = .teardownAll →
      c.stage = .clearing ∨ t.registry = [] := by
  induction path with
  | nil => exact ⟨hl, fun c hc => absurd (hj.symm.trans hc) (Option.some_ne_none c).symm⟩
  | @snoc k u v m path hmove ih =>
    obtain ⟨hbefore, -⟩ := managed_snoc.mp hk
    obtain ⟨hended, hcleared⟩ := ih hbefore fun τ hτ => hnew τ (List.mem_append_left _ hτ)
    have step := (run.append path).moveStep hmove
    refine ⟨hended.step step (hnew _ (List.mem_append_right _ List.mem_cons_self)), ?_⟩
    intro c hc hp
    rcases step.call_before hc with ⟨b, hb, hpurpose, -⟩ | ⟨-, hstart⟩
    · rcases hcleared b hb (hpurpose ▸ hp) with hst | hempty
      · by_cases hm' : m = .act (.call j)
        · subst hm'
          cases step with
          | call hb' own =>
            obtain rfl := Option.some.inj (hb'.symm.trans hb)
            exact .inr (own.registry_of_clearing hst)
        · rcases step.stage_of_ne hm' hb hc with heq | ⟨hdialing, -⟩
          · exact .inl (heq.trans hst)
          · cases hst.symm.trans hdialing
      · have hsub := hended.registry_sublist (run.append path) (managed_append.mpr ⟨hm, hbefore⟩)
          step
        exact .inr (List.sublist_nil.mp (hempty ▸ hsub))
    · rw [hp] at hstart
      exact .inl hstart

/-! ### The whole -/

/-- No connection is left over.

When nobody can move and no reader waits with its last message, the relay has ended exactly those
connections whose sessions are not registered: nothing of them is left in the relay, whether a call
was still writing to the session as it was ended, or the session was never registered because its
id was taken. Left alone, the relay comes to such a state. And if a call to end all sessions is
made while no login is under way, and nobody logs in afterwards, every connection has been ended
then. -/
theorem connections_ended (run : Run setup busCapacity h s) (hm : Managed h) :
    (s.Quiet setup → ∀ e x, s.sessions[e]? = some x → (∀ m, x.reader ≠ .notifying m) →
        (s.endedByRelay e = true ↔ s.registered? x.id ≠ some e)
          ∧ (s.endedByRelay e = true → s.released e = true))
      ∧ (∃ k t, Path setup s k t ∧ Managed k ∧ t.Quiet setup)
      ∧ (s.LoginsEnded → ∀ k t (j : CallId) (c : Call), Path setup s k t → Managed k →
        (∀ τ ∈ k, ∀ msg command, τ.move ≠ .start (.login msg command)) →
        s.calls[j]? = none → t.calls[j]? = some c → c.purpose = .teardownAll → t.Quiet setup →
        t.registry = [] ∧ ∀ e x, t.sessions[e]? = some x → (∀ m, x.reader ≠ .notifying m) →
          t.endedByRelay e = true) := by
  refine ⟨?_, ?_, ?_⟩
  · intro quiet e x hx hn
    have hiff := (census_of_run run).registered?_iff hx
    have hreleased (hr : e ∉ s.registeredPlaces) : s.released e = true :=
      ended_of_unregistered quiet run hm hx hn hr
    have hout (hended : s.endedByRelay e = true) : e ∉ s.registeredPlaces := fun hr =>
      Bool.false_ne_true ((not_ended_of_registered run hm hx hr).symm.trans hended)
    refine ⟨⟨fun hended => mt hiff.mp (hout hended), ?_⟩, fun hended => hreleased (hout hended)⟩
    intro hr
    simp [endedByRelay, hreleased (mt hiff.mpr hr)]
  · have hnumbered := numbered_of_run run
    obtain ⟨k, path, hown⟩ := path_settle setup hnumbered
    refine ⟨k, _, path, ?_, quiet_settle setup hnumbered⟩
    rw [Managed, List.all_eq_true]
    intro τ hτ
    obtain ⟨a, ha⟩ := hown τ hτ
    rw [ha]
    rfl
  · intro hl k t j c path hk hnew hj hc hp quiet
    have hcleared := (cleared_of_path run hm hl path hk hnew hj).2 c hc hp
    have run' := run.append path
    have hempty : t.registry = [] := by
      refine hcleared.resolve_left fun hst => ?_
      have hrests := quiet.rests run' hc
      rw [hst] at hrests
      cases hrests
    refine ⟨hempty, fun e x hx hn => ?_⟩
    have hreleased := ended_of_unregistered quiet run' (managed_append.mpr ⟨hm, hk⟩) hx hn
      (by simp [registeredPlaces, hempty])
    simp [endedByRelay, hreleased]

/-- A client logs in over a connection that takes four bytes, and goes while its login is written.
Another client logs in twice at the same time. -/
def stalledLogin : List Move :=
  [.start (loginOf "a"), .act (.call 0), .dialed 0 (.ok 4), .act (.call 0), .act (.call 0),
    .act (.call 0), .act (.call 0), .act (.call 0), .act (.call 0), .act (.call 0), .act (.call 0),
    .start (loginOf "b"), .start (loginOf "b"), .act (.call 1), .act (.call 2),
    .dialed 1 (.ok 64), .dialed 2 (.ok 64), .act (.call 2), .act (.call 1),
    .act (.call 2), .act (.call 2), .act (.call 2), .act (.call 2), .act (.call 2), .act (.call 2),
    .act (.call 2),
    .start (.depart "a"), .act (.call 3), .act (.call 3), .act (.call 3),
    .act (.call 0), .act (.call 0), .act (.reader 0), .act (.reader 0)]

/-- Then the relay ends all sessions. -/
def lastClearance : List Move :=
  [.start .teardownAll, .act (.call 4), .act (.call 4), .act (.call 4), .act (.reader 2),
    .act (.reader 2)]

/-- The connection of the first client and one of those of the second are ended, although the write
side of neither was shut. The other one is open until the end. -/
theorem connections_ended_of_stalled_login :
    ∃ h s k t, Run ⟨.standard, 16, "broker"⟩ 4 h s ∧ Path ⟨.standard, 16, "broker"⟩ s k t
      ∧ s.outcome? 1 = some (.failed (.sessionAlreadyExists "b"))
      ∧ s.sessions.map Session.shut = [false, false, false] ∧ s.registry = [("b", 2)]
      ∧ s.endedByRelay 0 = true ∧ s.endedByRelay 1 = true ∧ s.endedByRelay 2 = false
      ∧ t.registry = [] ∧ t.endedByRelay 2 = true := by
  obtain ⟨h, s, run, hm, quiet, ho, hshut, hreg, x, y, z, hx, hy, hz, hfinished, hxid, hyid, hzid,
      k, t, path, hk, hnew, c, z', hended, hj, hc, hp, quiet', hz', hfinished'⟩ :
      ∃ h s, Run ⟨.standard, 16, "broker"⟩ 4 h s ∧ Managed h ∧ s.Quiet ⟨.standard, 16, "broker"⟩
        ∧ s.outcome? 1 = some (.failed (.sessionAlreadyExists "b"))
        ∧ s.sessions.map Session.shut = [false, false, false] ∧ s.registry = [("b", 2)]
        ∧ ∃ x y z, s.sessions[0]? = some x ∧ s.sessions[1]? = some y ∧ s.sessions[2]? = some z
        ∧ (x.reader = .finished ∧ y.reader = .finished ∧ ∃ f, z.reader = .reading [] f)
        ∧ x.id = "a" ∧ y.id = "b" ∧ z.id = "b"
        ∧ ∃ k t, Path ⟨.standard, 16, "broker"⟩ s k t ∧ Managed k
        ∧ (∀ τ ∈ k, ∀ msg command, τ.move ≠ .start (.login msg command))
        ∧ ∃ c z', s.LoginsEnded ∧ s.calls[4]? = none ∧ t.calls[4]? = some c
        ∧ c.purpose = .teardownAll ∧ t.Quiet ⟨.standard, 16, "broker"⟩
        ∧ t.sessions[2]? = some z' ∧ z'.reader = .finished := by
    refine ⟨_, _, path_of_trace? stalledLogin rfl, rfl, @quiet_of_next? _ _ none rfl, rfl, rfl,
      rfl, _, _, _, rfl, rfl, rfl, ⟨rfl, rfl, _, rfl⟩, rfl, rfl, rfl,
      _, _, path_of_trace? lastClearance rfl, rfl, by simp, _, _,
      of_decide_eq_true rfl, rfl, rfl, rfl, @quiet_of_next? _ _ none rfl, rfl, rfl⟩
  obtain ⟨hends, -, hclear⟩ := connections_ended run hm
  obtain ⟨hempty, hall⟩ := hclear hended k t 4 c path hk hnew hj hc hp quiet'
  have ends {e x} := hends quiet e x
  have quietened {x : Session} (hx : x.reader = .finished) (m) : x.reader ≠ .notifying m := by
    rw [hx]
    exact Reader.noConfusion
  obtain ⟨hxf, hyf, f, hzf⟩ := hfinished
  have hzn (m) : z.reader ≠ .notifying m := by
    rw [hzf]
    exact Reader.noConfusion
  refine ⟨h, s, k, t, run, path, ho, hshut, hreg, ?_, ?_, ?_, hempty, ?_⟩
  · exact (ends hx (quietened hxf)).1.mpr (by rw [registered?, hreg, hxid]; decide)
  · exact (ends hy (quietened hyf)).1.mpr (by rw [registered?, hreg, hyid]; decide)
  · refine Bool.eq_false_iff.mpr fun hended => ?_
    have hnot := (ends hz hzn).1.mp hended
    rw [registered?, hreg, hzid] at hnot
    exact hnot rfl
  · exact hall 2 z' hz' (quietened hfinished')

end StompRelay.Relay
