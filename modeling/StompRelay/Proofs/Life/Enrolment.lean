import StompRelay.Proofs.Life.Register
/-!
# Open sessions are registered sessions

As long as nobody removes entries or closes sessions by hand, the register holds open sessions only,
each under the id it was opened for.

## Main results

* `Relay.MoveStep.registering_before`, `Relay.MoveStep.closes_before` — what the calls that
  register or close sessions did before a step
* `Relay.Enrolled.step` — every orderly step keeps the register like this
* `Relay.enrolled_of_run` — in every orderly run it is
-/

namespace StompRelay

/-- A call that registers a session has just been given it. -/
theorem Stage.Next.eq_dialing {codec : Codec} {p : Purpose} {e : Place} {old : Stage}
    (hnext : Stage.Next codec p old (.registering e)) : old = .dialing := by
  cases hnext.advance rfl with
  | dialed => rfl

theorem Purpose.closes_conclude (p : Purpose) (o : Outcome) : (p.conclude o).closes = [] := by
  cases p <;> rfl

theorem Purpose.closes_afterBreak (p : Purpose) (e : Place) (f : WriteFault) :
    (p.afterBreak e f).closes = [] := by
  cases p <;> rfl

namespace Relay

variable {setup : Setup} {busCapacity : Nat} {s t : Relay} {h : History} {m : Move} {e : Place}
  {i : CallId} {c d : Call} {x y : Session} {id : SessionId} {event : Option LifeEvent}

/-! ### Closed sessions stay closed -/

/-- A session that is closed before its reader moves is closed after it. -/
theorem ReaderStep.closed (step : ReaderStep setup s e x t) (hx : s.sessions[e]? = some x)
    (hy : t.sessions[e]? = some y) (hclosed : x.closed = true) : y.closed = true := by
  cases step with
  | unregister =>
    obtain rfl := eq_of_unregister hx hy
    rfl
  | shut =>
    obtain rfl := eq_of_modifySession hx hy
    exact (Session.SameInput.close x).closed hclosed
  | _ =>
    obtain rfl := eq_of_modifySession hx hy
    exact hclosed

/-- A session that is closed stays closed. -/
theorem HasClosed.step (hclosed : s.HasClosed e) (step : MoveStep setup s m t) :
    t.HasClosed e := by
  obtain ⟨x, hx, hclosed⟩ := hclosed
  obtain ⟨y, hy, input⟩ := step.inputStep hx
  refine ⟨y, hy, ?_⟩
  cases input with
  | rest _ same => exact same.closed hclosed
  | own own => exact own.closed hx hy hclosed
  | drop _ _ _ hy' | start _ _ _ _ hy' => rw [hy']; exact hclosed

/-! ### What calls did before -/

/-- A call that registers a session after a step did so before it, or has just been given the
connection. -/
theorem MoveStep.registering_before (step : MoveStep setup s m t) (hd : t.calls[i]? = some d)
    (hst : d.stage = .registering e) :
    (∃ c, s.calls[i]? = some c ∧ c.stage = .registering e)
      ∨ e = s.sessions.length
        ∧ ∃ id capacity, t.sessions = s.sessions ++ [.new id s.nextEpoch capacity] := by
  rcases step.opens_before (e := e) hd (by simp [hst, Stage.opens]) with
    ⟨c, hc, -, hopens⟩ | ⟨-, hfresh, capacity, heq⟩
  · refine .inl ⟨c, hc, ?_⟩
    obtain ⟨d', hd', -, hstage⟩ := step.call_after hc
    rw [hd, Option.some.injEq] at hd'
    subst hd'
    rcases hstage with heq | hnext
    · exact heq.symm.trans hst
    · rw [hst] at hnext
      rw [hnext.eq_dialing] at hopens
      cases hopens
  · exact .inr ⟨hfresh, _, capacity, heq⟩

/-- A call that is about to close a session has ended it in its last step, or was about to close it
before. -/
theorem CallStep.closes (hs : s.Sound) (hc : s.calls[i]? = some c)
    (step : CallStep setup s i c t) {new : Stage} (hnew : t.stage? i = some new)
    (hmem : e ∈ new.closes) : e ∈ c.stage.closes ∨ t.HasClosed e := by
  have moved {stage : Stage} (ht : t.calls = (s.setStage i stage).calls) : new = stage :=
    stage_eq_of_calls_eq (stage?_eq_of_getElem? hc) hnew ht
  have none {stage : Stage} (ht : t.calls = (s.setStage i stage).calls)
      (hstage : stage.closes = []) : e ∈ c.stage.closes ∨ t.HasClosed e := by
    rw [moved ht, hstage] at hmem
    cases hmem
  cases step with
  | miss | unencodable | finish | complete | late => exact none rfl (Purpose.closes_conclude _ _)
  | bounce | cut | snap => exact none rfl (Purpose.closes_afterBreak _ _ _)
  | condemn _ hreg | remove _ hreg =>
    rw [moved rfl] at hmem
    obtain rfl := List.mem_singleton.mp hmem
    have hx := List.getElem?_eq_getElem (hs.of_registered? hreg)
    exact .inr ⟨_, getElem?_modifySession_self hx, rfl⟩
  | clear =>
    rw [moved (calls_clear _ _)] at hmem
    obtain ⟨p, hp, rfl⟩ := List.mem_map.mp hmem
    have hx := List.getElem?_eq_getElem (hs.registered p hp)
    exact .inr ⟨_, getElem?_cancelAll_of_mem (mem_registeredPlaces hp) hx, rfl⟩
  | close hst =>
    rw [moved rfl] at hmem
    refine .inl ?_
    rw [hst]
    exact List.mem_cons_of_mem _ hmem
  | @leave o final =>
    refine none rfl ?_
    cases final
    · exact Purpose.closes_conclude _ _
    · rfl
  | _ => exact none rfl rfl

/-- A session that a call is about to close after a step is closed, or the call was about to close
it before, or has been started to close it by hand. -/
theorem MoveStep.closes_before (hs : s.Sound) (step : MoveStep setup s m t)
    (hd : t.calls[i]? = some d) (hmem : e ∈ d.stage.closes) :
    (∃ c, s.calls[i]? = some c ∧ d.purpose = c.purpose ∧ e ∈ c.stage.closes) ∨ t.HasClosed e
      ∨ m = .start (.close e) ∧ d.purpose = .close e := by
  have hstage : t.stage? i = some d.stage := stage?_eq_of_getElem? hd
  cases hc : s.calls[i]? with
  | none =>
    -- only a call to close a session by hand starts with one to close
    obtain ⟨hstart, rfl | ⟨id, capacity, reads, holds, -, hp⟩⟩ := step.call_new hc hd
    · rw [hstart] at hmem
      cases hp : d.purpose with
      | close e' =>
        rw [hp] at hmem
        obtain rfl := List.mem_singleton.mp hmem
        exact .inr (.inr ⟨rfl, rfl⟩)
      | _ => simp [hp, Purpose.start, Stage.closes] at hmem
    · simp [hstart, hp, Purpose.start, Stage.closes] at hmem
  | some c =>
    have hold : s.stage? i = some c.stage := stage?_eq_of_getElem? hc
    obtain ⟨d', hd', hpurpose, -⟩ := step.call_after hc
    rw [hd, Option.some.injEq] at hd'
    subst hd'
    by_cases hm : m = .act (.call i)
    · subst hm
      cases step with
      | call hc' step =>
        obtain rfl := Option.some.inj (hc'.symm.trans hc)
        exact (step.closes hs hc hstage hmem).imp (fun hmem => ⟨_, rfl, hpurpose, hmem⟩) .inl
    · rcases step.stage_of_ne hm hc hd with heq | ⟨-, ⟨o, ht⟩ | ⟨e', ht⟩⟩
      · exact .inl ⟨c, rfl, hpurpose, heq ▸ hmem⟩
      · simp [ht, Stage.closes] at hmem
      · simp [ht, Stage.closes] at hmem

/-! ### What a step does to the register -/

namespace RegisterStep

/-- The sessions that a step closes go out of the register with it. -/
theorem spared (step : RegisterStep s t event) (he : s.Enrolled) :
    ∃ es, Spared s t es ∧ ∀ e ∈ es, e ∈ s.registeredPlaces ∧ e ∉ t.registeredPlaces := by
  cases step with
  | rest _ hspared => exact ⟨[], hspared, by simp⟩
  | create _ _ _ _ _ hsessions => exact ⟨[], .of_eq hsessions, by simp⟩
  | @«end» id e hreg ht hspared =>
    have hmem : (id, e) ∈ s.registry := mem_registry_of_registered? hreg
    refine ⟨[e], hspared, ?_⟩
    intro e' he'
    obtain rfl := List.mem_singleton.mp he'
    refine ⟨mem_registeredPlaces hmem, ?_⟩
    intro hin
    -- another entry of the session would be under its id, too
    obtain ⟨⟨id', e''⟩, hp, rfl⟩ := List.mem_map.mp hin
    rw [ht] at hp
    obtain ⟨hp, hne⟩ := List.mem_filter.mp hp
    obtain ⟨x, hx, hid, -⟩ := he.live _ _ hmem
    simp [← hid, (he.of_mem hx hp).1] at hne
  | clear ht hspared =>
    exact ⟨_, hspared, fun e he => ⟨he, by simp [registeredPlaces, ht]⟩⟩

/-- A session that is registered after a step was registered before it, or has just been. -/
theorem mem_registry (step : RegisterStep s t event) (hmem : (id, e) ∈ t.registry) :
    (id, e) ∈ s.registry ∨ event = some (.created id e) ∧ t.sessions = s.sessions
      ∧ ∃ i c, s.calls[i]? = some c ∧ c.stage = .registering e ∧ c.purpose.id = id
        ∧ t.stage? i = some (.starting e) := by
  cases step with
  | rest ht => exact .inl (ht ▸ hmem)
  | create hc hst hnew _ ht hsessions =>
    rw [ht] at hmem
    rcases List.mem_append.mp hmem with hmem | hmem
    · exact .inl hmem
    · cases List.mem_singleton.mp hmem
      exact .inr ⟨rfl, hsessions, _, _, hc, hst, rfl, hnew⟩
  | «end» _ ht =>
    rw [ht] at hmem
    exact .inl (List.mem_filter.mp hmem).1
  | clear ht =>
    rw [ht] at hmem
    cases hmem

theorem nodup (step : RegisterStep s t event) (he : s.Enrolled) : t.ids.Nodup := by
  cases step with
  | rest ht => rw [ids, ht]; exact he.nodup
  | create _ _ _ hfree ht =>
    rw [ids, ht, List.map_append, List.map_singleton]
    refine List.nodup_append.mpr ⟨he.nodup, List.pairwise_singleton _ _, ?_⟩
    intro a ha b hb hab
    rw [hab, List.mem_singleton.mp hb] at ha
    exact registered?_eq_none_iff.mp hfree ha
  | «end» _ ht =>
    rw [ids, ht]
    exact he.nodup.sublist (List.filter_sublist.map _)
  | clear ht =>
    rw [ids, ht]
    exact List.nodup_nil

end RegisterStep

/-! ### Every step keeps the register like this -/

namespace Enrolled

theorem live_step (he : s.Enrolled) (ho : s.Opening) (step : RegisterStep s t event)
    (hmem : (id, e) ∈ t.registry) :
    ∃ y : Session, t.sessions[e]? = some y ∧ y.id = id ∧ y.closed = false
      ∧ y.reader.leaves = false := by
  -- an entry that stays was not closed by the step; a new one is of a session just opened
  rcases step.mem_registry hmem with hold | ⟨-, hsessions, i, c, hc, hst, hid, -⟩
  · obtain ⟨es, hspared, hes⟩ := step.spared he
    obtain ⟨x, hx, hid, hopen, hover⟩ := he.live id e hold
    obtain ⟨y, hy, hid', -, hkept⟩ := hspared e x hx
    obtain ⟨hclosed, hover'⟩ := hkept fun hin => (hes e hin).2 (mem_registeredPlaces hmem)
    refine ⟨y, hy, hid'.trans hid, hclosed.trans hopen, ?_⟩
    cases hy' : y.reader.leaves with
    | false => rfl
    | true =>
      rcases hover' hy' with hx' | hout
      · exact hx'.symm.trans hover
      · exact absurd (mem_registeredPlaces hold) hout
  · obtain ⟨x, hx, hr, hid'⟩ := ho.unstarted i c e hc (by simp [hst, Stage.opens])
    obtain ⟨x', hx', hopen⟩ := he.waiting i c e hc hst
    rw [hx, Option.some.injEq] at hx'
    subst hx'
    exact ⟨x, hsessions ▸ hx, hid'.trans hid, hopen, by rw [hr]; rfl⟩

theorem entered_step (he : s.Enrolled) (hs : s.Sound) (ho' : t.Opening)
    (step : RegisterStep s t event) (move : MoveStep setup s m t) (hd : t.calls[i]? = some d)
    (hst : d.stage = .registering e) : e ∉ t.registeredPlaces := by
  intro hin
  obtain ⟨⟨id, e'⟩, hmem, rfl⟩ := List.mem_map.mp hin
  rcases step.mem_registry hmem with hold | ⟨-, -, j, c, hc, hst', -, hnew⟩
  · rcases move.registering_before hd hst with ⟨c, hc, hst'⟩ | ⟨hfresh, -⟩
    · exact he.entered i c e' hc hst' (mem_registeredPlaces hold)
    · exact absurd (hs.registered _ hold) (hfresh ▸ Nat.lt_irrefl _)
  · exact ho'.stage?_ne_starting hd hst hnew

theorem waiting_step (he : s.Enrolled) (step : RegisterStep s t event)
    (move : MoveStep setup s m t) (hd : t.calls[i]? = some d) (hst : d.stage = .registering e) :
    ∃ y : Session, t.sessions[e]? = some y ∧ y.closed = false := by
  rcases move.registering_before hd hst with ⟨c, hc, hst'⟩ | ⟨rfl, id, capacity, heq⟩
  · obtain ⟨es, hspared, hes⟩ := step.spared he
    obtain ⟨x, hx, hopen⟩ := he.waiting i c e hc hst'
    obtain ⟨y, hy, -, -, hkept⟩ := hspared e x hx
    exact ⟨y, hy, (hkept fun hin => he.entered i c e hc hst' (hes e hin).1).1.trans hopen⟩
  · exact ⟨.new id s.nextEpoch capacity, by simp [heq], rfl⟩

theorem shutting_step (he : s.Enrolled) (move : MoveStep setup s m t)
    (hy : t.sessions[e]? = some y) (hr : y.reader = .shutting) : y.closed = true := by
  cases hx : s.sessions[e]? with
  | none =>
    obtain ⟨id, capacity, rfl⟩ := move.session_new hx hy
    cases hr
  | some x =>
    obtain ⟨y', hy', input⟩ := move.inputStep hx
    obtain rfl := Option.some.inj (hy'.symm.trans hy)
    cases input with
    | rest _ same => exact same.closed (he.shutting e x hx (same.reader.symm.trans hr))
    | drop _ _ _ hy' =>
      rw [hy'] at hr
      cases hr
    | start _ _ _ hreader hy' =>
      rw [hy'] at hr
      rcases hreader with rfl | rfl <;> cases hr
    | own own =>
      cases own with
      | unregister =>
        obtain rfl := eq_of_unregister hx hy
        rfl
      | _ =>
        obtain rfl := eq_of_modifySession hx hy
        cases hr

/-- Every orderly step keeps open sessions only in the register. -/
theorem step (he : s.Enrolled) (hs : s.Sound) (ho : s.Opening) (ho' : t.Opening)
    (move : MoveStep setup s m t) (horderly : m.orderly = true) : t.Enrolled := by
  have step := move.registerStep he horderly
  refine ⟨step.nodup he, fun id e hmem => he.live_step ho step hmem,
    fun i d e hd hst => he.entered_step hs ho' step move hd hst,
    fun i d e hd hst => he.waiting_step step move hd hst, ?_,
    fun e y hy hr => he.shutting_step move hy hr⟩
  intro i d e hd hmem
  rcases move.closes_before hs hd hmem with ⟨c, hc, -, hmem⟩ | hclosed | ⟨rfl, -⟩
  · exact (he.closing i c e hc hmem).step move
  · exact hclosed
  · cases horderly

end Enrolled

/-- In every orderly run, the register holds open sessions only, each under its own id. -/
theorem enrolled_of_run (run : Run setup busCapacity h s) (horderly : Orderly h) : s.Enrolled := by
  induction run with
  | nil =>
    exact ⟨List.nodup_nil, by simp [Relay.empty], by simp [Relay.empty], by simp [Relay.empty],
      by simp [Relay.empty], by simp [Relay.empty]⟩
  | snoc run hm ih =>
    obtain ⟨hbefore, hmove⟩ := orderly_snoc.mp horderly
    exact (ih hbefore).step (sound_of_run run) (opening_of_run run)
      (opening_of_run (.snoc run hm)) (run.moveStep hm) hmove

end Relay

end StompRelay
