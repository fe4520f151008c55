import StompRelay.Proofs.Stages
/-!
# Sessions that are there

Nothing in the relay ever speaks of a session that is not there, and sessions never go.

## Main definitions

* `Relay.Sound` — nothing speaks of a session that is not there

## Main results

* `Relay.sound_of_run` — every state of every run is sound
* `Relay.MoveStep.sessions_grow` — a step keeps all sessions, and adds one at most
* `Relay.session_of_run` — what every step keeps of one session holds of it in every run
-/

namespace StompRelay

theorem Purpose.keeps_conclude (p : Purpose) (o : Outcome) (e : Place) :
    (p.conclude o).keeps e = false := by
  cases p <;> rfl

theorem Purpose.keeps_of_afterBreak {p : Purpose} {f : WriteFault} {e e' : Place}
    (hk : (p.afterBreak e f).keeps e' = true) : e' = e := by
  cases p <;> simp_all [afterBreak, Stage.keeps]

namespace Relay

variable {setup : Setup} {busCapacity : Nat} {s t : Relay} {h : History} {m : Move} {e : Place}
  {i j : CallId} {c : Call} {x : Session} {id : SessionId} {stage new : Stage}

/-- What is found by id is in the register. -/
theorem mem_registry_of_registered? (hr : s.registered? id = some e) : (id, e) ∈ s.registry := by
  obtain ⟨before, after, heq, -⟩ := List.lookup_eq_some_iff.mp hr
  rw [heq]
  simp

/-- Nothing in the relay speaks of a session that is not there. -/
structure Sound (s : Relay) : Prop where
  kept : ∀ i stage e, s.stage? i = some stage → stage.keeps e = true → e < s.sessions.length
  registered : ∀ p ∈ s.registry, p.2 < s.sessions.length

namespace Sound

theorem empty : (Relay.empty busCapacity).Sound where
  kept i stage e hi := by simp [stage?, Relay.empty] at hi
  registered p hp := by simp [Relay.empty] at hp

/-- Soundness is a matter of the stages, the register and the number of sessions. -/
theorem congr (hs : s.Sound) (hc : t.calls = s.calls) (hr : ∀ p ∈ t.registry, p ∈ s.registry)
    (hl : s.sessions.length ≤ t.sessions.length) : t.Sound where
  kept i stage e hi hk := by
    have hi' : s.stage? i = some stage := by rwa [stage?, hc] at hi
    exact Nat.lt_of_lt_of_le (hs.kept i stage e hi' hk) hl
  registered p hp := Nat.lt_of_lt_of_le (hs.registered p (hr p hp)) hl

theorem modifySession (hs : s.Sound) (f : Session → Session) : (s.modifySession e f).Sound :=
  hs.congr rfl (fun _ hp => hp) (by simp)

theorem unregister (hs : s.Sound) : (s.unregister id e).Sound :=
  hs.congr rfl (fun _ hp => (List.mem_filter.mp hp).1) (by simp)

theorem withBus (hs : s.Sound) (b : Bus) : Sound { s with bus := b } :=
  hs.congr rfl (fun _ hp => hp) (Nat.le_refl _)

theorem setStage (hs : s.Sound) (hk : ∀ e, new.keeps e = true → e < s.sessions.length) :
    (s.setStage i new).Sound where
  kept j stage e hj hke := by
    by_cases hij : i = j
    · subst hij
      obtain ⟨c, hc, rfl⟩ := Option.map_eq_some_iff.mp hj
      rw [getElem?_setStage, if_pos rfl] at hc
      obtain ⟨d, -, rfl⟩ := Option.map_eq_some_iff.mp hc
      exact hk e hke
    · rw [stage?_setStage_of_ne hij] at hj
      exact hs.kept j stage e hj hke
  registered := hs.registered

theorem of_registered? (hs : s.Sound) (hr : s.registered? id = some e) :
    e < s.sessions.length :=
  hs.registered _ (mem_registry_of_registered? hr)

end Sound

/-- After a step of a call only sessions are kept that were kept or registered before. -/
theorem CallStep.sound (hs : s.Sound) (hc : s.calls[i]? = some c)
    (step : CallStep setup s i c t) : t.Sound := by
  -- a stage keeps what the stage before it kept, or what the call found in the register
  have kept {e : Place} : c.stage.keeps e = true → e < s.sessions.length :=
    hs.kept i c.stage e (stage?_eq_of_getElem? hc)
  cases step with
  | refuse | dial | pass => exact hs.setStage fun e hk => by simp [Stage.keeps] at hk
  | miss | unencodable | late =>
    exact hs.setStage fun e hk => by simp [Purpose.keeps_conclude] at hk
  | reject => exact (hs.modifySession _).setStage fun e hk => by simp [Stage.keeps] at hk
  | @register e hst =>
    have he : e < s.sessions.length := kept (by simp [hst, Stage.keeps])
    have hs' : (s.setStage i (.starting e)).Sound :=
      hs.setStage fun e' hk => by simp_all [Stage.keeps]
    exact ⟨hs'.kept, fun p hp => by
      rcases List.mem_append.mp hp with hp | hp
      · exact hs.registered p hp
      · rwa [List.mem_singleton.mp hp]⟩
  | attach => exact (hs.modifySession _).setStage fun e hk => by simp [Stage.keeps] at hk
  | start => exact (hs.modifySession _).setStage fun e hk => by simp [Stage.keeps] at hk
  | find _ hr =>
    apply hs.setStage
    intro e' hk
    simp only [Stage.keeps, beq_iff_eq] at hk
    exact hk ▸ hs.of_registered? hr
  | encode hst | turn hst =>
    exact hs.setStage fun e' hk => kept (by simpa [hst, Stage.keeps] using hk)
  | queue hst =>
    apply (hs.modifySession _).setStage
    intro e' hk
    simpa using kept (by simpa [hst, Stage.keeps] using hk)
  | bounce hst | cut hst | snap hst =>
    apply (hs.modifySession _).setStage
    intro e' hk
    simpa using kept (by simp [hst, Stage.keeps, Purpose.keeps_of_afterBreak hk])
  | accept hst | push hst =>
    apply (hs.modifySession _).setStage
    intro e' hk
    simpa using kept (by simpa [hst, Stage.keeps] using hk)
  | finish =>
    exact (hs.modifySession _).setStage fun e' hk => by simp [Purpose.keeps_conclude] at hk
  | complete =>
    apply ((hs.modifySession _).modifySession _).setStage
    intro e' hk
    simp [Purpose.keeps_conclude] at hk
  | condemn hst =>
    apply hs.unregister.setStage
    intro e' hk
    simpa using kept (by simpa [hst, Stage.keeps] using hk)
  | remove _ hr =>
    apply hs.unregister.setStage
    intro e' hk
    simp only [Stage.keeps, List.contains_eq_mem, List.mem_singleton, decide_eq_true_eq] at hk
    simpa [hk] using hs.of_registered? hr
  | clear =>
    have hs' : Sound { s.cancelAll s.registeredPlaces with registry := [] } :=
      hs.congr (by simp) (by simp) (by simp)
    apply hs'.setStage
    intro e' hk
    simp only [Stage.keeps, List.contains_eq_mem, decide_eq_true_eq] at hk
    obtain ⟨p, hp, rfl⟩ := List.mem_map.mp hk
    simpa using hs.registered p hp
  | close hst =>
    apply (hs.modifySession _).setStage
    intro e' hk
    simpa using kept (by simp_all [Stage.keeps])
  | @leave o final =>
    apply hs.setStage
    intro e' hk
    cases final
    · simp [Purpose.keeps_conclude] at hk
    · simp [Stage.keeps] at hk
  | join | refrain | post =>
    exact (hs.withBus _).setStage fun e' hk => by simp [Stage.keeps] at hk

/-- A step of a reader brings no session into play. -/
theorem ReaderStep.sound (hs : s.Sound) (step : ReaderStep setup s e x t) : t.Sound := by
  cases step with
  | stop | read | skip | fetch | quit | shut => exact hs.modifySession _
  | overflow | reject | offer | lose | fail | abandon | post | hush | announce =>
    exact (hs.modifySession _).withBus _
  | unregister => exact hs.unregister.modifySession _

/-- A call that starts keeps only a session that is about to be. -/
theorem Sound.start (hs : s.Sound) {p : Purpose}
    (hk : ∀ e, (p.start s.sessions.length).keeps e = true → e < t.sessions.length)
    (hc : t.calls = s.calls ++ [⟨p, p.start s.sessions.length⟩]) (hr : t.registry = s.registry)
    (hl : s.sessions.length ≤ t.sessions.length) : t.Sound where
  kept i stage e hi hke := by
    obtain ⟨c, hc', rfl⟩ := Option.map_eq_some_iff.mp hi
    rw [hc] at hc'
    rcases List.mem_append.mp (List.mem_of_getElem? hc') with hold | hnew
    · obtain ⟨j, hj⟩ := List.mem_iff_getElem?.mp hold
      exact Nat.lt_of_lt_of_le (hs.kept j c.stage e (stage?_eq_of_getElem? hj) hke) hl
    · rw [List.mem_singleton.mp hnew] at hke
      exact hk e hke
  registered p hp := Nat.lt_of_lt_of_le (hs.registered p (hr ▸ hp)) hl

theorem MoveStep.sound (hs : s.Sound) (step : MoveStep setup s m t) : t.Sound := by
  cases step with
  | reader _ step => exact step.sound hs
  | call hc step => exact step.sound hs hc
  | @start p hp =>
    refine hs.start ?_ rfl rfl (Nat.le_refl _)
    intro e hk
    cases p with
    | attach => simp [mayStart] at hp
    | write e' frame =>
      simp only [mayStart, decide_eq_true_eq] at hp
      simp only [Purpose.start, Stage.keeps, beq_iff_eq] at hk
      exact hk ▸ hp
    | close e' =>
      simp only [mayStart, decide_eq_true_eq] at hp
      simp only [Purpose.start, Stage.keeps, List.contains_eq_mem, List.mem_singleton,
        decide_eq_true_eq] at hk
      exact hk ▸ hp
    | forward | login | logout | depart | deliver | teardown | teardownAll =>
      simp [Purpose.start, Stage.keeps] at hk
  | attach =>
    refine hs.start ?_ rfl rfl (by simp [Relay.attach, Relay.start])
    intro e hk
    simp only [Purpose.start, Stage.keeps, beq_iff_eq] at hk
    simp [hk, Relay.attach, Relay.start]
  | refused => exact hs.setStage fun e hk => by simp [Stage.keeps] at hk
  | @connected i p capacity =>
    -- the session has to be there before the call keeps it
    have hs' : (s.openSession p.id capacity).Sound :=
      hs.congr rfl (fun _ hp => hp) (by simp)
    have hkept : ∀ e, (Stage.registering s.sessions.length).keeps e = true →
        e < (s.openSession p.id capacity).sessions.length := by
      intro e hk
      simp only [Stage.keeps, beq_iff_eq] at hk
      simp [hk]
    exact hs'.setStage hkept
  | undialed => exact hs
  | brokerPut | brokerTake | brokerDrop | breakInput | letGo => exact hs.modifySession _
  | receive | dropBus => exact hs.withBus _
  | forget => exact hs.congr rfl (fun _ hp => (List.mem_filter.mp hp).1) (Nat.le_refl _)

/-! ### Sessions never go -/

theorem ReaderStep.length_eq (step : ReaderStep setup s e x t) :
    t.sessions.length = s.sessions.length := by
  cases step with
  | unregister => exact length_modifySession.trans length_modifySession
  | _ => exact length_modifySession

theorem CallStep.length_eq (step : CallStep setup s i c t) :
    t.sessions.length = s.sessions.length := by
  cases step with
  | reject | attach | start | queue | bounce | cut | accept | finish | snap | push | condemn
  | remove | close => exact length_modifySession
  | complete => exact length_modifySession.trans length_modifySession
  | clear => exact length_cancelAll _
  | _ => rfl

/-- A step keeps all sessions, and adds one at most. -/
theorem MoveStep.sessions_grow (step : MoveStep setup s m t) :
    t.sessions.length = s.sessions.length
      ∨ ∃ id capacity, t.sessions = s.sessions ++ [.new id s.nextEpoch capacity] := by
  cases step with
  | reader _ step => exact .inl step.length_eq
  | call _ step => exact .inl step.length_eq
  | attach => exact .inr ⟨_, _, rfl⟩
  | connected => exact .inr ⟨_, _, rfl⟩
  | brokerPut | brokerTake | brokerDrop | breakInput | letGo => exact .inl length_modifySession
  | _ => exact .inl rfl

/-- A session that was not there before a step is new after it. -/
theorem MoveStep.session_new {y : Session} (step : MoveStep setup s m t)
    (hs : s.sessions[e]? = none) (ht : t.sessions[e]? = some y) :
    ∃ id capacity, y = .new id s.nextEpoch capacity := by
  have hlt : e < t.sessions.length := (List.getElem?_eq_some_iff.mp ht).1
  have hle : s.sessions.length ≤ e := List.getElem?_eq_none_iff.mp hs
  rcases step.sessions_grow with heq | ⟨id, capacity, heq⟩
  · exact absurd (heq ▸ hlt) (Nat.not_lt.mpr hle)
  · rw [heq, List.getElem?_append_right hle] at ht
    exact ⟨id, capacity, List.mem_singleton.mp (List.mem_of_getElem? ht)⟩

/-- Of a session that is not there no reader moves. -/
theorem MoveStep.ne_reader (step : MoveStep setup s m t) (hs : s.sessions[e]? = none) :
    m ≠ .act (.reader e) := by
  rintro rfl
  cases step with
  | reader hx =>
    rw [hs] at hx
    cases hx

/-- What holds before a session is there, or of the session once it is, holds in every run if every
step keeps it so. -/
theorem session_of_run {Q : History → Prop} {P : History → Relay → Session → Prop} (nil : Q [])
    (absent : ∀ h s t m, Run setup busCapacity h s → MoveStep setup s m t →
      s.sessions[e]? = none → Q h →
      Q (h ++ [⟨s, m, t⟩]) ∧ ∀ y, t.sessions[e]? = some y → P (h ++ [⟨s, m, t⟩]) t y)
    (present : ∀ h s t m x, Run setup busCapacity h s → MoveStep setup s m t →
      s.sessions[e]? = some x → P h s x →
      ∃ y, t.sessions[e]? = some y ∧ P (h ++ [⟨s, m, t⟩]) t y)
    (run : Run setup busCapacity h s) :
    (s.sessions[e]? = none → Q h) ∧ ∀ x, s.sessions[e]? = some x → P h s x := by
  induction run with
  | nil => exact ⟨fun _ => nil, fun x hx => by simp [Relay.empty] at hx⟩
  | @snoc h s t m run hm ih =>
    have step := run.moveStep hm
    cases hx : s.sessions[e]? with
    | none =>
      obtain ⟨hq, hp⟩ := absent h s t m run step hx (ih.1 hx)
      exact ⟨fun _ => hq, hp⟩
    | some x =>
      obtain ⟨y, hy, hp⟩ := present h s t m x run step hx (ih.2 x hx)
      refine ⟨fun hnone => by simp [hy] at hnone, fun z hz => ?_⟩
      rw [hy, Option.some.injEq] at hz
      exact hz ▸ hp

/-- Every state of every run is sound. -/
theorem sound_of_run (run : Run setup busCapacity h s) : s.Sound := by
  induction run with
  | nil => exact .empty
  | snoc run hm ih => exact (run.moveStep hm).sound ih

end Relay

end StompRelay
