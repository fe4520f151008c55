import StompRelay.Proofs.Wire.Written
/-!
# The calls behind the writes

A write belongs to a call: its frame is what the call was asked to write, or the bytes of its
message, and if the write succeeds the call does not fail any more.

## Main definitions

* `Purpose.Writes` — the frames that a call may write
* `Stage.succeeds` — the stages of a call whose write has succeeded

## Main results

* `Relay.writes_of_queued` — every write is the write of such a frame
* `Relay.stage_of_returned` — what is known of a call whose write has returned
* `Relay.outcome_of_returned` — a call whose write succeeded ends well
-/

namespace StompRelay

/-- The frames that a call with the given purpose may write to a session. -/
def Purpose.Writes (codec : Codec) (e : Place) (frame : Bytes) (p : Purpose) : Prop :=
  p = .write e frame ∨ ∃ m c, p.sends? = some (m, c) ∧ codec.encode m c = .ok frame

namespace Stage

variable {codec : Codec} {p : Purpose} {e : Place} {i j : CallId} {frame : Bytes}
  {old new : Stage}

/-- A stage at which a call asks for its turn only to write a frame of its own. -/
def Asks (codec : Codec) (p : Purpose) (stage : Stage) : Prop :=
  ∀ e frame, stage = .asking e frame → p.Writes codec e frame

theorem asks_start (p : Purpose) (n : Place) : (p.start n).Asks codec p := by
  intro e frame heq
  cases p with
  | write e' frame' =>
    cases heq
    exact .inl rfl
  | _ => cases heq

theorem asks_of_next (hnext : Stage.Next codec p old new) : new.Asks codec p := by
  intro e frame heq
  subst heq
  cases hnext.advance rfl with
  | encode hm hf => exact .inr ⟨_, _, hm, hf⟩

/-- Whether a call whose write has succeeded may be here: it has ended well, or is about to. -/
def succeeds : Stage → Bool
  | done o => o = .ok
  | removing _ found missed => found = .ok ∧ missed = .ok
  | closing _ o final => o = .ok ∧ final
  | _ => false

theorem succeeds_conclude : (p.conclude .ok).succeeds = true := by
  cases p <;> simp [Purpose.conclude, succeeds]

/-- A call whose write has succeeded does not fail any more. -/
theorem Next.succeeds (hnext : Stage.Next codec p old new) (h : old.succeeds = true) :
    new.succeeds = true := by
  cases hnext with
  | remove | pass | close | leave => simp_all [Stage.succeeds]
  | _ => cases h

/-- A write queues when its call asks for its turn. -/
theorem eq_of_write?_queued (h : old.write? e i new = some (.queued j frame)) :
    j = i ∧ old = .asking e frame := by
  cases old <;> simp_all [write?]

/-- A write returns when its call stops writing, with the fault that is seen then. -/
theorem of_write?_returned {fault : Option WriteFault}
    (h : old.write? e i new = some (.returned j fault)) :
    j = i ∧ old.writesTo e = true ∧ new.writesTo e = false ∧ new.fault? = fault := by
  cases old with
  | waiting e' | writing e' =>
    obtain ⟨⟨he, hnew⟩, heq⟩ := Option.ite_none_right_eq_some.mp h
    cases heq
    exact ⟨rfl, beq_iff_eq.mpr he, hnew, rfl⟩
  | asking e' =>
    obtain ⟨-, heq⟩ := Option.ite_none_right_eq_some.mp h
    cases heq
  | _ => cases h

/-- A write succeeds when its call goes on to conclude. -/
theorem Next.eq_conclude (hnext : Stage.Next codec p old new) (hold : old.writesTo e = true)
    (hnew : new.writesTo e = false) (hf : new.fault? = none) : new = p.conclude .ok := by
  cases hnext with
  | finish => rfl
  | bounce | «break» =>
    rw [fault?_afterBreak] at hf
    cases hf
  | turn | write => exact absurd (hold.symm.trans hnew) (by simp)
  | _ => cases hold

end Stage

namespace Relay

variable {setup : Setup} {busCapacity : Nat} {s t : Relay} {h : History} {m : Move} {e : Place}
  {i : CallId} {frame : Bytes} {event : WriteEvent} {o : Outcome}

/-- What a step does with a write is done by a call. -/
theorem MoveStep.exists_of_write? (step : MoveStep setup s m t)
    (hw : Transition.write? e ⟨s, m, t⟩ = some event) :
    ∃ (i : CallId) (c d : Call), s.calls[i]? = some c ∧ t.calls[i]? = some d ∧ d.purpose = c.purpose
      ∧ Stage.Next setup.codec c.purpose c.stage d.stage
      ∧ c.stage.write? e i d.stage = some event := by
  cases step with
  | @call i c _ hc step =>
    obtain ⟨new, heq, hnext⟩ := step.calls_eq
    have hd : t.calls[i]? = some { c with stage := new } := by
      rw [heq, getElem?_setStage, if_pos rfl, hc, Option.map_some]
    rw [Transition.write?_call (stage?_eq_of_getElem? hc) (stage?_eq_of_getElem? hd)] at hw
    exact ⟨i, c, _, hc, hd, rfl, hnext, hw⟩
  | _ => simp [Transition.write?] at hw

/-- Every write is the write of a frame of its call. -/
theorem writes_of_queued (run : Run setup busCapacity h s)
    (hi : (i, frame) ∈ queuedWrites (writes e h)) :
    ∃ c, s.calls[i]? = some c ∧ c.purpose.Writes setup.codec e frame := by
  induction run with
  | nil => cases hi
  | @snoc h s t m run hm ih =>
    have step := run.moveStep hm
    rw [writes_snoc, queuedWrites, List.filterMap_append, List.mem_append] at hi
    rcases hi with hi | hi
    · obtain ⟨c, hc, hframe⟩ := ih hi
      obtain ⟨d, hd, hpurpose, -⟩ := step.call_after hc
      exact ⟨d, hd, hpurpose ▸ hframe⟩
    · obtain ⟨event, hevent, hqueued⟩ := List.mem_filterMap.mp hi
      obtain ⟨j, c, d, hc, hd, hpurpose, -, hw⟩ :=
        step.exists_of_write? (Option.mem_toList.mp hevent)
      cases event with
      | returned => cases hqueued
      | queued =>
        cases hqueued
        obtain ⟨rfl, hstage⟩ := Stage.eq_of_write?_queued hw
        -- the frame was fixed when the call came to ask, which only a call with that frame does
        refine ⟨d, hd, hpurpose ▸ ?_⟩
        exact stage_of_run (P := Stage.Asks setup.codec) Stage.asks_start
          (fun _ _ _ _ => Stage.asks_of_next) run hc e frame hstage

/-- What a call comes to as its write returns, and keeps along the arrows, holds of it ever
after. -/
theorem stage_of_returned {fault : Option WriteFault} {P : Purpose → Stage → Prop}
    (arrives : ∀ p old new, Stage.Next setup.codec p old new → old.writesTo e = true →
      new.writesTo e = false → new.fault? = fault → P p new)
    (keeps : ∀ p old new, P p old → Stage.Next setup.codec p old new → P p new)
    (run : Run setup busCapacity h s) (hr : .returned i fault ∈ writes e h) :
    ∃ c, s.calls[i]? = some c ∧ P c.purpose c.stage := by
  induction run with
  | nil => cases hr
  | @snoc h s t m run hm ih =>
    have step := run.moveStep hm
    rw [writes_snoc, List.mem_append] at hr
    rcases hr with hr | hr
    · obtain ⟨c, hc, hp⟩ := ih hr
      obtain ⟨d, hd, hpurpose, heq | hnext⟩ := step.call_after hc
      · exact ⟨d, hd, hpurpose ▸ heq ▸ hp⟩
      · exact ⟨d, hd, hpurpose ▸ keeps _ _ _ hp hnext⟩
    · obtain ⟨j, c, d, hc, hd, hpurpose, hnext, hw⟩ :=
        step.exists_of_write? (Option.mem_toList.mp hr)
      obtain ⟨rfl, hold, hnew, hfault⟩ := Stage.of_write?_returned hw
      exact ⟨d, hd, hpurpose ▸ arrives _ _ _ hnext hold hnew hfault⟩

/-- A call whose write succeeded does not fail any more. -/
theorem succeeds_of_returned (run : Run setup busCapacity h s)
    (hr : .returned i none ∈ writes e h) :
    ∃ c, s.calls[i]? = some c ∧ c.stage.succeeds = true := by
  refine stage_of_returned (P := fun _ stage => stage.succeeds = true) ?_ ?_ run hr
  · intro p old new hnext hold hnew hfault
    rw [hnext.eq_conclude hold hnew hfault]
    exact Stage.succeeds_conclude
  · intro p old new hs hnext
    exact hnext.succeeds hs

/-- A call whose write succeeded ends well, if it ends. -/
theorem outcome_of_returned (run : Run setup busCapacity h s)
    (hr : .returned i none ∈ writes e h) (ho : s.outcome? i = some o) : o = .ok := by
  obtain ⟨c, hc, hs⟩ := succeeds_of_returned run hr
  rw [(outcome?_eq_some_iff hc).mp ho] at hs
  simpa [Stage.succeeds] using hs

end Relay

end StompRelay
