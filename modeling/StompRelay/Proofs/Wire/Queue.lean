import StompRelay.Proofs.Wire.Writes
/-!
# The queue of writers

The calls that wait to write to a session, or write to it, are those in its queue, and only the
first of them writes. The log of the writes to the session tells the same.

## Main definitions

* `Relay.Queued` — the queue of a session agrees with the stages of all calls and with a log

## Main results

* `Relay.Queued.step` — every step keeps it so
-/

namespace StompRelay

namespace Stage

/-- Whether a call has asked for its turn to write, and cannot ask again. -/
def hasAsked : Stage → Bool
  | waiting _ _ | writing _ _ | failing _ _ | removing _ _ _ | closing _ _ _ | done _ => true
  | _ => false

theorem Next.hasAsked {codec : Codec} {p : Purpose} {old new : Stage}
    (hnext : Stage.Next codec p old new)
    (h : old.hasAsked = true) : new.hasAsked = true := by
  cases hnew : new.wrapsUp with
  | true => cases new <;> first | rfl | cases hnew
  | false =>
    cases hnext.advance hnew with
    | turn | write => rfl
    | _ => cases h

end Stage

namespace Relay

variable {setup : Setup} {s t : Relay} {m : Move} {e : Place} {i : CallId} {x y : Session}
  {ws : List WriteEvent} {event : Option WriteEvent} {stage : Stage} {frame rest : Bytes}

/-- The queue of session `e`, which is `x`, agrees with the stages of all calls and with a log of
the writes to the session. -/
structure Queued (s : Relay) (e : Place) (x : Session) (ws : List WriteEvent) : Prop where
  log : WriteLog ws x.writers
  asked : ∀ i frame, (i, frame) ∈ queuedWrites ws →
    ∃ stage, s.stage? i = some stage ∧ stage.hasAsked = true
  mem : ∀ i, i ∈ x.writers ↔ ∃ stage, s.stage? i = some stage ∧ stage.writesTo e = true
  /-- Only the first writes. -/
  head : ∀ i rest, s.stage? i = some (.writing e rest) → x.writers.head? = some i
  frame : ∀ i frame, s.stage? i = some (.waiting e frame) → (i, frame) ∈ queuedWrites ws

namespace Queued

/-- A call that is about to ask has not queued. -/
theorem not_queued (hq : Queued s e x ws) (hi : s.stage? i = some stage)
    (ha : stage.hasAsked = false) (frame : Bytes) : (i, frame) ∉ queuedWrites ws := by
  intro hmem
  obtain ⟨stage', hi', ha'⟩ := hq.asked i frame hmem
  rw [hi, Option.some.injEq] at hi'
  subst hi'
  exact Bool.false_ne_true (ha.symm.trans ha')

/-- The call that writes is the first in the queue. -/
theorem eq_cons (hq : Queued s e x ws) (hi : s.stage? i = some (.writing e rest)) :
    ∃ writers, x.writers = i :: writers :=
  List.head?_eq_some_iff.mp (hq.head i rest hi)

/-- A call that writes to the session, or waits and has its turn, is the first in the queue. -/
theorem head_of_writesTo (hq : Queued s e x ws) (hi : s.stage? i = some stage)
    (hw : stage.writesTo e = true)
    (hwaiting : ∀ frame, stage = .waiting e frame → x.writers.head? = some i) :
    x.writers.head? = some i := by
  cases stage with
  | waiting e' frame =>
    obtain rfl : e' = e := by simpa [Stage.writesTo] using hw
    exact hwaiting frame rfl
  | writing e' rest =>
    obtain rfl : e' = e := by simpa [Stage.writesTo] using hw
    exact hq.head i rest hi
  | _ => cases hw

theorem asked_step (hq : Queued s e x ws) (step : MoveStep setup s m t)
    (hi : (i, frame) ∈ queuedWrites ws) :
    ∃ stage, t.stage? i = some stage ∧ stage.hasAsked = true := by
  obtain ⟨stage, hs, ha⟩ := hq.asked i frame hi
  obtain ⟨c, hc, rfl⟩ := Option.map_eq_some_iff.mp hs
  obtain ⟨d, hd, -, heq | hnext⟩ := step.call_after hc
  · exact ⟨d.stage, stage?_eq_of_getElem? hd, heq ▸ ha⟩
  · exact ⟨d.stage, stage?_eq_of_getElem? hd, hnext.hasAsked ha⟩

/-- Nothing is written, or a call that writes to the session goes on doing so. -/
theorem stay (hq : Queued s e x ws) (step : MoveStep setup s m t)
    (hwriters : y.writers = x.writers)
    (hmem : ∀ i, (∃ stage, t.stage? i = some stage ∧ stage.writesTo e = true)
      ↔ ∃ stage, s.stage? i = some stage ∧ stage.writesTo e = true)
    (hhead : ∀ i rest, t.stage? i = some (.writing e rest) → x.writers.head? = some i)
    (hframe : ∀ i frame, t.stage? i = some (.waiting e frame) →
      s.stage? i = some (.waiting e frame)) :
    Queued t e y ws where
  log := hwriters ▸ hq.log
  asked _ _ hi := hq.asked_step step hi
  mem i := by rw [hwriters, hq.mem, hmem]
  head i rest hi := hwriters ▸ hhead i rest hi
  frame i frame hi := hq.frame i frame (hframe i frame hi)

/-- The first writer returns. -/
theorem leave {fault : Option WriteFault} {new : Stage} (hq : Queued s e x ws)
    (step : MoveStep setup s m t) (hhead : x.writers.head? = some i)
    (hwriters : y.writers = x.writers.filter (· ≠ i)) (hnew : t.stage? i = some new)
    (hw : new.writesTo e = false) (others : ∀ j, i ≠ j → t.stage? j = s.stage? j) :
    Queued t e y (ws ++ [.returned i fault]) := by
  obtain ⟨writers, heq⟩ := List.head?_eq_some_iff.mp hhead
  have hn : (i :: writers).Nodup := heq ▸ hq.log.nodup_writers
  -- no call is in the queue twice, so the others stay as they are
  have hy : y.writers = writers := by
    rw [hwriters, heq, List.filter_cons_of_neg (by simp)]
    apply List.filter_eq_self.mpr
    intro j hj
    simpa using fun h : j = i => (List.nodup_cons.mp hn).1 (h ▸ hj)
  -- a call that still waits or writes is another one
  have ne {j : CallId} {stage : Stage} (hj : t.stage? j = some stage)
      (hs : stage.writesTo e = true) : i ≠ j := by
    rintro rfl
    rw [hnew, Option.some.injEq] at hj
    subst hj
    exact Bool.false_ne_true (hw.symm.trans hs)
  refine ⟨hy ▸ (heq ▸ hq.log).leave, ?_, ?_, ?_,
    ?_⟩
  · intro j frame hj
    exact hq.asked_step step (by simpa using hj)
  · intro j
    rw [hy]
    constructor
    · intro hj
      have hne : i ≠ j := fun h => (List.nodup_cons.mp hn).1 (h ▸ hj)
      rw [others j hne]
      exact (hq.mem j).mp (heq ▸ List.mem_cons_of_mem _ hj)
    · rintro ⟨stage, hj, hs⟩
      have hne : i ≠ j := ne hj hs
      rw [others j hne] at hj
      have hmem : j ∈ i :: writers := heq ▸ (hq.mem j).mpr ⟨stage, hj, hs⟩
      exact (List.mem_cons.mp hmem).resolve_left hne.symm
  · intro j rest hj
    have hne : i ≠ j := ne hj (by simp [Stage.writesTo])
    rw [others j hne] at hj
    -- only the first writer could have been writing
    have hij := hhead.symm.trans (hq.head j rest hj)
    exact absurd (Option.some.inj hij) hne
  · intro j frame hj
    have hne : i ≠ j := ne hj (by simp [Stage.writesTo])
    rw [others j hne] at hj
    rw [queuedWrites_return]
    exact hq.frame j frame hj

/-- A write queues. -/
theorem queue (hq : Queued s e x ws) (step : MoveStep setup s m t)
    (hold : s.stage? i = some (.asking e frame)) (hnew : t.stage? i = some (.waiting e frame))
    (others : ∀ j, i ≠ j → t.stage? j = s.stage? j) (hy : y.writers = x.writers ++ [i]) :
    Queued t e y (ws ++ [.queued i frame]) where
  log := hy ▸ hq.log.queue (hq.not_queued hold rfl)
  asked j bs hj := by
    rw [queuedWrites_queue] at hj
    rcases List.mem_append.mp hj with hj | hj
    · exact hq.asked_step step hj
    · cases List.mem_singleton.mp hj
      exact ⟨_, hnew, rfl⟩
  mem j := by
    rw [hy, List.mem_append, List.mem_singleton]
    by_cases hij : i = j
    · subst hij
      exact iff_of_true (.inr rfl) ⟨_, hnew, by simp [Stage.writesTo]⟩
    · rw [others j hij, ← hq.mem]
      simp [Ne.symm hij]
  head j rest hj := by
    have hij : i ≠ j := by
      rintro rfl
      rw [hnew] at hj
      cases hj
    rw [others j hij] at hj
    rw [hy, List.head?_append, hq.head j rest hj, Option.some_or]
  frame j bs hj := by
    rw [queuedWrites_queue]
    by_cases hij : i = j
    · subst hij
      rw [hnew] at hj
      cases hj
      exact List.mem_append_right _ List.mem_cons_self
    · rw [others j hij] at hj
      exact List.mem_append_left _ (hq.frame j bs hj)

/-- A call that writes to the session, or waits to, goes on writing. -/
theorem go {old : Stage} (hq : Queued s e x ws) (step : MoveStep setup s m t)
    (hold : s.stage? i = some old) (hw : old.writesTo e = true)
    (hnew : t.stage? i = some (.writing e rest)) (others : ∀ j, i ≠ j → t.stage? j = s.stage? j)
    (hhead : x.writers.head? = some i) (hy : y.writers = x.writers) : Queued t e y ws := by
  refine hq.stay step hy ?_ ?_ ?_
  · intro j
    by_cases hij : i = j
    · subst hij
      exact iff_of_true ⟨_, hnew, by simp [Stage.writesTo]⟩ ⟨_, hold, hw⟩
    · rw [others j hij]
  · intro j bs hj
    by_cases hij : i = j
    · exact hij ▸ hhead
    · exact hq.head j bs (others j hij ▸ hj)
  · intro j bs hj
    have hij : i ≠ j := by
      rintro rfl
      rw [hnew] at hj
      cases hj
    exact others j hij ▸ hj

/-- Every step keeps the queue of a session in agreement with the stages and the log. -/
theorem step (hq : Queued s e x ws) (step : MoveStep setup s m t)
    (wire : WireStep e s t x y event) : Queued t e y (ws ++ event.toList) := by
  cases wire with
  | rest same stages =>
    rw [Option.toList_none, List.append_nil]
    refine hq.stay step same.writers ?_ ?_ ?_
    · intro j
      exact exists_congr fun stage => and_congr_left fun hw => stages j stage hw
    · intro j bs hj
      exact hq.head j bs ((stages j _ (by simp [Stage.writesTo])).mp hj)
    · intro j bs hj
      exact (stages j _ (by simp [Stage.writesTo])).mp hj
  | queue hold hnew others hy => exact hq.queue step hold hnew others (by rw [hy])
  | turn hold hnew others hhead hy =>
    rw [Option.toList_none, List.append_nil]
    exact hq.go step hold (by simp [Stage.writesTo]) hnew others hhead (by rw [hy])
  | advance hold hnew others _ _ _ _ _ hy =>
    rw [Option.toList_none, List.append_nil]
    exact hq.go step hold (by simp [Stage.writesTo]) hnew others (hq.head _ _ hold) hy
  | finish hold hnew others _ _ _ _ hy =>
    exact hq.leave step (hq.head _ _ hold) hy hnew (Stage.writesTo_conclude _) others
  | fail hold hold' hnew others _ hhead hy =>
    exact hq.leave step (hq.head_of_writesTo hold hold' hhead) (by rw [hy]; rfl) hnew
      Stage.writesTo_afterBreak others

end Queued

end Relay

end StompRelay
