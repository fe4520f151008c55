import Mathlib.Data.List.Nodup
import StompRelay.Relay.Call
/-!
# Logs of writes

What happens to the writes to one session, in order: they queue for their turn, and they return.
Writes return in the order in which they queued.

## Main definitions

* `WriteEvent` — what happens to a write
* `queuedWrites`, `writtenFrames` — all writes, and what was written by those that succeeded
* `WriteLog` — the logs that leave the given queue of writers behind

## Main results

* `WriteLog.queue`, `WriteLog.leave` — how a log goes on
* `WriteLog.written_queue`, `WriteLog.written_fail`, `WriteLog.written_finish` — what has been
  written then
-/

namespace StompRelay

/-- What happens to a write. -/
inductive WriteEvent where
  /-- A call queues for its turn to write a frame. -/
  | queued (i : CallId) (frame : Bytes)
  /-- The write of a call returns, with a fault or with none. -/
  | returned (i : CallId) (fault : Option WriteFault)
  deriving DecidableEq, Repr

namespace WriteEvent

/-- The write that queues. -/
def queued? : WriteEvent → Option (CallId × Bytes)
  | queued i frame => some (i, frame)
  | returned _ _ => none

/-- The write that returns. -/
def returned? : WriteEvent → Option CallId
  | queued _ _ => none
  | returned i _ => some i

end WriteEvent

/-- The writes, in the order in which they queued. -/
def queuedWrites (ws : List WriteEvent) : List (CallId × Bytes) := ws.filterMap WriteEvent.queued?

/-- The writes that returned, in order. -/
def returnedWrites (ws : List WriteEvent) : List CallId := ws.filterMap WriteEvent.returned?

/-- The frames whose writes returned without a fault, in the order in which they queued. -/
def writtenFrames (ws : List WriteEvent) : List Bytes :=
  ((queuedWrites ws).filter fun q => .returned q.1 none ∈ ws).map Prod.snd

/-- The logs of writes of which those of the given writers have not returned: writes return in the
order in which they queued, and no call queues twice. -/
structure WriteLog (ws : List WriteEvent) (writers : List CallId) : Prop where
  split : ∃ past pending, queuedWrites ws = past ++ pending
    ∧ pending.map Prod.fst = writers ∧ returnedWrites ws = past.map Prod.fst
  nodup : ((queuedWrites ws).map Prod.fst).Nodup

section Logs

variable {ws : List WriteEvent} {writers : List CallId} {i : CallId} {frame frame' : Bytes}
  {f : Option WriteFault}

@[simp] theorem queuedWrites_queue :
    queuedWrites (ws ++ [.queued i frame]) = queuedWrites ws ++ [(i, frame)] := by
  simp [queuedWrites, WriteEvent.queued?]

@[simp] theorem queuedWrites_return :
    queuedWrites (ws ++ [.returned i f]) = queuedWrites ws := by
  simp [queuedWrites, WriteEvent.queued?]

@[simp] theorem returnedWrites_queue :
    returnedWrites (ws ++ [.queued i frame]) = returnedWrites ws := by
  simp [returnedWrites, WriteEvent.returned?]

@[simp] theorem returnedWrites_return :
    returnedWrites (ws ++ [.returned i f]) = returnedWrites ws ++ [i] := by
  simp [returnedWrites, WriteEvent.returned?]

theorem mem_returnedWrites (h : .returned i f ∈ ws) : i ∈ returnedWrites ws :=
  List.mem_filterMap.mpr ⟨_, h, rfl⟩

/-- A write that returns with a fault has not written its frame. -/
theorem written_fail {f : WriteFault} :
    writtenFrames (ws ++ [.returned i (some f)]) = writtenFrames ws := by
  simp [writtenFrames]

namespace WriteLog

theorem nil : WriteLog [] [] := ⟨⟨[], [], rfl, rfl, rfl⟩, List.nodup_nil⟩

/-- The writers of a log have queued. -/
theorem exists_queued (h : WriteLog ws writers) (hi : i ∈ writers) :
    ∃ frame, (i, frame) ∈ queuedWrites ws := by
  obtain ⟨past, pending, hq, rfl, -⟩ := h.split
  obtain ⟨q, hq', rfl⟩ := List.mem_map.mp hi
  exact ⟨q.2, hq ▸ List.mem_append_right _ hq'⟩

/-- The writes that have returned have queued. -/
theorem exists_queued_of_returned (h : WriteLog ws writers) (hr : .returned i f ∈ ws) :
    ∃ frame, (i, frame) ∈ queuedWrites ws := by
  obtain ⟨past, pending, hq, -, hpast⟩ := h.split
  obtain ⟨q, hq', rfl⟩ := List.mem_map.mp (hpast ▸ mem_returnedWrites hr)
  exact ⟨q.2, hq ▸ List.mem_append_left _ hq'⟩

theorem nodup_writers (h : WriteLog ws writers) : writers.Nodup := by
  obtain ⟨past, pending, hq, rfl, -⟩ := h.split
  have hn := h.nodup
  rw [hq, List.map_append] at hn
  exact hn.of_append_right

/-- The writers of a log have not returned. -/
theorem not_returned (h : WriteLog ws writers) (hi : i ∈ writers) : .returned i f ∉ ws := by
  intro hr
  obtain ⟨past, pending, hq, rfl, hpast⟩ := h.split
  have hn := h.nodup
  rw [hq, List.map_append, ← hpast] at hn
  exact List.disjoint_of_nodup_append hn (mem_returnedWrites hr) hi

/-- A write returns only after it has queued, so it is no writer any more or has not returned. -/
theorem returned_or_mem (h : WriteLog ws writers) (hi : (i, frame) ∈ queuedWrites ws) :
    (∃ f, .returned i f ∈ ws) ∨ i ∈ writers := by
  obtain ⟨past, pending, hq, rfl, hpast⟩ := h.split
  rw [hq] at hi
  rcases List.mem_append.mp hi with hi | hi
  · have hr : i ∈ returnedWrites ws := hpast ▸ List.mem_map_of_mem hi
    obtain ⟨event, hevent, heq⟩ := List.mem_filterMap.mp hr
    cases event with
    | queued => cases heq
    | returned j f =>
      cases heq
      exact .inl ⟨f, hevent⟩
  · exact .inr (List.mem_map_of_mem hi)

/-- A write is the write of one frame. -/
theorem frame_unique (h : WriteLog ws writers) (hi : (i, frame) ∈ queuedWrites ws)
    (hi' : (i, frame') ∈ queuedWrites ws) : frame = frame' :=
  congrArg Prod.snd (List.inj_on_of_nodup_map h.nodup hi hi' rfl)

/-- A write that queued did so once. -/
theorem filter_eq (h : WriteLog ws writers) (hi : (i, frame) ∈ queuedWrites ws) :
    (queuedWrites ws).filter (fun q => q.1 = i) = [(i, frame)] := by
  obtain ⟨before, after, heq⟩ := List.append_of_mem hi
  have hn := h.nodup
  rw [heq, List.map_append, List.map_cons, List.nodup_append, List.nodup_cons] at hn
  obtain ⟨-, ⟨hafter, -⟩, hbefore⟩ := hn
  have hb : before.filter (fun q => q.1 = i) = [] := by
    refine List.filter_eq_nil_iff.mpr fun q hq => ?_
    simpa using hbefore q.1 (List.mem_map_of_mem hq) i List.mem_cons_self
  have ha : after.filter (fun q => q.1 = i) = [] := by
    refine List.filter_eq_nil_iff.mpr fun q hq => ?_
    simpa using fun heq : q.1 = i => hafter (List.mem_map.mpr ⟨q, hq, heq⟩)
  rw [heq, List.filter_append, List.filter_cons_of_pos (by simp), hb, ha, List.nil_append]

/-- A write queues. -/
theorem queue (h : WriteLog ws writers) (hi : ∀ frame, (i, frame) ∉ queuedWrites ws) :
    WriteLog (ws ++ [.queued i frame]) (writers ++ [i]) where
  split := by
    obtain ⟨past, pending, hq, rfl, hpast⟩ := h.split
    exact ⟨past, pending ++ [(i, frame)], by simp [hq], by simp, by simp [hpast]⟩
  nodup := by
    rw [queuedWrites_queue, List.map_append, List.nodup_append]
    refine ⟨h.nodup, by simp, ?_⟩
    rintro j hj k hk rfl
    obtain rfl : j = i := by simpa using hk
    obtain ⟨q, hq, rfl⟩ := List.mem_map.mp hj
    exact hi q.2 hq

/-- The first writer returns. -/
theorem leave (h : WriteLog ws (i :: writers)) : WriteLog (ws ++ [.returned i f]) writers where
  split := by
    obtain ⟨past, pending, hq, hw, hpast⟩ := h.split
    cases pending with
    | nil => cases hw
    | cons q pending =>
      obtain ⟨rfl, rfl⟩ : q.1 = i ∧ pending.map Prod.fst = writers := by simpa using hw
      exact ⟨past ++ [q], pending, by simp [hq], rfl, by simp [hpast]⟩
  nodup := by simpa using h.nodup

/-- A write that queues has not written its frame. -/
theorem written_queue (h : WriteLog ws writers) (hi : ∀ frame, (i, frame) ∉ queuedWrites ws) :
    writtenFrames (ws ++ [.queued i frame]) = writtenFrames ws := by
  have hr : .returned i none ∉ ws := by
    intro hr
    obtain ⟨frame, hq⟩ := h.exists_queued_of_returned hr
    exact hi frame hq
  simp [writtenFrames, List.filter_append, hr]

/-- The first writer returns without a fault: its frame is the last that was written. -/
theorem written_finish (h : WriteLog ws (i :: writers)) (hi : (i, frame) ∈ queuedWrites ws) :
    writtenFrames (ws ++ [.returned i none]) = writtenFrames ws ++ [frame] := by
  obtain ⟨past, pending, hq, hw, hpast⟩ := h.split
  cases pending with
  | nil => cases hw
  | cons q pending =>
    obtain ⟨rfl, rfl⟩ : q.1 = i ∧ pending.map Prod.fst = writers := by simpa using hw
    obtain rfl : q.2 = frame :=
      h.frame_unique (hq ▸ List.mem_append_right _ List.mem_cons_self) hi
    have hn := h.nodup
    rw [hq, List.map_append, List.map_cons, List.nodup_append, List.nodup_cons] at hn
    -- writes before it are judged as before, and writes after it have not returned
    have before : past.filter (fun p => .returned p.1 none ∈ ws ++ [.returned q.1 none])
        = past.filter fun p => .returned p.1 none ∈ ws := by
      apply List.filter_congr
      intro p hp
      have hne : p.1 ≠ q.1 := hn.2.2 _ (List.mem_map_of_mem hp) _ List.mem_cons_self
      simp [hne]
    have after (p : CallId × Bytes) (hp : p ∈ pending) :
        .returned p.1 none ∉ ws ∧ p.1 ≠ q.1 := by
      refine ⟨h.not_returned (List.mem_cons_of_mem _ (List.mem_map_of_mem hp)), ?_⟩
      intro heq
      exact hn.2.1.1 (heq ▸ List.mem_map_of_mem hp)
    have none_new : pending.filter (fun p => .returned p.1 none ∈ ws ++ [.returned q.1 none])
        = [] := by
      apply List.filter_eq_nil_iff.mpr
      intro p hp
      simp [after p hp]
    have none_old : pending.filter (fun p => .returned p.1 none ∈ ws) = [] := by
      apply List.filter_eq_nil_iff.mpr
      intro p hp
      simp [after p hp]
    have own : .returned q.1 none ∉ ws := h.not_returned List.mem_cons_self
    rw [writtenFrames, queuedWrites_return, writtenFrames, hq, List.filter_append,
      List.filter_append, before, List.filter_cons_of_pos (by simp),
      List.filter_cons_of_neg (by simpa using own), none_new, none_old]
    simp

end WriteLog

end Logs

end StompRelay
