import StompRelay.Proofs.Rest
import StompRelay.Proofs.Wire.Calls
import StompRelay.Proofs.Wire.Terminator
/-!
# The integrity of the wire

However writes, closes and the broker's reads come about, the bytes that a session has put into the
connection are whole frames and the start of at most one more, and once something has gone wrong
nothing follows.

## Main results

* `Relay.WireStep.silent`, `Relay.silent_of_path` — nothing is written to a dead session
* `Relay.Quiet.heads_eq_false` — a dead session keeps no writer waiting
* `Relay.splitOn_sent` — the broker sees the terminators of whole frames only
* `Relay.wire_integrity` — what the broker gets to see of the writes to a session
-/

namespace StompRelay.Relay

variable {setup : Setup} {busCapacity : Nat} {s t : Relay} {h k : History} {e : Place}
  {i : CallId} {c : Call} {x y : Session} {ws : List WriteEvent} {event : Option WriteEvent}
  {frame : Bytes} {stage : Stage}

/-! ### Silence -/

/-- Nothing is written to a dead session, and no write of any bytes to it succeeds. -/
theorem WireStep.silent (hq : Queued s e x ws) (hw : Written s e x ws) (hd : x.Dead)
    (wire : WireStep e s t x y event) :
    y.Dead ∧ y.toBroker.sent = x.toBroker.sent
      ∧ ∀ i frame, event = some (.returned i none) → (i, frame) ∈ queuedWrites ws →
        frame = [] := by
  cases wire with
  | rest same => exact ⟨hd.imp same.closed same.gone, same.sent, by simp⟩
  | queue _ _ _ hy =>
    subst hy
    exact ⟨hd, rfl, by simp⟩
  | turn _ _ _ _ hy =>
    subst hy
    exact ⟨hd, rfl, by simp⟩
  | @advance _ _ _ bs _ _ _ hopen hput _ _ hsent _ hclosed _ hgone =>
    have hbs : bs = [] := hd.eq_nil hopen hput
    exact ⟨(Session.dead_congr hclosed hgone).mpr hd, by rw [hsent, hbs, List.append_nil], by simp⟩
  | @finish _ rest _ hold _ _ hopen hput _ hsent _ hclosed _ hgone =>
    have hnil : x.unsent ++ rest = [] := hd.eq_nil hopen hput
    refine ⟨(Session.dead_congr hclosed hgone).mpr hd, by rw [hsent, hnil, List.append_nil], ?_⟩
    intro j frame heq hj
    cases heq
    by_contra hne
    exact hw.left _ _ frame hold hj hne hnil
  | fail _ _ _ _ _ _ hy =>
    subst hy
    exact ⟨hd, rfl, by simp⟩

/-- A log only grows. -/
theorem queuedWrites_subset (ws ws' : List WriteEvent) :
    queuedWrites ws ⊆ queuedWrites (ws ++ ws') := by
  rw [queuedWrites, queuedWrites, List.filterMap_append]
  exact List.subset_append_left _ _

/-- Once a session is dead, nothing is written to it on any path, and no write of any bytes to it
succeeds. -/
theorem silent_of_path (run : Run setup busCapacity h s) (hx : s.sessions[e]? = some x)
    (hd : x.Dead) (path : Path setup s k t) :
    ∃ y, t.sessions[e]? = some y ∧ y.Dead ∧ y.toBroker.sent = x.toBroker.sent
      ∧ ∀ i frame, .returned i none ∈ writes e k →
        (i, frame) ∈ queuedWrites (writes e (h ++ k)) → frame = [] := by
  -- by induction on the path after the session has died; what a write queued with is in the log of
  -- the whole history, so the invariants are those of the run and the path together
  induction path with
  | nil => exact ⟨x, hx, hd, rfl, fun i frame hr => by cases hr⟩
  | @snoc k t u m path hm ih =>
    obtain ⟨y, hy, hdy, hsent, hnone⟩ := ih
    obtain ⟨hq, hw⟩ := (wired_of_run (run.append path) e).2 y hy
    have step := (run.append path).moveStep hm
    obtain ⟨z, hz, wire⟩ := step.wireStep hy
    obtain ⟨hdz, hsent', hnone'⟩ := wire.silent hq hw hdy
    refine ⟨z, hz, hdz, hsent'.trans hsent, ?_⟩
    intro i frame hr hi
    have hq' := hq.step step wire
    rw [← List.append_assoc, writes_snoc] at hi
    -- a write that has returned has queued before
    have queued {frame' : Bytes} (hi' : (i, frame') ∈ queuedWrites (writes e (h ++ k))) :
        frame' = frame :=
      hq'.log.frame_unique (queuedWrites_subset _ _ hi') hi
    rw [writes_snoc, List.mem_append] at hr
    rcases hr with hr | hr
    · obtain ⟨frame', hi'⟩ := hq.log.exists_queued_of_returned
        (writes_append (e := e) h k ▸ List.mem_append_right _ hr)
      exact queued hi' ▸ hnone i frame' hr hi'
    · have hevent := Option.mem_toList.mp hr
      rw [hevent] at hi
      exact hnone' i frame hevent (by simpa using hi)

/-! ### Nobody waits in vain -/

/-- The first writer to a dead session can move. -/
theorem stepCall_ne_none (hx : s.sessions[e]? = some x)
    (hhead : x.writers.head? = some i) (hw : c.stage.writesTo e = true) (hd : x.Dead) :
    s.stepCall setup i c ≠ none := by
  unfold stepCall
  cases hstage : c.stage with
  | waiting e' frame =>
    obtain rfl : e' = e := by simpa [hstage, Stage.writesTo] using hw
    simp only [hx, hhead, if_true]
    split <;> simp
  | writing e' rest =>
    obtain rfl : e' = e := by simpa [hstage, Stage.writesTo] using hw
    simp only [stepWrite, hx]
    split
    · simp
    · rename_i hopen
      rw [Bool.not_eq_true] at hopen
      rw [hd.broken hopen]
      split
      · simp
      · split
        · simp
        · simp
  | _ => simp [hstage, Stage.writesTo] at hw

/-- When nobody can move, the queue of a dead session is empty, for the first in it could move. -/
theorem Quiet.writers_eq_nil (quiet : s.Quiet setup) (hx : s.sessions[e]? = some x)
    (hq : Queued s e x ws) (hd : x.Dead) : x.writers = [] := by
  cases hw : x.writers with
  | nil => rfl
  | cons j writers =>
    obtain ⟨stage, hj, hs⟩ := (hq.mem j).mp (hw ▸ List.mem_cons_self)
    obtain ⟨c, hc, rfl⟩ := Option.map_eq_some_iff.mp hj
    have hstep : s.step? setup (.call j) = none := quiet (.call j)
    rw [step?, hc, Option.bind_some] at hstep
    exact absurd hstep (stepCall_ne_none hx (by rw [hw]; rfl) hs hd)

/-- When nobody can move, nobody writes to a dead session or waits to. -/
theorem Quiet.heads_eq_false (quiet : s.Quiet setup) (hx : s.sessions[e]? = some x)
    (hq : Queued s e x ws) (hd : x.Dead) (hi : s.stage? i = some stage) :
    stage.heads e = false := by
  have hwriters := quiet.writers_eq_nil hx hq hd
  have hnone (hw : stage.writesTo e = true) : False := by
    have hmem : i ∈ x.writers := (hq.mem i).mpr ⟨stage, hi, hw⟩
    rw [hwriters] at hmem
    cases hmem
  cases stage with
  | asking e' frame =>
    -- a call that is about to ask can always move
    obtain ⟨c, hc, hstage⟩ := Option.map_eq_some_iff.mp hi
    have hstep : s.step? setup (.call i) = none := quiet (.call i)
    rw [step?, hc, Option.bind_some, stepCall, hstage] at hstep
    cases hstep
  | waiting e' frame => exact Bool.eq_false_iff.mpr hnone
  | writing e' rest => exact Bool.eq_false_iff.mpr hnone
  | _ => rfl

/-- When nobody can move, every write to a dead session has returned. -/
theorem Quiet.returned (quiet : s.Quiet setup) (hx : s.sessions[e]? = some x)
    (hq : Queued s e x ws) (hd : x.Dead) (hi : (i, frame) ∈ queuedWrites ws) :
    ∃ f, .returned i f ∈ ws := by
  rcases hq.log.returned_or_mem hi with hf | hmem
  · exact hf
  · obtain ⟨stage, hi', hs⟩ := (hq.mem i).mp hmem
    have hnone := quiet.heads_eq_false hx hq hd hi'
    exact absurd (Stage.heads_of_writesTo hs) (by simp [hnone])

/-! ### The frames that the broker sees -/

/-- If all that is written directly to a session is encoded messages, what has been put into the
connection holds the terminators of the frames that were written, and no others. -/
theorem splitOn_sent (run : Run setup busCapacity h s) (hw : Written s e x (writes e h))
    (hencoded : ∀ (i : CallId) (c : Call) frame, s.calls[i]? = some c →
      c.purpose = .write e frame →
      ∃ (codec : Codec) (m : Message) (command : Command), codec.encode m command = .ok frame) :
    ∃ part, x.toBroker.sent.splitOn Frame.nul
      = (writtenFrames (writes e h)).map List.dropLast ++ [part] := by
  have hcontent (i : CallId) (frame : Bytes) (hi : (i, frame) ∈ queuedWrites (writes e h)) :
      ∃ content, frame = content ++ [Frame.nul] ∧ Frame.nul ∉ content := by
    obtain ⟨c, hc, hp | ⟨m, command, -, hf⟩⟩ := writes_of_queued run hi
    · obtain ⟨codec, m, command, hf⟩ := hencoded i c frame hc hp
      exact Codec.exists_of_encode hf
    · exact Codec.exists_of_encode hf
  obtain ⟨part, hsent, hpart⟩ := hw.start
  refine ⟨part, ?_⟩
  rw [hsent]
  apply Codec.splitOn_flatten
  · intro frame hframe
    obtain ⟨q, hq', rfl⟩ := List.mem_map.mp hframe
    exact hcontent q.1 q.2 (List.mem_of_mem_filter hq')
  · -- the start of one more frame stops short of its terminator
    rcases hpart with rfl | ⟨i, frame, hi, hpre, hne, -⟩
    · exact List.not_mem_nil
    · obtain ⟨content, rfl, hnul⟩ := hcontent i frame hi
      exact Codec.nul_notMem_of_prefix hnul hpre hne

/-! ### The whole -/

/-- What the broker gets to see of the writes to session `e`, which is `x`, in every run.

What has been put into the connection is the frames whose writes succeeded, whole and in the order
in which they queued, and the start of at most one more, whose write is in progress or has failed.
Once a write of any bytes has failed or the close signal has fired, nothing follows on any path: no
write of any bytes succeeds, and when the relay has come to rest each of them has returned with a
fault; left alone, it comes to rest after as many steps as there is work ahead. Cut at every NUL,
what was put into the connection is exactly the frames that were written, if those written directly
are encoded messages as well. And a call whose write succeeded does not report a failure. -/
theorem wire_integrity (run : Run setup busCapacity h s) (hx : s.sessions[e]? = some x) :
    (∀ i frame, (i, frame) ∈ queuedWrites (writes e h) →
        ∃ c, s.calls[i]? = some c ∧ c.purpose.Writes setup.codec e frame)
      ∧ (∃ part, x.toBroker.sent = (writtenFrames (writes e h)).flatten ++ part
        ∧ StartOfOther s e (writes e h) part)
      ∧ ((x.closed = true ∨ ∃ i frame f, (i, frame) ∈ queuedWrites (writes e h) ∧ frame ≠ []
            ∧ .returned i (some f) ∈ writes e h) →
        ∀ k t, Path setup s k t → ∃ y, t.sessions[e]? = some y
          ∧ y.toBroker.sent = x.toBroker.sent
          ∧ (∀ i frame, (i, frame) ∈ queuedWrites (writes e (h ++ k)) → frame ≠ [] →
            .returned i none ∉ writes e k)
          ∧ (t.Quiet setup →
            (∀ i stage, t.stage? i = some stage → stage.heads e = false)
              ∧ ∀ i frame, (i, frame) ∈ queuedWrites (writes e (h ++ k)) → frame ≠ [] →
                .returned i none ∈ writes e h ∨ ∃ f, .returned i (some f) ∈ writes e (h ++ k)))
      ∧ (∀ k t, Path setup s k t → Own k → k.length ≤ s.work setup)
      ∧ ((∀ (i : CallId) (c : Call) frame, s.calls[i]? = some c → c.purpose = .write e frame →
          ∃ (codec : Codec) (m : Message) (command : Command),
            codec.encode m command = .ok frame) →
        ∃ part, x.toBroker.sent.splitOn Frame.nul
          = (writtenFrames (writes e h)).map List.dropLast ++ [part])
      ∧ ∀ i o, s.outcome? i = some o → .returned i none ∈ writes e h → o = .ok := by
  obtain ⟨hq, hw⟩ := (wired_of_run run e).2 x hx
  refine ⟨fun i frame hi => writes_of_queued run hi, hw.start, ?_,
    fun k t path hown => Nat.le_trans (Nat.le_add_right _ _)
      (path.length_le_work (numbered_of_run run) hown),
    fun hencoded => splitOn_sent run hw hencoded,
    fun i o ho hr => outcome_of_returned run hr ho⟩
  intro hdead k t path
  have hd : x.Dead := by
    rcases hdead with hc | ⟨i, frame, f, -, -, hf⟩
    · exact .inl hc
    · exact hw.faults i f hf
  obtain ⟨y, hy, hdy, hsent, hnone⟩ := silent_of_path run hx hd path
  -- the log of the whole history tells which writes have returned when all is at rest
  have hqy := ((wired_of_run (run.append path) e).2 y hy).1
  refine ⟨y, hy, hsent, fun i frame hi hne hr => hne (hnone i frame hr hi), ?_⟩
  intro quiet
  refine ⟨fun i stage hi => quiet.heads_eq_false hy hqy hdy hi, ?_⟩
  intro i frame hi hne
  obtain ⟨f, hf⟩ := quiet.returned hy hqy hdy hi
  cases f with
  | some f => exact .inr ⟨f, hf⟩
  | none =>
    rw [writes_append, List.mem_append] at hf
    exact .inl (hf.resolve_right fun hf => hne (hnone i frame hf hi))

/-- A message without headers and without a body. -/
def blankMessage : Message := ⟨"a", none, [], .bytes []⟩

/-- A broker that takes ten bytes and reads none is sent two messages, and the session is closed
while the second is written. -/
def cutShort : List Move :=
  [.attach "a" 10 false true, .act (.call 0), .act (.call 0),
    .start (.forward blankMessage .send), .start (.forward blankMessage .send),
    .act (.call 1), .act (.call 1), .act (.call 1), .act (.call 2), .act (.call 2), .act (.call 2),
    .act (.call 1), .act (.call 1), .act (.call 1), .act (.call 2), .act (.call 2), .act (.call 2),
    .start (.close 0), .act (.call 3),
    .act (.call 2), .act (.call 2), .act (.call 2), .act (.call 2)]

/-- The broker sees the first message and three bytes of the second, whose call reports the
failure, and never more. -/
theorem wire_integrity_of_cut_short :
    ∃ h s x, Run ⟨.standard, 16, "broker"⟩ 1 h s ∧ s.sessions[0]? = some x ∧ x.closed = true
      ∧ x.toBroker.sent = [83, 69, 78, 68, 10, 10, 0, 83, 69, 78]
      ∧ s.outcome? 2 = some (.failed (.socketIo "a" .closed))
      ∧ (∃ part, x.toBroker.sent.splitOn Frame.nul = [[83, 69, 78, 68, 10, 10], part])
      ∧ ∀ k t, Path ⟨.standard, 16, "broker"⟩ s k t →
        ∃ y, t.sessions[0]? = some y ∧ y.toBroker.sent = x.toBroker.sent := by
  obtain ⟨h, s, run, x, hx, hclosed, hsent, ho, hwritten, hpurposes⟩ :
      ∃ h s, Run ⟨.standard, 16, "broker"⟩ 1 h s ∧ ∃ x, s.sessions[0]? = some x ∧ x.closed = true
        ∧ x.toBroker.sent = [83, 69, 78, 68, 10, 10, 0, 83, 69, 78]
        ∧ s.outcome? 2 = some (.failed (.socketIo "a" .closed))
        ∧ writtenFrames (writes 0 h) = [[83, 69, 78, 68, 10, 10, 0]]
        ∧ s.calls.map Call.purpose = [.attach "a" false true, .forward blankMessage .send,
          .forward blankMessage .send, .close 0] :=
    ⟨_, _, path_of_trace? cutShort rfl, _, rfl, rfl, rfl, rfl, rfl, rfl⟩
  obtain ⟨-, -, hsilent, -, hcut, -⟩ := wire_integrity run hx
  refine ⟨h, s, x, run, hx, hclosed, hsent, ho, ?_, ?_⟩
  · rw [hwritten] at hcut
    apply hcut
    intro i c frame hc hp
    have hmem : c.purpose ∈ s.calls.map Call.purpose :=
      List.mem_map_of_mem (List.mem_of_getElem? hc)
    simp [hpurposes, hp] at hmem
  · intro k t path
    obtain ⟨y, hy, hsent', -⟩ := hsilent (.inl hclosed) k t path
    exact ⟨y, hy, hsent'⟩

end StompRelay.Relay
