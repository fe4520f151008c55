import StompRelay.Proofs.Wire.Queue
/-!
# What has been written

What a session has put into the connection is the frames whose writes returned without a fault, in
the order in which the writes queued, and the start of at most one more.

## Main definitions

* `Session.Dead` — nothing more can be written to a session
* `Relay.StartOfOther` — the start of a frame that was not written
* `Relay.Written` — what has been put into the connection agrees with a log of the writes

## Main results

* `Relay.Written.step` — every step keeps it so
* `Relay.wired_of_run` — it is so in every run
-/

namespace StompRelay

/-- Whether nothing more can be written to a session: its close signal has fired, or the broker has
gone. -/
def Session.Dead (x : Session) : Prop := x.closed = true ∨ x.brokerGone = true

namespace Session

variable {x y : Session}

theorem dead_congr (hclosed : y.closed = x.closed) (hgone : y.brokerGone = x.brokerGone) :
    y.Dead ↔ x.Dead := by
  rw [Dead, hclosed, hgone, Dead]

theorem Dead.broken (hd : x.Dead) (hopen : x.closed = false) : x.broken = true := by
  rcases hd with hc | hg
  · exact absurd (hopen.symm.trans hc) Bool.false_ne_true
  · simp [Session.broken, hg]

/-- Nothing is put into the connection of a dead session that is open still. -/
theorem Dead.eq_nil {bs : Bytes} (hd : x.Dead) (hopen : x.closed = false)
    (hput : bs ≠ [] → x.broken = false) : bs = [] := by
  by_contra hbs
  exact Bool.false_ne_true ((hput hbs).symm.trans (hd.broken hopen))

end Session

namespace Relay

variable {setup : Setup} {busCapacity : Nat} {s t : Relay} {h k : History} {m : Move} {e : Place}
  {i j : CallId} {x y : Session} {ws : List WriteEvent} {event : Option WriteEvent}
  {frame rest part : Bytes} {f : Option WriteFault}

/-- Bytes that are less than some frame, whose write is in progress or has failed. -/
def StartOfOther (s : Relay) (e : Place) (ws : List WriteEvent) (part : Bytes) : Prop :=
  part = [] ∨ ∃ i frame, (i, frame) ∈ queuedWrites ws ∧ part <+: frame ∧ part ≠ frame
    ∧ ((∃ rest, s.stage? i = some (.writing e rest)) ∨ ∃ f, .returned i (some f) ∈ ws)

/-- What session `e`, which is `x`, has put into the connection agrees with a log of the writes to
the session. -/
structure Written (s : Relay) (e : Place) (x : Session) (ws : List WriteEvent) : Prop where
  shut : x.shut = true → x.closed = true
  faults : ∀ i f, .returned i (some f) ∈ ws → x.Dead
  /-- A write of a frame with any bytes in it never has all of them in the connection. -/
  left : ∀ i rest frame, s.stage? i = some (.writing e rest) → (i, frame) ∈ queuedWrites ws →
    frame ≠ [] → x.unsent ++ rest ≠ []
  idle : ¬x.Dead → (∀ i rest, s.stage? i ≠ some (.writing e rest)) →
    x.toBroker.sent = (writtenFrames ws).flatten ∧ x.unsent = []
  busy : ¬x.Dead → ∀ i rest frame, s.stage? i = some (.writing e rest) →
    (i, frame) ∈ queuedWrites ws → ∃ part, frame = part ++ (x.unsent ++ rest)
      ∧ x.toBroker.sent = (writtenFrames ws).flatten ++ part
  start : ∃ part, x.toBroker.sent = (writtenFrames ws).flatten ++ part ∧ StartOfOther s e ws part

/-- Nothing was put into the connection of a session to which no write has queued. -/
theorem Written.sent_eq_nil (hw : Written s e x ws) (hnone : queuedWrites ws = []) :
    x.toBroker.sent = [] := by
  obtain ⟨part, hsent, rfl | ⟨i, frame, hi, -⟩⟩ := hw.start
  · rw [hsent, writtenFrames, hnone]
    rfl
  · rw [hnone] at hi
    cases hi

/-- A broken connection takes nothing more. -/
theorem Written.dead_of_broken (hw : Written s e x ws) (hb : x.broken = true) : x.Dead := by
  rcases Bool.or_eq_true _ _ ▸ hb with hs | hg
  · exact .inl (hw.shut hs)
  · exact .inr hg

/-- Only the first writer writes. -/
theorem Queued.eq_of_writing (hq : Queued s e x ws) (hhead : x.writers.head? = some i)
    (hj : s.stage? j = some (.writing e rest)) : i = j :=
  Option.some.inj (hhead.symm.trans (hq.head j rest hj))

/-- Nobody writes when the first writer has returned. -/
theorem Queued.none_writes {new : Stage} (hq : Queued s e x ws)
    (hhead : x.writers.head? = some i) (hnew : t.stage? i = some new)
    (hw : new.writesTo e = false) (others : ∀ j, i ≠ j → t.stage? j = s.stage? j) (j : CallId)
    (rest : Bytes) : t.stage? j ≠ some (.writing e rest) := by
  intro hj
  by_cases hij : i = j
  · subst hij
    rw [hnew, Option.some.injEq] at hj
    subst hj
    simp [Stage.writesTo] at hw
  · exact hij (hq.eq_of_writing hhead (others j hij ▸ hj))

/-- A write in progress is the write of some frame. -/
theorem Queued.exists_frame (hq : Queued s e x ws) (hi : s.stage? i = some (.writing e rest)) :
    ∃ frame, (i, frame) ∈ queuedWrites ws :=
  hq.log.exists_queued ((hq.mem i).mpr ⟨_, hi, by simp [Stage.writesTo]⟩)

/-! ### Starts of frames -/

namespace StartOfOther

/-- The start of a frame stays one as long as its write goes on or is known to have failed. -/
theorem mono {ws' : List WriteEvent} (hp : StartOfOther s e ws part)
    (hqueued : ∀ i frame, (i, frame) ∈ queuedWrites ws → (i, frame) ∈ queuedWrites ws')
    (hreturned : ∀ i f, .returned i (some f) ∈ ws → .returned i (some f) ∈ ws')
    (hgoes : ∀ i rest frame, (i, frame) ∈ queuedWrites ws → part <+: frame → part ≠ frame →
      s.stage? i = some (.writing e rest) →
      (∃ rest, t.stage? i = some (.writing e rest)) ∨ ∃ f, .returned i (some f) ∈ ws') :
    StartOfOther t e ws' part := by
  rcases hp with rfl | ⟨i, frame, hi, hpre, hne, ⟨rest, hr⟩ | ⟨f, hf⟩⟩
  · exact .inl rfl
  · exact .inr ⟨i, frame, hqueued i frame hi, hpre, hne, hgoes i rest frame hi hpre hne hr⟩
  · exact .inr ⟨i, frame, hqueued i frame hi, hpre, hne, .inr ⟨f, hreturned i f hf⟩⟩

end StartOfOther

namespace Written

/-- What is in the connection of a write that goes on is the start of its frame. -/
theorem start_of_busy (hq : Queued s e x ws) (hi : s.stage? i = some (.writing e rest))
    (hleft : ∀ frame, (i, frame) ∈ queuedWrites ws → frame ≠ [] → x.unsent ++ rest ≠ [])
    (hbusy : ∀ frame, (i, frame) ∈ queuedWrites ws → ∃ part, frame = part ++ (x.unsent ++ rest)
      ∧ x.toBroker.sent = (writtenFrames ws).flatten ++ part) :
    ∃ part, x.toBroker.sent = (writtenFrames ws).flatten ++ part
      ∧ StartOfOther s e ws part := by
  obtain ⟨frame, hf⟩ := hq.exists_frame hi
  obtain ⟨part, heq, hsent⟩ := hbusy frame hf
  refine ⟨part, hsent, ?_⟩
  by_cases hp : part = []
  · exact .inl hp
  · refine .inr ⟨i, frame, hf, ⟨_, heq.symm⟩, ?_, .inl ⟨rest, hi⟩⟩
    intro hpf
    -- the whole frame in the connection would leave nothing to be put
    refine hleft frame hf (fun h => hp (hpf.trans h)) ?_
    rw [hpf] at heq
    exact List.self_eq_append_right.mp heq

/-- Nothing is written, though the session may be closed or lost. -/
theorem still (hw : Written s e x ws) (same : x.SameWire y)
    (hstages : ∀ i rest, t.stage? i = some (.writing e rest)
      ↔ s.stage? i = some (.writing e rest)) : Written t e y ws := by
  have hd : x.Dead → y.Dead := Or.imp same.closed same.gone
  constructor
  case shut =>
    intro hy
    exact (same.shut hy).elim (fun hx => same.closed (hw.shut hx)) id
  case faults =>
    intro i f hf
    exact hd (hw.faults i f hf)
  case left =>
    intro i rest frame hi hframe hne
    rw [same.unsent]
    exact hw.left i rest frame ((hstages i rest).mp hi) hframe hne
  case idle =>
    intro hy hnone
    rw [same.sent, same.unsent]
    exact hw.idle (mt hd hy) fun i rest hi => hnone i rest ((hstages i rest).mpr hi)
  case busy =>
    intro hy i rest frame hi hframe
    rw [same.sent, same.unsent]
    exact hw.busy (mt hd hy) i rest frame ((hstages i rest).mp hi) hframe
  case start =>
    obtain ⟨part, hsent, hpart⟩ := hw.start
    refine ⟨part, same.sent.trans hsent, hpart.mono (fun _ _ => id) (fun _ _ => id) ?_⟩
    intro i rest frame _ _ _ hi
    exact .inl ⟨rest, (hstages i rest).mpr hi⟩

/-- A write queues. -/
theorem queue (hq : Queued s e x ws) (hw : Written s e x ws)
    (hold : s.stage? i = some (.asking e frame)) (hnew : t.stage? i = some (.waiting e frame))
    (others : ∀ j, i ≠ j → t.stage? j = s.stage? j) :
    Written t e { x with writers := x.writers ++ [i] } (ws ++ [.queued i frame]) := by
  have hwritten : writtenFrames (ws ++ [.queued i frame]) = writtenFrames ws :=
    hq.log.written_queue (hq.not_queued hold rfl)
  have hstages (j : CallId) (rest : Bytes) :
      t.stage? j = some (.writing e rest) ↔ s.stage? j = some (.writing e rest) := by
    by_cases hij : i = j
    · subst hij
      rw [hnew, hold]
      exact iff_of_false (by simp) (by simp)
    · rw [others j hij]
  have hframes {j : CallId} {rest frame' : Bytes} (hj : s.stage? j = some (.writing e rest))
      (hmem : (j, frame') ∈ queuedWrites (ws ++ [.queued i frame])) :
      (j, frame') ∈ queuedWrites ws := by
    rw [queuedWrites_queue] at hmem
    rcases List.mem_append.mp hmem with hmem | hmem
    · exact hmem
    · cases List.mem_singleton.mp hmem
      rw [hold] at hj
      cases hj
  constructor
  case shut => exact hw.shut
  case faults =>
    intro j f hf
    exact hw.faults j f (by simpa using hf)
  case left =>
    intro j rest frame' hj hframe hne
    have hj' := (hstages j rest).mp hj
    exact hw.left j rest frame' hj' (hframes hj' hframe) hne
  case idle =>
    intro hd hnone
    rw [hwritten]
    exact hw.idle hd fun j rest hj => hnone j rest ((hstages j rest).mpr hj)
  case busy =>
    intro hd j rest frame' hj hframe
    have hj' := (hstages j rest).mp hj
    rw [hwritten]
    exact hw.busy hd j rest frame' hj' (hframes hj' hframe)
  case start =>
    obtain ⟨part, hsent, hpart⟩ := hw.start
    rw [hwritten]
    refine ⟨part, hsent, hpart.mono ?_ ?_ ?_⟩
    · intro j frame' hj
      rw [queuedWrites_queue]
      exact List.mem_append_left _ hj
    · intro j f hf
      exact List.mem_append_left _ hf
    · intro j rest frame' _ _ _ hj
      exact .inl ⟨rest, (hstages j rest).mpr hj⟩

/-- A write gets its turn. -/
theorem turn (hq : Queued s e x ws) (hw : Written s e x ws)
    (hold : s.stage? i = some (.waiting e frame)) (hnew : t.stage? i = some (.writing e frame))
    (others : ∀ j, i ≠ j → t.stage? j = s.stage? j) (hhead : x.writers.head? = some i) :
    Written t e x ws := by
  -- nobody has been writing
  have hnone (j : CallId) (rest : Bytes) : s.stage? j ≠ some (.writing e rest) := by
    intro hj
    obtain rfl := hq.eq_of_writing hhead hj
    rw [hold] at hj
    cases hj
  have hown {j : CallId} {rest frame' : Bytes} (hj : t.stage? j = some (.writing e rest))
      (hmem : (j, frame') ∈ queuedWrites ws) : rest = frame' := by
    by_cases hij : i = j
    · subst hij
      rw [hnew] at hj
      cases hj
      exact hq.log.frame_unique (hq.frame i frame hold) hmem
    · exact absurd (others j hij ▸ hj) (hnone j rest)
  constructor
  case shut => exact hw.shut
  case faults => exact hw.faults
  case left =>
    intro j rest frame' hj hmem hne
    rw [hown hj hmem]
    exact List.append_ne_nil_of_right_ne_nil _ hne
  case idle =>
    intro _ hnone'
    exact absurd hnew (hnone' i frame)
  case busy =>
    intro hd j rest frame' hj hmem
    obtain ⟨hsent, hunsent⟩ := hw.idle hd hnone
    refine ⟨[], ?_, by rw [hsent, List.append_nil]⟩
    rw [hown hj hmem, hunsent]
    rfl
  case start =>
    obtain ⟨part, hsent, hpart⟩ := hw.start
    refine ⟨part, hsent, hpart.mono (fun _ _ => id) (fun _ _ => id) ?_⟩
    intro j rest _ _ _ _ hj
    exact absurd hj (hnone j rest)

/-- A write goes on, and some of it is left. -/
theorem advance {rest' bs : Bytes} (hq : Queued s e x ws) (hw : Written s e x ws)
    (hq' : Queued t e y ws) (hold : s.stage? i = some (.writing e rest))
    (hnew : t.stage? i = some (.writing e rest')) (hopen : x.closed = false)
    (hput : bs ≠ [] → x.broken = false) (heq : x.unsent ++ rest = bs ++ (y.unsent ++ rest'))
    (hleft : y.unsent ++ rest' ≠ []) (hsent : y.toBroker.sent = x.toBroker.sent ++ bs)
    (hwriters : y.writers = x.writers) (hclosed : y.closed = x.closed) (hshut : y.shut = x.shut)
    (hgone : y.brokerGone = x.brokerGone) : Written t e y ws := by
  have hdead : y.Dead ↔ x.Dead := Session.dead_congr hclosed hgone
  have hhead' : y.writers.head? = some i := hwriters ▸ hq.head i rest hold
  -- whoever writes after the step is the call that made it
  have hown {j : CallId} {r : Bytes} (hj : t.stage? j = some (.writing e r)) :
      i = j ∧ r = rest' := by
    obtain rfl := hq'.eq_of_writing hhead' hj
    rw [hnew] at hj
    cases hj
    exact ⟨rfl, rfl⟩
  -- what the step put comes between what was there of the frame and what is left of it
  have hbusy (hd : ¬y.Dead) {frame : Bytes} (hmem : (i, frame) ∈ queuedWrites ws) :
      ∃ part, frame = part ++ (y.unsent ++ rest')
        ∧ y.toBroker.sent = (writtenFrames ws).flatten ++ part := by
    obtain ⟨part, hframe, hx⟩ := hw.busy (mt hdead.mpr hd) i rest frame hold hmem
    refine ⟨part ++ bs, ?_, ?_⟩
    · rw [hframe, heq, List.append_assoc]
    · rw [hsent, hx, List.append_assoc]
  constructor
  case shut =>
    rw [hshut, hclosed]
    exact hw.shut
  case faults =>
    intro j f hf
    exact hdead.mpr (hw.faults j f hf)
  case left =>
    intro j r frame hj _ _
    obtain ⟨rfl, rfl⟩ := hown hj
    exact hleft
  case idle =>
    intro _ hnone
    exact absurd hnew (hnone i rest')
  case busy =>
    intro hd j r frame hj hmem
    obtain ⟨rfl, rfl⟩ := hown hj
    exact hbusy hd hmem
  case start =>
    by_cases hd : y.Dead
    · -- a broken connection has taken nothing
      have hbs : bs = [] := (hdead.mp hd).eq_nil hopen hput
      rw [hbs, List.append_nil] at hsent
      obtain ⟨part, hx, hpart⟩ := hw.start
      refine ⟨part, hsent.trans hx, hpart.mono (fun _ _ => id) (fun _ _ => id) ?_⟩
      intro j r _ _ _ _ hj
      obtain rfl := hq.eq_of_writing (hq.head i rest hold) hj
      exact .inl ⟨rest', hnew⟩
    · exact start_of_busy hq' hnew (fun _ _ _ => hleft) fun _ hmem => hbusy hd hmem

/-- A write puts what is left of it, if anything, and returns. -/
theorem finish (hq : Queued s e x ws) (hw : Written s e x ws)
    (hold : s.stage? i = some (.writing e rest)) (hnone : ∀ j r, t.stage? j ≠ some (.writing e r))
    (hopen : x.closed = false) (hput : x.unsent ++ rest ≠ [] → x.broken = false)
    (hunsent : y.unsent = []) (hsent : y.toBroker.sent = x.toBroker.sent ++ (x.unsent ++ rest))
    (hclosed : y.closed = x.closed) (hshut : y.shut = x.shut)
    (hgone : y.brokerGone = x.brokerGone) :
    Written t e y (ws ++ [.returned i none]) := by
  have hdead : y.Dead ↔ x.Dead := Session.dead_congr hclosed hgone
  obtain ⟨frame, hframe⟩ := hq.exists_frame hold
  obtain ⟨writers, hwriters⟩ := hq.eq_cons hold
  have hwritten : writtenFrames (ws ++ [.returned i none]) = writtenFrames ws ++ [frame] :=
    (hwriters ▸ hq.log).written_finish hframe
  -- the start of the frame that was there and what is put now make it whole
  have hidle (hd : ¬y.Dead) :
      y.toBroker.sent = (writtenFrames (ws ++ [.returned i none])).flatten := by
    obtain ⟨part, hf, hx⟩ := hw.busy (mt hdead.mpr hd) i rest frame hold hframe
    rw [hwritten, List.flatten_append, List.flatten_singleton, hsent, hx, List.append_assoc, hf]
  constructor
  case shut =>
    rw [hshut, hclosed]
    exact hw.shut
  case faults =>
    intro j f hf
    exact hdead.mpr (hw.faults j f (by simpa using hf))
  case left =>
    intro j r _ hj
    exact absurd hj (hnone j r)
  case idle =>
    intro hd _
    exact ⟨hidle hd, hunsent⟩
  case busy =>
    intro _ j r _ hj
    exact absurd hj (hnone j r)
  case start =>
    by_cases hd : y.Dead
    · -- a write that returns from a broken connection had no bytes
      have hnil : x.unsent ++ rest = [] := (hdead.mp hd).eq_nil hopen hput
      have hempty : frame = [] := by
        by_contra hne
        exact hw.left i rest frame hold hframe hne hnil
      obtain ⟨part, hx, hpart⟩ := hw.start
      refine ⟨part, ?_, hpart.mono (fun j f => by simp) (fun j f hf => by simp [hf]) ?_⟩
      · rw [hwritten, hempty, hsent, hnil, hx]
        simp
      · intro j r frame' hmem hpre hne hj
        obtain rfl := hq.eq_of_writing (hq.head i rest hold) hj
        rw [hq.log.frame_unique hmem hframe, hempty] at hpre hne
        exact absurd (List.prefix_nil.mp hpre) hne
    · exact ⟨[], by rw [hidle hd, List.append_nil], .inl rfl⟩

/-- A write returns with a fault. -/
theorem fail {f : WriteFault} (hq : Queued s e x ws) (hw : Written s e x ws)
    (hnone : ∀ j r, t.stage? j ≠ some (.writing e r)) (hhead : x.writers.head? = some i)
    (hbroken : x.closed = true ∨ x.broken = true) :
    Written t e (x.leave i) (ws ++ [.returned i (some f)]) := by
  have hdead : x.Dead := hbroken.elim .inl hw.dead_of_broken
  constructor
  case shut => exact hw.shut
  case faults =>
    intro _ _ _
    exact hdead
  case left =>
    intro j r _ hj
    exact absurd hj (hnone j r)
  case idle =>
    intro hd
    exact absurd hdead hd
  case busy =>
    intro hd
    exact absurd hdead hd
  case start =>
    obtain ⟨part, hx, hpart⟩ := hw.start
    refine ⟨part, ?_, hpart.mono (fun j f => by simp) (fun j f hf => by simp [hf]) ?_⟩
    · rw [written_fail]
      exact hx
    · intro j r _ _ _ _ hj
      obtain rfl := hq.eq_of_writing hhead hj
      -- the frame that was being written is the one whose write has just failed
      exact .inr ⟨f, by simp⟩

/-- Every step keeps what has been written in agreement with the log. -/
theorem step (hq : Queued s e x ws) (hw : Written s e x ws) (step : MoveStep setup s m t)
    (wire : WireStep e s t x y event) : Written t e y (ws ++ event.toList) := by
  -- the queue after the step tells who writes then
  have hq' := hq.step step wire
  cases wire with
  | rest same stages =>
    rw [Option.toList_none, List.append_nil]
    exact hw.still same fun i rest => stages i _ (by simp [Stage.writesTo])
  | queue hold hnew others hy =>
    rw [hy]
    exact hw.queue hq hold hnew others
  | turn hold hnew others hhead hy =>
    rw [Option.toList_none, List.append_nil, hy]
    exact hw.turn hq hold hnew others hhead
  | advance hold hnew _ hopen hput heq hleft hsent hwriters hclosed hshut hgone =>
    rw [Option.toList_none, List.append_nil] at hq' ⊢
    exact hw.advance hq hq' hold hnew hopen hput heq hleft hsent hwriters hclosed hshut hgone
  | finish hold hnew others hopen hput hunsent hsent _ hclosed hshut hgone =>
    have hnone := hq.none_writes (hq.head _ _ hold) hnew (Stage.writesTo_conclude _) others
    exact hw.finish hq hold hnone hopen hput hunsent hsent hclosed hshut hgone
  | fail hold hold' hnew others hbroken hhead hy =>
    have hhead' := hq.head_of_writesTo hold hold' hhead
    rw [hy]
    exact hw.fail hq (hq.none_writes hhead' hnew Stage.writesTo_afterBreak others) hhead' hbroken

end Written

/-! ### Runs -/

/-- Nobody heads for a session that is not there. -/
theorem Sound.heads_eq_false {stage : Stage} (hs : s.Sound) (he : s.sessions[e]? = none)
    (hi : s.stage? i = some stage) : stage.heads e = false := by
  rw [← Bool.not_eq_true]
  intro hh
  have hk : stage.keeps e = true := by
    cases stage <;> simp_all [Stage.heads, Stage.keeps]
  exact absurd (hs.kept i stage e hi hk) (Nat.not_lt.mpr (List.getElem?_eq_none_iff.mp he))

theorem MoveStep.write?_eq_none (hs : s.Sound) (he : s.sessions[e]? = none) :
    Transition.write? e ⟨s, m, t⟩ = none := by
  unfold Transition.write?
  split
  · split
    · rename_i i old new hold hnew
      exact Stage.write?_eq_none (hs.heads_eq_false he hold)
    · rfl
  · rfl

/-- To a new session nobody writes. -/
theorem MoveStep.writesTo_new {stage : Stage} (hs : s.Sound) (he : s.sessions[e]? = none)
    (step : MoveStep setup s m t) (hi : t.stage? i = some stage) : stage.writesTo e = false := by
  obtain ⟨d, hd, rfl⟩ := Option.map_eq_some_iff.mp hi
  rcases step.call_before hd with ⟨c, hc, -, heq | hnext⟩ | ⟨-, hstart⟩
  · have hh := hs.heads_eq_false he (stage?_eq_of_getElem? hc)
    rw [heq, ← Bool.not_eq_true]
    intro hw
    exact Bool.false_ne_true (hh.symm.trans (Stage.heads_of_writesTo hw))
  · exact hnext.writesTo (hs.heads_eq_false he (stage?_eq_of_getElem? hc))
  · rw [hstart]
    cases d.purpose <;> rfl

theorem Queued.new {id : SessionId} {n : Epoch} {capacity : Nat}
    (hnone : ∀ i stage, s.stage? i = some stage → stage.writesTo e = false) :
    Queued s e (.new id n capacity) [] where
  log := .nil
  asked i frame hi := by cases hi
  mem i := by
    refine iff_of_false (by simp [Session.new]) ?_
    rintro ⟨stage, hi, hw⟩
    exact Bool.false_ne_true ((hnone i stage hi).symm.trans hw)
  head i rest hi := by simpa [Stage.writesTo] using hnone i _ hi
  frame i frame hi := by simpa [Stage.writesTo] using hnone i _ hi

theorem Written.new {id : SessionId} {n : Epoch} {capacity : Nat}
    (hnone : ∀ i stage, s.stage? i = some stage → stage.writesTo e = false) :
    Written s e (.new id n capacity) [] where
  shut hshut := by cases hshut
  faults i f hf := by cases hf
  left i rest frame hi := by simpa [Stage.writesTo] using hnone i _ hi
  idle _ _ := ⟨rfl, rfl⟩
  busy _ i rest frame hi := by simpa [Stage.writesTo] using hnone i _ hi
  start := ⟨[], rfl, .inl rfl⟩

theorem writes_append (h k : History) : writes e (h ++ k) = writes e h ++ writes e k :=
  List.filterMap_append

theorem writes_snoc (h : History) (τ : Transition) :
    writes e (h ++ [τ]) = writes e h ++ (τ.write? e).toList := by
  cases hw : τ.write? e <;> simp [writes, hw]

/-- In every run, the queue of a session and what has been written to it agree with the log of the
writes to it. -/
theorem wired_of_run (run : Run setup busCapacity h s) (e : Place) :
    (s.sessions[e]? = none → writes e h = [])
      ∧ ∀ x, s.sessions[e]? = some x →
        Queued s e x (writes e h) ∧ Written s e x (writes e h) := by
  refine session_of_run (Q := fun h => writes e h = [])
    (P := fun h s x => Queued s e x (writes e h) ∧ Written s e x (writes e h)) rfl
    ?_ ?_ run
  · intro h s t m run step hx hnil
    have hs := sound_of_run run
    rw [writes_snoc, hnil, MoveStep.write?_eq_none hs hx]
    refine ⟨rfl, ?_⟩
    intro y hy
    obtain ⟨id, capacity, rfl⟩ := step.session_new hx hy
    have hnone : ∀ i stage, t.stage? i = some stage → stage.writesTo e = false := by
      intro i stage hi
      exact step.writesTo_new hs hx hi
    exact ⟨.new hnone, .new hnone⟩
  · intro h s t m x run step hx hp
    obtain ⟨hq, hw⟩ := hp
    obtain ⟨y, hy, wire⟩ := step.wireStep hx
    rw [writes_snoc]
    exact ⟨y, hy, hq.step step wire, hw.step hq step wire⟩

end Relay

end StompRelay
