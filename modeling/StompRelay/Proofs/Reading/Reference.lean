import StompRelay.Proofs.Delivery.Line
import StompRelay.Proofs.Reading.Progress
import StompRelay.Proofs.Rest
/-!
# Reading a stream to its end

A reader that is left alone takes a bounded number of steps, and when it can take no more it has
put on the bus exactly what is in the stream, read as a whole, and one notice with the reason for
which the stream was not read any further.

## Main definitions

* `Relay.stepsOf` — how many steps somebody took

## Main results

* `Relay.stepsOf_le` — a reader takes a bounded number of steps
* `Relay.reader_eq_readStream` — what a reader posts is what the whole stream holds
-/

namespace StompRelay.Relay

variable {setup : Setup} {busCapacity : Nat} {s t : Relay} {h : History} {m : Move} {e : Place}
  {x y : Session} {chunk : Bytes} {frame : Assembly}

/-! ### Bounded work -/

/-- How many steps somebody took. -/
def stepsOf (a : Actor) (h : History) : Nat := h.countP (Transition.isOf a)

theorem stepsOf_snoc_self (h : History) :
    stepsOf (.reader e) (h ++ [⟨s, .act (.reader e), t⟩]) = stepsOf (.reader e) h + 1 := by
  simp [stepsOf, Transition.isOf]

theorem stepsOf_snoc_of_ne {a : Actor} (hm : m ≠ .act a) :
    stepsOf a (h ++ [⟨s, m, t⟩]) = stepsOf a h := by
  have hisOf : Transition.isOf a ⟨s, m, t⟩ = false := Transition.isOf_eq_false hm
  simp [stepsOf, hisOf]

/-- The steps that a reader has taken and those ahead of it are bounded by what was sent. -/
structure Bounded (h : History) (e : Place) (x : Session) : Prop where
  unstarted : x.reader = .unstarted → stepsOf (.reader e) h = 0 ∧ x.toRelay.taken = []
  le : stepsOf (.reader e) h + ahead x ≤ 3 * x.toRelay.sent.length + 4

theorem Bounded.step (hb : Bounded h e x) (ho : s.Opening) (hx : s.sessions[e]? = some x)
    (hy : t.sessions[e]? = some y) (input : InputStep setup e s t x y m) :
    Bounded (h ++ [⟨s, m, t⟩]) e y := by
  -- the call that opens the session leaves its reader at most the work of starting
  have start {i : CallId} (hr : x.reader = .unstarted) (hy' : y.reader ≠ .unstarted)
      (hrelay : y.toRelay = x.toRelay) (hwork : y.reader.work ≤ 4) :
      Bounded (h ++ [⟨s, .act (.call i), t⟩]) e y := by
    obtain ⟨hzero, htaken⟩ := hb.unstarted hr
    refine ⟨fun hr' => absurd hr' hy', ?_⟩
    rw [stepsOf_snoc_of_ne (by simp), hzero, ahead, hrelay, Pipe.sent, htaken]
    simp only [List.reverse_nil, List.nil_append]
    omega
  cases input with
  | rest hm same =>
    have hsteps : stepsOf (.reader e) (h ++ [⟨s, m, t⟩]) = stepsOf (.reader e) h :=
      stepsOf_snoc_of_ne hm
    refine ⟨?_, ?_⟩
    · intro hr
      rw [hsteps, same.taken]
      exact hb.unstarted (same.reader.symm.trans hr)
    · obtain ⟨bs, hw, -⟩ := same.waiting
      have hle := hb.le
      rw [hsteps]
      simp only [ahead, Pipe.sent, same.reader, same.taken, hw, List.length_append,
        List.length_reverse] at hle ⊢
      omega
  | own step =>
    obtain ⟨hlt, hsent, hr⟩ := step.ahead_lt hx hy
    have hle := hb.le
    refine ⟨fun hr' => absurd hr' hr, ?_⟩
    rw [stepsOf_snoc_self, hsent]
    omega
  | drop hc hst _ hy' =>
    exact start (ho.eq_unstarted hx hc (by simp [hst, Stage.opens])) (by simp [hy']) (by rw [hy'])
      (by simp [hy', Reader.work])
  | start hc hst _ hreader hy' =>
    refine start (ho.eq_unstarted hx hc (by simp [hst, Stage.opens])) ?_ (by rw [hy']) ?_
    · rcases hreader with rfl | rfl <;> simp [hy']
    · rcases hreader with rfl | rfl <;> simp [hy', Reader.work]

theorem bounded_of_run (run : Run setup busCapacity h s) (e : Place) :
    (s.sessions[e]? = none → stepsOf (.reader e) h = 0)
      ∧ ∀ x, s.sessions[e]? = some x → Bounded h e x := by
  refine session_of_run (Q := fun h => stepsOf (.reader e) h = 0)
    (P := fun h _ x => Bounded h e x) rfl ?_ ?_ run
  · intro h s t m run step hx hzero
    have hzero' : stepsOf (.reader e) (h ++ [⟨s, m, t⟩]) = 0 :=
      (stepsOf_snoc_of_ne (step.ne_reader hx)).trans hzero
    refine ⟨hzero', ?_⟩
    intro y hy
    obtain ⟨id, capacity, rfl⟩ := step.session_new hx hy
    refine ⟨fun _ => ⟨hzero', rfl⟩, ?_⟩
    rw [hzero']
    simp [ahead, Session.new, Reader.work, Pipe.empty]
  · intro h s t m x run step hx hb
    obtain ⟨y, hy, input⟩ := step.inputStep hx
    exact ⟨y, hy, hb.step (opening_of_run run) hx hy input⟩

/-- A reader takes a bounded number of steps. -/
theorem stepsOf_le (run : Run setup busCapacity h s) (hx : s.sessions[e]? = some x) :
    stepsOf (.reader e) h ≤ 3 * x.toRelay.sent.length + 4 :=
  Nat.le_trans (Nat.le_add_right _ _) ((bounded_of_run run e).2 x hx).le

/-! ### The end of the stream -/

/-- A frame under way has no more bytes than a frame may have. -/
theorem Progress.length_le (hp : Progress setup.maxFrameBytes h s e x)
    (hr : x.reader = .reading chunk frame) : frame.taken.length ≤ setup.maxFrameBytes := by
  obtain ⟨-, bs, -, hscan⟩ := hp.of_reading hr
  exact Nat.le.intro (size_of_scan (by simp [Assembly.empty]) hscan)

/-- A reader that stops because nobody receives any more is right. -/
theorem bus_closed_of_mem_exits (run : Run setup busCapacity h s)
    (hmem : Exit.busClosed ∈ exits e h) : s.bus.closed = true := by
  induction run with
  | nil => cases hmem
  | @snoc h s t m run hm ih =>
    have step := (run.moveStep hm).busStep
    rw [exits_snoc, List.mem_append] at hmem
    rcases hmem with hmem | hmem
    · exact step.closed (ih hmem)
    · refine step.closed ?_
      have hexit := Option.mem_toList.mp hmem
      unfold Transition.exit? at hexit
      split at hexit
      · obtain ⟨-, hexit⟩ := Option.ite_none_right_eq_some.mp hexit
        obtain ⟨x, -, hexit⟩ := Option.bind_eq_some_iff.mp hexit
        exact Session.exit?_eq_busClosed hexit
      · cases hexit

/-- What is not read any more is the whole stream, read as one. -/
theorem Exhausted.readStream {limit : Nat} {ms : List Message} {text : String}
    (hex : Exhausted limit x ms text) : readStream limit x.id x.toRelay.sent = (ms, text) := by
  rw [readStream_eq_scan]
  rcases hex with hstop | ⟨-, rfl, frame, hgo⟩
  · rw [hstop]
    rfl
  · rw [hgo]
    rfl

/-- A reader that has stopped of its own accord has posted the whole stream and the notice. -/
theorem Stopped.exhausted (hs : Stopped setup.maxFrameBytes h s e x)
    (run : Run setup busCapacity h s) (hu : Uncut e h) (hopen : s.bus.closed = false) :
    ∃ ms text, Exhausted setup.maxFrameBytes x ms text
      ∧ postedBy (.reader e) h = ms ++ [.notice x.id text] := by
  cases hs with
  | @cut exit hexits htext =>
    have hmem : exit ∈ exits e h := hexits ▸ List.mem_cons_self
    cases exit with
    | closed => exact absurd hmem (not_mem_exits_of_uncut hu)
    | busClosed => exact absurd (bus_closed_of_mem_exits run hmem) (by simp [hopen])
    | peerClosed | failed | malformed | tooLarge => cases htext
  | hushed _ _ _ hclosed => exact absurd hclosed (by simp [hopen])
  | told _ _ hex hposted => exact ⟨_, _, hex, hposted⟩

/-- A reader that was started, cannot move and does not wait in line has finished, or has read all
that was sent and waits for more. -/
theorem Progress.at_rest (hp : Progress setup.maxFrameBytes h s e x) (hl : s.Line)
    (hx : s.sessions[e]? = some x) (hstarted : Started e h)
    (hline : Ticket.reader e ∉ s.bus.line) (hrest : s.step? setup (.reader e) = none) :
    x.reader = .finished ∧ Stopped setup.maxFrameBytes h s e x
      ∨ ∃ frame, x.reader = .reading [] frame ∧ x.toRelay.waiting = [] ∧ x.inputEnded = false := by
  have waits (hw : x.reader.waits = true) : False := hline ((hl.readers e).mpr ⟨x, hx, hw⟩)
  rw [step?, hx, Option.bind_some, stepReader] at hrest
  cases hp with
  | idle _ hnone => exact absurd hstarted hnone
  | @reading chunk bs frame hr =>
    refine .inr ⟨frame, ?_⟩
    rw [hr] at hrest
    dsimp only at hrest
    split at hrest
    · cases hrest
    · cases chunk with
      | cons b chunk => cases hrest
      | nil =>
        refine ⟨hr, ?_⟩
        dsimp only at hrest
        rw [fetch] at hrest
        split at hrest
        · rename_i hwaiting
          refine ⟨List.isEmpty_iff.mp hwaiting, ?_⟩
          split_ifs at hrest with hfailed hgone
          simp [Session.inputEnded, hfailed, hgone]
        · cases hrest
  | delivering hr => exact (waits (by rw [hr]; rfl)).elim
  | notifying hr => exact (waits (by rw [hr]; rfl)).elim
  | stopped hr hs =>
    rcases hr with hr | hr | hr
    · rw [hr] at hrest
      dsimp only at hrest
      split at hrest <;> cases hrest
    · rw [hr] at hrest
      cases hrest
    · exact .inl ⟨hr, hs⟩

/-- A reader that was started and not cut short has finished when it is at rest and nothing more is
sent, and has posted the whole stream and the notice. -/
theorem Progress.finished_at_rest (hp : Progress setup.maxFrameBytes h s e x)
    (run : Run setup busCapacity h s) (hx : s.sessions[e]? = some x) (hstarted : Started e h)
    (hu : Uncut e h) (hended : x.inputEnded = true) (hopen : s.bus.closed = false)
    (hline : Ticket.reader e ∉ s.bus.line) (hrest : s.step? setup (.reader e) = none) :
    x.reader = .finished ∧ postedBy (.reader e) h
      = (readStream setup.maxFrameBytes x.id x.toRelay.sent).1
        ++ [.notice x.id (readStream setup.maxFrameBytes x.id x.toRelay.sent).2] := by
  -- a reader at rest has finished, or waits for more to be sent
  rcases hp.at_rest (line_of_run run) hx hstarted hline hrest with ⟨hr, hs⟩ | ⟨_, -, -, hmore⟩
  · obtain ⟨ms, text, hex, hposted⟩ := hs.exhausted run hu hopen
    exact ⟨hr, by rw [hex.readStream, hposted]⟩
  · exact absurd (hmore.symm.trans hended) Bool.false_ne_true

/-- What the reader of session `e`, which is `x`, makes of the broker's stream in every run.

The frame that it has under way is never larger than a frame may be, and it takes no more steps than
the bytes sent so far warrant. If it was started, the broker has gone or nothing more can be
fetched, nobody closed the session while it was reading and the bus keeps up, then it has finished
when it can move no more, and what it has put on the bus is exactly what the whole stream holds when
it is cut at every NUL: the messages, in order, and one ERROR whose only header is the reason for
which the stream was not read any further. -/
theorem reader_eq_readStream (run : Run setup busCapacity h s)
    (hx : s.sessions[e]? = some x) :
    (∀ chunk frame, x.reader = .reading chunk frame →
        frame.taken.length ≤ setup.maxFrameBytes)
      ∧ stepsOf (.reader e) h ≤ 3 * x.toRelay.sent.length + 4
      ∧ (Started e h → Uncut e h → x.inputEnded = true → s.bus.closed = false →
        Ticket.reader e ∉ s.bus.line → s.step? setup (.reader e) = none →
        x.reader = .finished ∧ postedBy (.reader e) h
          = (readStream setup.maxFrameBytes x.id x.toRelay.sent).1
            ++ [⟨x.id, some .error,
              [⟨"message", (readStream setup.maxFrameBytes x.id x.toRelay.sent).2⟩], .empty⟩]) := by
  have hp := (progress_of_run run e).2 x hx
  exact ⟨fun chunk frame hr => hp.length_le hr, stepsOf_le run hx,
    fun hstarted hu hended hopen hline hrest =>
      hp.finished_at_rest run hx hstarted hu hended hopen hline hrest⟩

/-- The shortest ERROR frame. -/
theorem decode_error (id : SessionId) :
    Codec.decode id [69, 82, 82, 79, 82, 10, 10] = .ok (some ⟨id, some .error, [], .bytes []⟩) := by
  have hframe : Frame.decode [69, 82, 82, 79, 82, 10, 10] = .ok (some ⟨.error, [], []⟩) := by
    decide +kernel
  rw [Codec.decode, hframe]
  rfl

/-- A broker sends a frame, then what is no frame, then another frame, and goes. -/
def badFrame : List Move :=
  [.attach "a" 64 true false, .act (.call 0), .act (.call 0),
    .brokerPut 0 [69, 82, 82, 79, 82, 10, 10, 0, 63, 0, 69, 82, 82, 79, 82, 10, 10, 0],
    .brokerDrop 0] ++ List.replicate 15 (.act (.reader 0))

/-- The client gets the first frame and the notice, and nothing of the second frame. -/
theorem reader_eq_readStream_of_bad_frame :
    ∃ h s x, Run ⟨.standard, 8, "broker"⟩ 4 h s ∧ s.sessions[0]? = some x
      ∧ x.reader = .finished
      ∧ postedBy (.reader 0) h = [⟨"a", some .error, [], .bytes []⟩,
        ⟨"a", some .error, [⟨"message", "Malformed frame: Malformed frame on session a: "
          ++ "Frame syntax error: Unterminated command line"⟩], .empty⟩] := by
  have hends : ((Relay.empty 4).trace? ⟨.standard, 8, "broker"⟩ badFrame).any (fun p =>
      Started 0 p.1 && Uncut 0 p.1 && !p.2.bus.closed && p.2.bus.line.isEmpty
        && (p.2.step? ⟨.standard, 8, "broker"⟩ (.reader 0)).isNone
        && p.2.sessions[0]?.any fun x => x.inputEnded && x.id = "a" && x.toRelay.sent
          = [69, 82, 82, 79, 82, 10, 10, 0, 63, 0, 69, 82, 82, 79, 82, 10, 10, 0]) = true := by
    decide +kernel
  obtain ⟨⟨h, s⟩, htrace, hends⟩ := (Option.any_eq_true _ _).mp hends
  simp only [Bool.and_eq_true, decide_eq_true_eq, Bool.not_eq_true', List.isEmpty_iff,
    Option.isNone_iff_eq_none, Option.any_eq_true] at hends
  obtain ⟨⟨⟨⟨⟨hstarted, hu⟩, hopen⟩, hline⟩, hrest⟩, x, hx, ⟨hended, hid⟩, hsent⟩ := hends
  have run : Run ⟨.standard, 8, "broker"⟩ 4 h s := path_of_trace? badFrame htrace
  obtain ⟨hr, hposted⟩ := (reader_eq_readStream run hx).2.2 hstarted hu hended hopen
    (by simp [hline]) hrest
  refine ⟨h, s, x, run, hx, hr, ?_⟩
  rw [hposted, hid, hsent]
  -- the stream is cut into four pieces, of which the second is no frame
  have hsplit : List.splitOn Frame.nul
      [69, 82, 82, 79, 82, 10, 10, 0, 63, 0, 69, 82, 82, 79, 82, 10, 10, 0]
        = [[69, 82, 82, 79, 82, 10, 10], [63], [69, 82, 82, 79, 82, 10, 10], []] := by decide
  have hbad : Codec.decode "a" [63] = .error .unterminatedCommand := rfl
  have hlong : tooLong 8 [69, 82, 82, 79, 82, 10, 10] = false := by decide
  have hlong' : tooLong 8 [63] = false := by decide
  have hread :
      readStream 8 "a" [69, 82, 82, 79, 82, 10, 10, 0, 63, 0, 69, 82, 82, 79, 82, 10, 10, 0]
        = ([⟨"a", some .error, [], .bytes []⟩], malformedFrame "a" .unterminatedCommand) := by
    rw [readStream, hsplit, readPieces_cons (List.cons_ne_nil _ _),
      readPieces_cons (List.cons_ne_nil _ _)]
    simp [hlong, hlong', decode_error, hbad]
  rw [hread]
  rfl

end StompRelay.Relay
