import StompRelay.Proofs.Reading.Reference
/-!
# Delivery in order

What a reader puts on the bus is the start of what the broker's stream holds, and a notice after
the whole of it at most; once the close signal of its session has fired, no frame is added. The bus
passes everything on in this order, and nothing is lost as long as somebody receives.

## Main definitions

* `Session.lastWord?` — the notice with which a stream ends
* `Relay.Muted` — what the reader of a closed session may still have done

## Main results

* `Relay.muted_of_path` — after the close signal a reader adds no frame
* `Relay.delivered_in_order` — frames are delivered in order, without gaps, each once
-/

namespace StompRelay

/-- The notice with which the stream of a session ends, if it is not read any further. -/
def Session.lastWord? (limit : Nat) (x : Session) : Option Message :=
  if (Relay.scan limit x.id (.empty limit) x.toRelay.sent).2.isStopped || x.inputEnded then
    some ⟨x.id, some .error, [⟨"message", (Relay.readStream limit x.id x.toRelay.sent).2⟩], .empty⟩
  else none

namespace Relay

variable {setup : Setup} {busCapacity limit : Nat} {s t : Relay} {h k : History} {m : Move}
  {e : Place} {x y z : Session} {ms : List Message} {text : String}

/-! ### A part of the stream -/

theorem readStream_fst (limit : Nat) (id : SessionId) (stream : Bytes) :
    (readStream limit id stream).1 = (scan limit id (.empty limit) stream).1 := by
  rw [readStream_eq_scan]

/-- A stream of which nothing more is read ends with the notice. -/
theorem Exhausted.lastWord?_eq (hex : Exhausted limit x ms text) :
    x.lastWord? limit = some (.notice x.id text) := by
  have hover : (scan limit x.id (.empty limit) x.toRelay.sent).2.isStopped || x.inputEnded := by
    rcases hex with hstop | ⟨hended, -⟩
    · simp [hstop, Scan.isStopped]
    · simp [hended]
  rw [Session.lastWord?, if_pos hover, hex.readStream]
  rfl

/-- What has been read of the bytes that a reader has taken is a part of the whole stream. -/
theorem scan_prefix_readStream {bs chunk : Bytes} {sc : Scan}
    (htaken : x.toRelay.taken.reverse = bs ++ chunk)
    (hscan : scan limit x.id (.empty limit) bs = (ms, sc)) :
    ms <+: (readStream limit x.id x.toRelay.sent).1 := by
  rw [readStream_fst, Pipe.sent, htaken, List.append_assoc]
  exact scan_prefix_append hscan _

/-- What a reader has posted is a part of the stream, or all of it and the notice. -/
theorem Progress.posted_eq_append (hp : Progress limit h s e x) :
    ∃ ms notices, postedBy (.reader e) h = ms ++ notices
      ∧ ms <+: (readStream limit x.id x.toRelay.sent).1
      ∧ (notices = [] ∨ ∃ exit text, exits e h = [exit] ∧ exit.text? limit x.id = some text
        ∧ notices = [.notice x.id text]
        ∧ readStream limit x.id x.toRelay.sent = (ms, text)) := by
  have part (hpre : postedBy (.reader e) h <+: (readStream limit x.id x.toRelay.sent).1) :
      ∃ ms notices, postedBy (.reader e) h = ms ++ notices
        ∧ ms <+: (readStream limit x.id x.toRelay.sent).1
        ∧ (notices = [] ∨ ∃ exit text, exits e h = [exit] ∧ exit.text? limit x.id = some text
          ∧ notices = [.notice x.id text]
          ∧ readStream limit x.id x.toRelay.sent = (ms, text)) :=
    ⟨_, [], (List.append_nil _).symm, hpre, .inl rfl⟩
  have whole {ms : List Message} {text : String} (hex : Exhausted limit x ms text) :
      ms = (readStream limit x.id x.toRelay.sent).1 := by rw [hex.readStream]
  -- only a reader that has come to an end by itself has posted a notice
  cases hp with
  | idle _ _ _ hposted => exact part (by rw [hposted]; exact List.nil_prefix)
  | reading _ htaken hscan => exact part (scan_prefix_readStream htaken hscan)
  | delivering _ htaken hscan =>
    exact part ((List.prefix_append _ _).trans (scan_prefix_readStream htaken hscan))
  | notifying _ _ _ hex => exact part (whole hex ▸ List.prefix_rfl)
  | stopped _ hs =>
    cases hs with
    | cut _ _ hpre => exact part (by rw [readStream_fst]; exact hpre)
    | hushed _ _ hex => exact part (whole hex ▸ List.prefix_rfl)
    | told hexits htext hex hposted =>
      exact ⟨_, _, hposted, whole hex ▸ List.prefix_rfl,
        .inr ⟨_, _, hexits, htext, rfl, hex.readStream⟩⟩

/-! ### After the close signal -/

/-- What the reader of a session `x` that is closed may have done in some steps, after which the
session is `y`: it has posted nothing, or only the last message with which it waited before. -/
structure Muted (e : Place) (x : Session) (k : History) (y : Session) : Prop where
  closed : y.closed = true
  posted : postedBy (.reader e) k = [] ∧ (∀ m, y.reader = .notifying m → x.reader = .notifying m)
    ∨ ∃ m, x.reader = .notifying m ∧ postedBy (.reader e) k = [m]
      ∧ (y.reader = .ending ∨ y.reader = .shutting ∨ y.reader = .finished)

/-- A step of a reader that posts nothing and gets in line with no last message. -/
theorem Muted.quiet_own (hmuted : Muted e x k y) (hz : z.closed = true)
    (hbus : t.bus.posted = s.bus.posted)
    (hreader : z.reader = .ending ∨ z.reader = .shutting ∨ z.reader = .finished) :
    Muted e x (k ++ [⟨s, .act (.reader e), t⟩]) z := by
  refine ⟨hz, ?_⟩
  rw [posted_own_none hbus]
  rcases hmuted.posted with ⟨hnone, -⟩ | ⟨m, hx, hposted, -⟩
  · refine .inl ⟨hnone, ?_⟩
    intro m hm
    rcases hreader with hr | hr | hr <;> simp [hr] at hm
  · exact .inr ⟨m, hx, hposted, hreader⟩

/-- The reader of a closed session posts at most the last message with which it waits. -/
theorem Muted.own (hmuted : Muted e x k y) (step : ReaderStep setup s e y t)
    (hy : s.sessions[e]? = some y) (hz : t.sessions[e]? = some z) :
    Muted e x (k ++ [⟨s, .act (.reader e), t⟩]) z := by
  have hclosed := hmuted.closed
  -- whoever reads or delivers looks at the close signal first, so no such step is possible
  have still (hopen : y.closed = false) : False :=
    Bool.false_ne_true (hopen.symm.trans hclosed)
  cases step with
  | read _ hopen | overflow _ hopen | reject _ hopen | skip _ hopen | offer _ hopen
  | fetch _ hopen | lose _ hopen | fail _ hopen | post _ hopen => exact (still hopen).elim
  | stop | quit =>
    obtain rfl := eq_of_modifySession hy hz
    exact hmuted.quiet_own hclosed rfl (by simp)
  | abandon | hush =>
    obtain rfl := eq_of_modifySession hy hz
    exact hmuted.quiet_own (s := s) (t := s.leaveBus e .ending) hclosed rfl (by simp)
  | unregister =>
    obtain rfl := eq_of_unregister hy hz
    exact hmuted.quiet_own rfl rfl (by simp)
  | shut =>
    obtain rfl := eq_of_modifySession hy hz
    exact hmuted.quiet_own ((Session.SameInput.close y).closed hclosed) rfl (by simp)
  | @announce m hr =>
    obtain rfl := eq_of_modifySession hy hz
    rcases hmuted.posted with ⟨hnone, hx⟩ | ⟨_, _, _, hr'⟩
    · refine ⟨hclosed, .inr ⟨m, hx m hr, ?_, .inl rfl⟩⟩
      rw [postedBy_snoc (Bus.posted_post _ _ _), hnone, List.nil_append]
    · rcases hr' with hr' | hr' | hr' <;> simp [hr] at hr'

theorem Muted.step (hmuted : Muted e x k y) (ho : s.Opening) (hy : s.sessions[e]? = some y)
    (hz : t.sessions[e]? = some z) (input : InputStep setup e s t y z m) :
    Muted e x (k ++ [⟨s, m, t⟩]) z := by
  -- a reader that is started or dropped has had nothing to post
  have opened {i : CallId} {c : Call} (hc : s.calls[i]? = some c)
      (hce : c.stage.opens e = true) (hz' : z.closed = y.closed)
      (hr : ∀ m, z.reader ≠ .notifying m) : Muted e x (k ++ [⟨s, .act (.call i), t⟩]) z := by
    have hunstarted := ho.eq_unstarted hy hc hce
    refine ⟨hz'.trans hmuted.closed, .inl ⟨?_, fun m hm => absurd hm (hr m)⟩⟩
    rw [postedBy_snoc_of_ne (by simp)]
    rcases hmuted.posted with ⟨hnone, -⟩ | ⟨_, _, _, hr'⟩
    · exact hnone
    · rcases hr' with hr' | hr' | hr' <;> simp [hunstarted] at hr'
  cases input with
  | rest hm same =>
    refine ⟨same.closed hmuted.closed, ?_⟩
    rw [postedBy_snoc_of_ne hm, same.reader]
    exact hmuted.posted
  | own step => exact hmuted.own step hy hz
  | drop hc hst _ hz' =>
    exact opened hc (by simp [hst, Stage.opens]) (by rw [hz']) (by simp [hz'])
  | start hc hst _ hreader hz' =>
    refine opened hc (by simp [hst, Stage.opens]) (by rw [hz']) ?_
    rcases hreader with rfl | rfl <;> simp [hz']

/-- After the close signal a reader adds no frame to what it has posted. -/
theorem muted_of_path (run : Run setup busCapacity h s) (hx : s.sessions[e]? = some x)
    (hclosed : x.closed = true) (path : Path setup s k t) :
    ∃ y, t.sessions[e]? = some y ∧ Muted e x k y := by
  induction path with
  | nil => exact ⟨x, hx, hclosed, .inl ⟨rfl, fun _ hm => hm⟩⟩
  | snoc path hm ih =>
    obtain ⟨y, hy, hmuted⟩ := ih
    obtain ⟨z, hz, input⟩ := ((run.append path).moveStep hm).inputStep hy
    exact ⟨z, hz, hmuted.step (opening_of_run (run.append path)) hy hz input⟩

/-- The only message that a reader posts after the close signal is a notice with which it waited
before. -/
theorem posted_after_closed (run : Run setup busCapacity h s) (hx : s.sessions[e]? = some x)
    (hclosed : x.closed = true) (path : Path setup s k t) :
    postedBy (.reader e) k = []
      ∨ ∃ text, x.reader = .notifying (.notice x.id text)
        ∧ postedBy (.reader e) k = [.notice x.id text] := by
  obtain ⟨y, -, hmuted⟩ := muted_of_path run hx hclosed path
  rcases hmuted.posted with ⟨hnone, -⟩ | ⟨m, hr, hposted, -⟩
  · exact .inl hnone
  · obtain ⟨-, text, rfl, -⟩ := ((progress_of_run run e).2 x hx).of_notifying hr
    exact .inr ⟨text, hr, hposted⟩

/-! ### Delivery -/

/-- A reader that was started and not cut short has posted the whole stream when it is at rest. -/
theorem Progress.posted_at_rest (hp : Progress setup.maxFrameBytes h s e x)
    (run : Run setup busCapacity h s) (hx : s.sessions[e]? = some x) (hstarted : Started e h)
    (hu : Uncut e h) (hopen : s.bus.closed = false) (hline : Ticket.reader e ∉ s.bus.line)
    (hrest : s.step? setup (.reader e) = none) :
    postedBy (.reader e) h = (readStream setup.maxFrameBytes x.id x.toRelay.sent).1
      ++ (x.lastWord? setup.maxFrameBytes).toList := by
  -- it has finished, or waits for more with all that was sent behind it
  rcases hp.at_rest (line_of_run run) hx hstarted hline hrest with
    ⟨-, hs⟩ | ⟨frame, hr, hwaiting, hmore⟩
  · obtain ⟨ms, text, hex, hposted⟩ := hs.exhausted run hu hopen
    rw [hposted, hex.readStream, hex.lastWord?_eq]
    rfl
  · obtain ⟨-, bs, htaken, hscan⟩ := hp.of_reading hr
    have hsent : x.toRelay.sent = bs := by rw [Pipe.sent, htaken, hwaiting]; simp
    rw [← hsent] at hscan
    simp [readStream_fst, Session.lastWord?, Scan.isStopped, hscan, hmore]

/-- How what the broker sends on session `e`, which is `x`, is delivered in every run.

What its reader has put on the bus is a start of the messages in the stream, in order, and after all
of them one ERROR at most, whose only header is the reason, if the reader stopped at the end of the
stream, where fetching failed, at what is no frame, or at too large a frame. From a moment at which
the close signal has fired, no frame is added. The bus never holds more than it may, and what is
received is a start of what was put on it. When nobody can move and nothing is left to receive, and
neither has the receiver gone nor was the session closed while its reader was reading, everything in
the stream has been put on the bus, with the ERROR if there is one, and everything that was put
there has been received. -/
theorem delivered_in_order (run : Run setup busCapacity h s) (hx : s.sessions[e]? = some x) :
    (∃ ms notices, postedBy (.reader e) h = ms ++ notices
        ∧ ms <+: (readStream setup.maxFrameBytes x.id x.toRelay.sent).1
        ∧ (notices = [] ∨ ∃ exit text, exits e h = [exit]
          ∧ exit.text? setup.maxFrameBytes x.id = some text
          ∧ notices = [⟨x.id, some .error, [⟨"message", text⟩], .empty⟩]
          ∧ readStream setup.maxFrameBytes x.id x.toRelay.sent = (ms, text)))
      ∧ (x.closed = true → ∀ k t, Path setup s k t →
        postedBy (.reader e) k = []
          ∨ ∃ text, x.reader = .notifying ⟨x.id, some .error, [⟨"message", text⟩], .empty⟩
            ∧ postedBy (.reader e) k = [⟨x.id, some .error, [⟨"message", text⟩], .empty⟩])
      ∧ s.bus.queue.length ≤ max 1 busCapacity
      ∧ receipts h <+: (posts h).map Prod.snd
      ∧ (Started e h → Uncut e h → s.bus.closed = false → s.Quiet setup → s.bus.queue = [] →
        receipts h = (posts h).map Prod.snd
          ∧ postedBy (.reader e) h
            = (readStream setup.maxFrameBytes x.id x.toRelay.sent).1
              ++ (x.lastWord? setup.maxFrameBytes).toList) := by
  have hp := (progress_of_run run e).2 x hx
  refine ⟨hp.posted_eq_append, fun hclosed k t path => posted_after_closed run hx hclosed path,
    length_queue_le run, receipts_prefix_posts run, fun hstarted hu hopen quiet hqueue => ⟨?_, ?_⟩⟩
  · rw [(receipts_of_run run).2 hopen, ← posted_of_run run, Bus.posted, hqueue, List.append_nil]
  · have hline := quiet.line_eq_nil run hqueue
    exact hp.posted_at_rest run hx hstarted hu hopen (by simp [hline]) (quiet (.reader e))

/-- A broker sends a frame and what is no frame, and goes, while the bus has room for one message
and nothing is received until the reader waits in line. -/
def slowReceiver : List Move :=
  [.attach "a" 64 true false, .act (.call 0), .act (.call 0),
    .brokerPut 0 [69, 82, 82, 79, 82, 10, 10, 0, 63, 0], .brokerDrop 0]
    ++ List.replicate 12 (.act (.reader 0)) ++ [.receive]
    ++ List.replicate 3 (.act (.reader 0)) ++ [.receive]

/-- The client receives the frame and then the notice, and nothing else was on the bus. -/
theorem delivered_in_order_of_slow_receiver :
    ∃ h s, Run ⟨.standard, 8, "broker"⟩ 1 h s
      ∧ receipts h = (posts h).map Prod.snd
      ∧ postedBy (.reader 0) h = [⟨"a", some .error, [], .bytes []⟩,
        ⟨"a", some .error, [⟨"message", "Malformed frame: Malformed frame on session a: "
          ++ "Frame syntax error: Unterminated command line"⟩], .empty⟩] := by
  have hends : ((Relay.empty 1).trace? ⟨.standard, 8, "broker"⟩ slowReceiver).any (fun p =>
      Started 0 p.1 && Uncut 0 p.1 && !p.2.bus.closed && p.2.bus.queue.isEmpty
        && p.2.sessions.length = 1 && p.2.calls.length = 1
        && (p.2.step? ⟨.standard, 8, "broker"⟩ (.reader 0)).isNone
        && (p.2.step? ⟨.standard, 8, "broker"⟩ (.call 0)).isNone
        && p.2.sessions[0]?.any fun x => x.id = "a"
          && x.toRelay.sent = [69, 82, 82, 79, 82, 10, 10, 0, 63, 0]) = true := by
    decide +kernel
  obtain ⟨⟨h, s⟩, htrace, hends⟩ := (Option.any_eq_true _ _).mp hends
  simp only [Bool.and_eq_true, decide_eq_true_eq, Bool.not_eq_true', List.isEmpty_iff,
    Option.isNone_iff_eq_none, Option.any_eq_true] at hends
  obtain ⟨⟨⟨⟨⟨⟨⟨⟨hstarted, hu⟩, hopen⟩, hqueue⟩, hsessions⟩, hcalls⟩, hreader⟩, hcall⟩,
    x, hx, hid, hsent⟩ := hends
  have run : Run ⟨.standard, 8, "broker"⟩ 1 h s := path_of_trace? slowReceiver htrace
  have quiet : s.Quiet ⟨.standard, 8, "broker"⟩ := by
    intro a
    cases a with
    | reader e =>
      cases e with
      | zero => exact hreader
      | succ e => simp [step?, hsessions]
    | call i =>
      cases i with
      | zero => exact hcall
      | succ i => simp [step?, hcalls]
  obtain ⟨hreceipts, hposted⟩ :=
    (delivered_in_order run hx).2.2.2.2 hstarted hu hopen quiet hqueue
  refine ⟨h, s, run, hreceipts, ?_⟩
  have hscan : scan 8 "a" (.empty 8) [69, 82, 82, 79, 82, 10, 10, 0, 63, 0]
      = ([⟨"a", some .error, [], .bytes []⟩],
        .stopped (malformedFrame "a" .unterminatedCommand)) := by
    have hbad : Codec.decode "a" [63] = .error .unterminatedCommand := rfl
    simp [scan, Assembly.feed, Assembly.empty, Frame.nul, Frame.isEol, Frame.lf, Frame.cr,
      decode_error, hbad]
  rw [hposted, Session.lastWord?, hid, hsent, readStream_eq_scan, hscan]
  rfl

end Relay

end StompRelay
