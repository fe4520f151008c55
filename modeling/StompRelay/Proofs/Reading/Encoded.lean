import StompRelay.Proofs.Message.RoundTrip
import StompRelay.Proofs.Reading.Reference
/-!
# Reading what was encoded

Messages that are encoded one after the other are cut apart again at their NULs, whatever their
commands. A reader that gets them, with heart-beats anywhere between them, posts them as they were
if their headers can be written, and then that the connection was lost.

## Main definitions

* `Relay.Interspersed` — frames with heart-beats before, between and after them

## Main results

* `Relay.readStream_of_interspersed` — a stream of frames is read as their messages
* `Relay.encoded_stream_read` — what a reader makes of messages that were encoded
-/

namespace StompRelay

/-! ### Encoded messages -/

namespace Codec

variable {convert : Option String → Payload → Except Error Bytes} {pairs : List (Message × Command)}
  {frames : List Bytes}

/-- The frames under which messages were encoded. -/
theorem exists_frames_of_encodeWith
    (hframes : List.Forall₂ (fun p frame => encodeWith convert p.1 p.2 = .ok frame) pairs frames) :
    ∃ fs : List Frame, frames = fs.map Frame.encode ∧ (∀ f ∈ fs, Frame.nul ∉ f.content)
      ∧ (∀ f ∈ fs, ∃ p ∈ pairs, f.command = p.2 ∧ f.headers = p.1.headers)
      ∧ List.Forall₂ (fun p f => ∃ body, convert p.1.contentType? p.1.payload = .ok body
        ∧ f = Frame.mk p.2 p.1.headers body) pairs fs := by
  induction hframes with
  | nil => exact ⟨[], rfl, by simp, by simp, .nil⟩
  | @cons p _ pairs _ hframe _ ih =>
    obtain ⟨hheaders, body, hbody, hnul, rfl⟩ := encodeWith_eq_ok_iff.mp hframe
    obtain ⟨fs, rfl, hnuls, hpairs, hfs⟩ := ih
    refine ⟨⟨p.2, p.1.headers, body⟩ :: fs, rfl, ?_, ?_, .cons ⟨body, hbody, rfl⟩ hfs⟩
    · exact List.forall_mem_cons.mpr ⟨Frame.nul_notMem_content hheaders hnul, hnuls⟩
    · refine List.forall_mem_cons.mpr ⟨⟨p, List.mem_cons_self, rfl, rfl⟩, fun f hf => ?_⟩
      obtain ⟨q, hq, hparts⟩ := hpairs f hf
      exact ⟨q, List.mem_cons_of_mem _ hq, hparts⟩

end Codec

namespace Relay

/-! ### Streams of frames -/

/-- Streams of frames with heart-beats before, between and after them. -/
inductive Interspersed : List Bytes → Bytes → Prop where
  | nil {beats : Bytes} : (∀ b ∈ beats, Frame.isEol b = true) → Interspersed [] beats
  | cons {beats frame stream : Bytes} {frames : List Bytes} :
    (∀ b ∈ beats, Frame.isEol b = true) → Interspersed frames stream →
    Interspersed (frame :: frames) (beats ++ (frame ++ stream))

section Streams

variable {limit : Nat} {id : SessionId} {beats stream : Bytes} {f : Frame} {fs : List Frame}

theorem nul_notMem_of_isEol (hbeats : ∀ b ∈ beats, Frame.isEol b = true) : Frame.nul ∉ beats :=
  fun hmem => absurd (hbeats _ hmem) (by decide)

/-- Heart-beats do not count for the length of a frame. -/
theorem tooLong_append_content (hbeats : ∀ b ∈ beats, Frame.isEol b = true) (f : Frame)
    (hsize : f.content.length ≤ limit) : tooLong limit (beats ++ f.content) = false := by
  obtain ⟨b, rest, hcontent, heol⟩ := f.content_begins
  have hdrop : f.content.dropWhile Frame.isEol = f.content := by
    rw [hcontent, List.dropWhile_cons_of_neg (by simp [heol])]
  rw [tooLong, List.dropWhile_append_of_pos hbeats, hdrop]
  simpa using hsize

/-- A stream of frames, with heart-beats between them, is read as the messages in them. -/
theorem readStream_of_interspersed
    (hread : ∀ f ∈ fs, ¬f.command.Verbatim ∨ ∀ h ∈ f.headers, h.Plain)
    (hnul : ∀ f ∈ fs, Frame.nul ∉ f.content) (hsize : ∀ f ∈ fs, f.content.length ≤ limit)
    (hstream : Interspersed (fs.map Frame.encode) stream) :
    readStream limit id stream = (fs.map (Codec.messageOf id), "Lost connection") := by
  induction fs generalizing stream with
  | nil =>
    cases hstream with
    | nil hbeats =>
      have hdrop := List.dropWhile_eq_nil_iff.mpr hbeats
      rw [readStream, List.splitOn_eq_singleton (nul_notMem_of_isEol hbeats)]
      simp [readPieces, tooLong, hdrop]
  | cons f fs ih =>
    rw [List.forall_mem_cons] at hread hnul hsize
    generalize hframes : (f :: fs).map Frame.encode = frames at hstream
    cases hstream with
    | nil => cases hframes
    | @cons beats frame rest frames hbeats hrest =>
      obtain ⟨rfl, rfl⟩ := List.cons.inj hframes
      have hpiece : Frame.nul ∉ beats ++ f.content := by
        rw [List.mem_append, not_or]
        exact ⟨nul_notMem_of_isEol hbeats, hnul.1⟩
      have hdecode : Codec.decode id (beats ++ f.content) = .ok (some (Codec.messageOf id f)) := by
        rw [Codec.decode, Frame.decode_append hbeats]
        exact Codec.decode_content_of_plain id hread.1
      have hsplit : beats ++ (f.encode ++ rest) = (beats ++ f.content) ++ Frame.nul :: rest := by
        simp [Frame.encode]
      rw [readStream, hsplit, List.splitOn_append_cons_self_of_not_mem hpiece,
        readPieces_cons (List.splitOn_ne_nil _ _), tooLong_append_content hbeats f hsize.1, hdecode]
      have := ih hread.2 hnul.2 hsize.2 hrest
      rw [readStream] at this
      simp [this]

end Streams

/-! ### Readers -/

/-- What becomes of messages that are encoded one after the other, whatever converts their payloads.

Each of them ends in a NUL, has no other NUL and does not begin like a heart-beat, so all of them
together come apart at the NULs. If under the commands of a login no name has a colon or a line feed
and no value has a line feed or ends in a carriage return, and heart-beats are put before, between
and after them, then in every run the reader of a session `e`, which is `x`, to which the broker
sends that stream takes a bounded number of steps. If it was started, the broker has gone or nothing
more can be fetched, no frame has more bytes than a frame may have, nobody closed the session while
it was reading and the bus keeps up, then it has finished when it can move no more, and it has put
on the bus exactly one message for each that was encoded, in order, with the session, the command,
the headers and the converted payload, and an ERROR whose only header says that the connection was
lost. -/
theorem encoded_stream_read {convert : Option String → Payload → Except Error Bytes}
    {pairs : List (Message × Command)} {frames : List Bytes}
    (hframes : List.Forall₂ (fun p frame => Codec.encodeWith convert p.1 p.2 = .ok frame)
      pairs frames) :
    (∀ frame ∈ frames, ∃ b content, frame = b :: content ++ [Frame.nul]
        ∧ Frame.nul ∉ b :: content ∧ Frame.isEol b = false)
      ∧ frames.flatten.splitOn Frame.nul = frames.map List.dropLast ++ [[]]
      ∧ ((∀ p ∈ pairs, p.2.Verbatim → ∀ h ∈ p.1.headers, h.Plain) →
        ∀ (setup : Setup) (busCapacity : Nat) (h : History) (s : Relay) (e : Place) (x : Session),
          Run setup busCapacity h s → s.sessions[e]? = some x →
          Interspersed frames x.toRelay.sent →
          stepsOf (.reader e) h ≤ 3 * x.toRelay.sent.length + 4
            ∧ ((∀ frame ∈ frames, frame.length - 1 ≤ setup.maxFrameBytes) → Started e h →
              Uncut e h → x.inputEnded = true → s.bus.closed = false →
              Ticket.reader e ∉ s.bus.line → s.step? setup (.reader e) = none →
              x.reader = .finished
                ∧ ∃ ms, postedBy (.reader e) h
                    = ms ++ [⟨x.id, some .error, [⟨"message", "Lost connection"⟩], .empty⟩]
                  ∧ List.Forall₂ (fun p m => ∃ body,
                    convert p.1.contentType? p.1.payload = .ok body
                      ∧ m = Message.mk x.id (some p.2) p.1.headers (.bytes body)) pairs ms)) := by
  obtain ⟨fs, rfl, hnul, hpairs, hfs⟩ := Codec.exists_frames_of_encodeWith hframes
  refine ⟨?_, ?_, ?_⟩
  · intro frame hframe
    obtain ⟨f, hf, rfl⟩ := List.mem_map.mp hframe
    obtain ⟨b, rest, hcontent, heol⟩ := f.content_begins
    refine ⟨b, rest, ?_, hcontent ▸ hnul f hf, heol⟩
    rw [Frame.encode, hcontent]
  · have hends : ∀ frame ∈ fs.map Frame.encode,
        ∃ content, frame = content ++ [Frame.nul] ∧ Frame.nul ∉ content := by
      intro frame hframe
      obtain ⟨f, hf, rfl⟩ := List.mem_map.mp hframe
      exact ⟨f.content, rfl, hnul f hf⟩
    simpa using Codec.splitOn_flatten hends List.not_mem_nil
  · intro hplain setup busCapacity h s e x run hx hstream
    refine ⟨stepsOf_le run hx, ?_⟩
    intro hsize hstarted hu hended hopen hline hrest
    have hread : ∀ f ∈ fs, ¬f.command.Verbatim ∨ ∀ h ∈ f.headers, h.Plain := by
      intro f hf
      obtain ⟨p, hp, hcommand, hheaders⟩ := hpairs f hf
      rw [hcommand, hheaders]
      by_cases hc : p.2.Verbatim
      · exact .inr (hplain p hp hc)
      · exact .inl hc
    have hsize' : ∀ f ∈ fs, f.content.length ≤ setup.maxFrameBytes := by
      intro f hf
      simpa [Frame.encode] using hsize f.encode (List.mem_map_of_mem hf)
    obtain ⟨hr, hposted⟩ := ((progress_of_run run e).2 x hx).finished_at_rest run hx hstarted hu
      hended hopen hline hrest
    rw [readStream_of_interspersed hread hnul hsize' hstream] at hposted
    refine ⟨hr, _, hposted, ?_⟩
    rw [List.forall₂_map_right_iff]
    refine hfs.imp ?_
    rintro p f ⟨body, hbody, rfl⟩
    exact ⟨body, hbody, rfl⟩

/-- A login whose header need not be escaped, and a message whose header must be. -/
def loginAndSend : List (Message × Command) :=
  [(⟨"c", none, [⟨"a", "b"⟩], .empty⟩, .stomp), (⟨"c", none, [⟨":", "\n"⟩], .bytes [72]⟩, .send)]

/-- The bytes of the login. -/
def loginFrame : Bytes := [83, 84, 79, 77, 80, 10, 97, 58, 98, 10, 10, 0]

/-- The bytes of the message. -/
def sendFrame : Bytes := [83, 69, 78, 68, 10, 92, 99, 58, 92, 110, 10, 10, 72, 0]

/-- Both, with heart-beats before, between and after them. -/
def beatsBetween : Bytes := [10] ++ (loginFrame ++ ([13, 10] ++ (sendFrame ++ [10])))

/-- A broker sends them back and goes. -/
def echo : List Move :=
  [.attach "a" 64 true false, .act (.call 0), .act (.call 0), .brokerPut 0 beatsBetween,
    .brokerDrop 0] ++ List.replicate 37 (.act (.reader 0))

/-- The client gets both messages and the notice. -/
theorem encoded_stream_read_of_echo :
    ∃ h s x, Run ⟨.standard, 13, "broker"⟩ 4 h s ∧ s.sessions[0]? = some x
      ∧ x.reader = .finished
      ∧ postedBy (.reader 0) h = [⟨"a", some .stomp, [⟨"a", "b"⟩], .bytes []⟩,
        ⟨"a", some .send, [⟨":", "\n"⟩], .bytes [72]⟩,
        ⟨"a", some .error, [⟨"message", "Lost connection"⟩], .empty⟩] := by
  have hends : ((Relay.empty 4).trace? ⟨.standard, 13, "broker"⟩ echo).any (fun p =>
      Started 0 p.1 && Uncut 0 p.1 && !p.2.bus.closed && p.2.bus.line.isEmpty
        && (p.2.step? ⟨.standard, 13, "broker"⟩ (.reader 0)).isNone
        && p.2.sessions[0]?.any fun x => x.inputEnded && x.id = "a"
          && x.toRelay.sent = beatsBetween) = true := by
    decide +kernel
  obtain ⟨⟨h, s⟩, htrace, hends⟩ := (Option.any_eq_true _ _).mp hends
  simp only [Bool.and_eq_true, decide_eq_true_eq, Bool.not_eq_true', List.isEmpty_iff,
    Option.isNone_iff_eq_none, Option.any_eq_true] at hends
  obtain ⟨⟨⟨⟨⟨hstarted, hu⟩, hopen⟩, hline⟩, hrest⟩, x, hx, ⟨hended, hid⟩, hsent⟩ := hends
  have run : Run ⟨.standard, 13, "broker"⟩ 4 h s := path_of_trace? echo htrace
  have hframes : List.Forall₂ (fun p frame => Codec.standard.encode p.1 p.2 = .ok frame)
      loginAndSend [loginFrame, sendFrame] :=
    .cons (Codec.encodeWith_eq_ok_iff.mpr ⟨by decide, [], rfl, by decide, by decide⟩)
      (.cons (Codec.encodeWith_eq_ok_iff.mpr ⟨by decide, [72], rfl, by decide, by decide⟩) .nil)
  have hstream : Interspersed [loginFrame, sendFrame] x.toRelay.sent := by
    rw [hsent]
    have hlf : Frame.isEol 10 = true := rfl
    have hcr : Frame.isEol 13 = true := rfl
    exact .cons (by simp [hlf]) (.cons (by simp [hlf, hcr]) (.nil (by simp [hlf])))
  obtain ⟨hr, ms, hposted, hms⟩ := ((encoded_stream_read hframes).2.2 (by decide) _ _ h s 0 x run hx
    hstream).2 (by decide) hstarted hu hended hopen (by simp [hline]) hrest
  refine ⟨h, s, x, run, hx, hr, ?_⟩
  obtain ⟨_, _, ⟨body, hbody, rfl⟩, hmore, rfl⟩ := List.forall₂_cons_left_iff.mp hms
  obtain ⟨_, _, ⟨body', hbody', rfl⟩, hnone, rfl⟩ := List.forall₂_cons_left_iff.mp hmore
  obtain rfl := List.forall₂_nil_left_iff.mp hnone
  cases hbody
  cases hbody'
  rw [hposted, hid]
  rfl

end Relay

end StompRelay
