import StompRelay.Proofs.Frame.RoundTrip
import StompRelay.Proofs.Wire.Terminator
/-!
# Messages read back

A message that is encoded reads back as it was, with its payload converted, provided that its
headers can be written under the command. Encoding looks for NULs only; so a login may be encoded
whose headers are read back as other headers.

## Main results

* `Codec.decode_eq_some_iff` — a message is read exactly where a frame is
* `Codec.read_back_iff` — which messages read back
* `Codec.header_added_to_login` — a login that does not
-/

namespace StompRelay.Codec

variable {convert : Option String → Payload → Except Error Bytes} {m m' : Message} {c : Command}
  {session : SessionId} {frame body bs : Bytes} {f g : Frame}

theorem messageOf_injective (h : messageOf session f = messageOf session g) : f = g := by
  obtain ⟨command, headers, body⟩ := f
  obtain ⟨command', headers', body'⟩ := g
  cases h
  rfl

/-- A message is read exactly where a frame is. -/
theorem decode_eq_some_iff : decode session bs = .ok (some m)
    ↔ ∃ f, Frame.decode bs = .ok (some f) ∧ messageOf session f = m := by
  unfold decode
  cases Frame.decode bs with
  | error fault => simp [Except.map]
  | ok result => cases result <;> simp [Except.map]

theorem decode_eq_error_iff {fault : Frame.Fault} :
    decode session bs = .error fault ↔ Frame.decode bs = .error fault := by
  unfold decode
  cases Frame.decode bs <;> simp [Except.map]

theorem decode_messageOf_iff : decode session bs = .ok (some (messageOf session f))
    ↔ Frame.decode bs = .ok (some f) := by
  rw [decode_eq_some_iff]
  constructor
  · rintro ⟨g, hg, heq⟩
    exact messageOf_injective heq ▸ hg
  · exact fun hf => ⟨f, hf, rfl⟩

/-- A frame in which the headers can be written reads back as the message. -/
theorem decode_content_of_plain (session : SessionId)
    (hw : ¬f.command.Verbatim ∨ ∀ h ∈ f.headers, h.Plain) :
    decode session f.content = .ok (some (messageOf session f)) :=
  decode_messageOf_iff.mpr (Frame.decode_content_iff.mpr hw)

/-- What becomes of a message that is encoded, whatever converts its payload, when its bytes are
read without the final NUL.

It is read back with the command under which it was encoded, exactly its headers and the converted
payload, if the command escapes headers, or else if no name has a colon or a line feed and no value
has a line feed or ends in a carriage return. Otherwise there is a fault, or another message is
read. -/
theorem read_back_iff (h : encodeWith convert m c = .ok frame) :
    ∃ body, convert m.contentType? m.payload = .ok body
      ∧ (decode m.session frame.dropLast = .ok (some ⟨m.session, some c, m.headers, .bytes body⟩)
        ↔ ¬c.Verbatim ∨ ∀ h ∈ m.headers, h.Plain)
      ∧ (¬(¬c.Verbatim ∨ ∀ h ∈ m.headers, h.Plain) →
        (∃ fault, decode m.session frame.dropLast = .error fault)
          ∨ ∃ m', decode m.session frame.dropLast = .ok (some m')
            ∧ m' ≠ ⟨m.session, some c, m.headers, .bytes body⟩) := by
  obtain ⟨-, body, hbody, -, rfl⟩ := encodeWith_eq_ok_iff.mp h
  rw [Frame.dropLast_encode]
  refine ⟨body, hbody, decode_messageOf_iff.trans Frame.decode_content_iff, fun hw => ?_⟩
  rcases Frame.decode_content_of_not_plain (f := ⟨c, m.headers, body⟩) hw with
    ⟨fault, hfault⟩ | ⟨g, hg, hne⟩
  · exact .inl ⟨fault, decode_eq_error_iff.mpr hfault⟩
  · exact .inr ⟨_, decode_messageOf_iff.mpr hg, fun heq => hne (messageOf_injective heq)⟩

/-- A client that logs in with a line feed in its name. -/
def bobsLogin : Message := ⟨"s", some .connect, [⟨"login", "bob\npasscode:x"⟩], .empty⟩

/-- The login reads back as it is where headers are escaped. -/
theorem read_back_iff_of_send :
    ∃ frame, standard.encode bobsLogin .send = .ok frame
      ∧ decode "s" frame.dropLast = .ok (some ⟨"s", some .send, bobsLogin.headers, .bytes []⟩) := by
  have hencode : standard.encode bobsLogin .send
      = .ok (Frame.encode ⟨.send, bobsLogin.headers, []⟩) :=
    encodeWith_eq_ok_iff.mpr ⟨by decide, [], rfl, by decide, rfl⟩
  obtain ⟨body, hbody, hiff, -⟩ := read_back_iff hencode
  cases hbody
  exact ⟨_, hencode, hiff.mpr (.inl (by decide))⟩

/-- As a login it gets another header. -/
theorem header_added_to_login :
    ∃ frame, standard.encode bobsLogin .connect = .ok frame
      ∧ decode "s" frame.dropLast
        = .ok (some ⟨"s", some .connect, [⟨"login", "bob"⟩, ⟨"passcode", "x"⟩], .bytes []⟩)
      ∧ decode "s" frame.dropLast
        ≠ .ok (some ⟨"s", some .connect, bobsLogin.headers, .bytes []⟩) := by
  have hencode : standard.encode bobsLogin .connect
      = .ok (Frame.encode ⟨.connect, bobsLogin.headers, []⟩) :=
    encodeWith_eq_ok_iff.mpr ⟨by decide, [], rfl, by decide, rfl⟩
  have hread : decode "s" (Frame.content ⟨.connect, bobsLogin.headers, []⟩)
      = .ok (some (messageOf "s" ⟨.connect, [⟨"login", "bob"⟩, ⟨"passcode", "x"⟩], []⟩)) :=
    decode_messageOf_iff.mpr (by decide +kernel)
  refine ⟨_, hencode, ?_⟩
  rw [Frame.dropLast_encode]
  refine ⟨hread, fun hback => ?_⟩
  have hframe := (decode_messageOf_iff (f := ⟨.connect, bobsLogin.headers, []⟩)).mp hback
  exact absurd (Frame.decode_content_iff.mp hframe) (by decide)

end StompRelay.Codec
