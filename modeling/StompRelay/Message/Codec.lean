import StompRelay.Frame.Basic
import StompRelay.Message.Basic
import StompRelay.Message.Converter
/-!
# Messages as frames

A message becomes a frame under a command that the caller chooses, its payload converted to the
body by whatever converters are in use. No part of it may hold a NUL, because the broker would end
the frame there. A frame becomes a message for the session that it was read for.

## Main definitions

* `Conversion`, `Conversion.firstOf` — what converters make of payloads
* `Codec` — messages and frames under a conversion
* `Codec.encodeWith`, `Codec.encode` — the bytes of a message under a command
* `Codec.decode` — the message in the content of a frame
-/

namespace StompRelay

/-- What the converters in use, whichever they are, make of a payload of the given declared type. -/
abbrev Conversion := Option String → Payload → Except Error Bytes

/-- What the first of some converters that accepts a payload makes of it. -/
def Conversion.firstOf (cs : List Converter) : Conversion :=
  fun contentType p => (Converter.firstOf cs).convert contentType p

/-- Turns messages into frames and back. -/
structure Codec where
  convert : Conversion

namespace Codec

/-- The codec with the standard converters. -/
def standard : Codec := ⟨fun contentType p => Converter.standard.convert contentType p⟩

/-- Whether a header holds the byte that ends frames. -/
def holdsNul (h : Header) : Bool := h.name.toList.contains '\x00' || h.value.toList.contains '\x00'

/-- The bytes of a message under a command, with the payload converted by `convert`; the command of
the message itself plays no part. -/
def encodeWith (convert : Conversion) (m : Message) (c : Command) : Except Error Bytes :=
  match m.headers.find? holdsNul with
  | some h => .error (.frame (.nulInHeader h.name))
  | none =>
    -- headers are looked at before the payload is converted
    match convert m.contentType? m.payload with
    | .error e => .error e
    | .ok body =>
      if body.contains Frame.nul then .error (.frame .nulInBody)
      else .ok (Frame.encode ⟨c, m.headers, body⟩)

/-- The bytes of a message under a command. -/
def encode (codec : Codec) (m : Message) (c : Command) : Except Error Bytes :=
  encodeWith codec.convert m c

/-- The message that a frame carries to a session. -/
def messageOf (session : SessionId) (f : Frame) : Message :=
  ⟨session, some f.command, f.headers, .bytes f.body⟩

/-- The message in the content of a frame; none where it holds nothing but heart-beats. -/
def decode (session : SessionId) (bs : Bytes) : Except Frame.Fault (Option Message) :=
  (Frame.decode bs).map (Option.map (messageOf session))

end Codec

end StompRelay
