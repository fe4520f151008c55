import StompRelay.Json.Printer
import StompRelay.Message.Basic
/-!
# Lines to the local bus

A message for a client is written as a JSON object on one line: its session, its command if it has
one, its headers as pairs, and its body. A body that is text is a string; any other body is the
list of its bytes.

## Main definitions

* `Headers.write` — headers as an array of pairs
* `Message.toLine` — the line of a message
* `Message.toLines` — the lines of messages, each with its end
-/

namespace StompRelay

/-- Headers as an array of pairs. -/
def Headers.write (hs : Headers) : List Char :=
  Json.writeArray
    (hs.map fun h => Json.writeArray [Json.writeString h.name, Json.writeString h.value])

/-- The member that holds the body of a message. -/
def Payload.writeBody : Payload → List Char
  | .empty => Json.writeMember "body" (Json.writeString "")
  | .text s => Json.writeMember "body" (Json.writeString s)
  | .json v => Json.writeMember "body" (Json.writeString (String.ofList v.write))
  | .bytes bs =>
    match Utf8.decodeText bs with
    | .ok s => Json.writeMember "body" (Json.writeString s)
    | .error _ =>
      Json.writeMember "body_bytes" (Json.writeArray (bs.map fun b => Numeral.write b.toNat))

/-- The line of a message, without its end. -/
def Message.toLine (m : Message) : List Char :=
  let command := match m.command with
    | none => []
    | some c => [Json.writeMember "command" (Json.writeString c.token)]
  Json.writeObject
    (Json.writeMember "session_id" (Json.writeString m.session) ::
      (command ++ [Json.writeMember "headers" m.headers.write, m.payload.writeBody]))

/-- The lines of messages in order, each with its end. -/
def Message.toLines (ms : List Message) : List Char := ms.flatMap fun m => m.toLine ++ ['\n']

end StompRelay
