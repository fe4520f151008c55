import StompRelay.Json.Basic
import StompRelay.Text.Utf8
/-!
# Payloads

What a message carries. A client may hand over text or a JSON value, which has to be turned into
bytes before it is sent; what comes from the broker is bytes.

## Main definitions

* `Payload` — nothing, bytes, text or a JSON value
* `Payload.raw?` — the bytes of a payload that needs no conversion
-/

namespace StompRelay

/-- What a message carries. -/
inductive Payload where
  | empty
  | bytes (bs : Bytes)
  | text (s : String)
  | json (v : Json)

/-- The bytes of a payload that needs no conversion. -/
def Payload.raw? : Payload → Option Bytes
  | .empty => some []
  | .bytes bs => some bs
  | .text _ | .json _ => none

end StompRelay
