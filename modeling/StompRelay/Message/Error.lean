import StompRelay.Frame.Fault
import StompRelay.Json.Basic
/-!
# Errors of single messages

Why a message could not be read or written.

## Main definitions

* `Error` — the reasons
* `Error.message` — their wording
-/

namespace StompRelay

/-- Why a payload has no bytes. -/
inductive ConversionFault where
  | notBytes
  | notText
  | notJson
  /-- No converter accepts the payload with the given declared type. -/
  | noConverter (contentType : Option String)
  /-- What a converter of another kind reports, in its own words. -/
  | other (text : String)
  deriving DecidableEq, Repr

/-- The wording of a fault. -/
def ConversionFault.message : ConversionFault → String
  | .notBytes => "Payload is not raw bytes"
  | .notText => "Payload is not text"
  | .notJson => "Payload is not JSON"
  | .noConverter contentType =>
    "No converter for payload with content type " ++ contentType.getD "<none>"
  | .other text => text

/-- The wording of a fault. -/
def Json.Fault.message : Json.Fault → String
  | .endOfInput => "unexpected end of input"
  | .malformed => "malformed text"
  | .wrongShape => "unexpected value"

/-- Why a message could not be read or written. -/
inductive Error where
  | frame (fault : Frame.Fault)
  | conversion (fault : ConversionFault)
  | json (fault : Json.Fault)
  deriving DecidableEq, Repr

/-- The wording of an error. -/
def Error.message : Error → String
  | .frame fault => "Frame syntax error: " ++ fault.message
  | .conversion fault => "Payload conversion error: " ++ fault.message
  | .json fault => "JSON error: " ++ fault.message

end StompRelay
