import StompRelay.Config.Basic
import StompRelay.Json.Record
import StompRelay.Text.Utf8
/-!
# Settings files

A settings file is a JSON text with the sections `broker` and `relay`. What it leaves out has its
default.

## Main definitions

* `Config.parse` — the settings that a text writes
* `File` — what is found under a path
* `Config.Fault` — why settings cannot be had, with its wording
* `Config.ofFile` — the settings in a file
-/

namespace StompRelay

/-! ### The text of a settings file -/

/-- The fields of the section `broker`. -/
def Broker.fields : List (Json.Reader.Field Broker) :=
  [("host", fun b ts => (Json.Reader.string ts).map fun (v, rest) => ({ b with host := v }, rest)),
   ("port", fun b ts =>
      (Json.Reader.natural maxPort ts).map fun (v, rest) => ({ b with port := v }, rest)),
   ("connect_timeout_secs", fun b ts =>
      (Json.Reader.natural maxWord ts).map fun (v, rest) => ({ b with connectTimeout := v }, rest)),
   ("tcp_nodelay", fun b ts =>
      (Json.Reader.bool ts).map fun (v, rest) => ({ b with noDelay := v }, rest))]

/-- The fields of the section `relay`. -/
def Limits.fields : List (Json.Reader.Field Limits) :=
  [("max_frame_bytes", fun l ts =>
      (Json.Reader.natural maxWord ts).map fun (v, rest) => ({ l with maxFrameBytes := v }, rest)),
   ("bus_capacity", fun l ts =>
      (Json.Reader.natural maxWord ts).map fun (v, rest) => ({ l with busCapacity := v }, rest))]

/-- The sections. -/
def Config.fields : List (Json.Reader.Field Config) :=
  [("broker", fun c ts =>
      (Json.Reader.record Broker.fields .default ts).map fun (v, rest) =>
        ({ c with broker := v }, rest)),
   ("relay", fun c ts =>
      (Json.Reader.record Limits.fields .default ts).map fun (v, rest) =>
        ({ c with relay := v }, rest))]

/-- The settings that a text writes. -/
def Config.parse (cs : List Char) : Option Config :=
  match Json.Reader.record Config.fields .default (Json.tokens cs) with
  | some (c, ⟨[], _⟩) => some c
  | _ => none

/-! ### Files -/

/-- What is found under a path. -/
inductive File where
  | absent
  | directory
  /-- The system does not open it, for a reason that it gives. -/
  | locked (reason : String)
  | regular (content : Bytes)

/-- Why a file that exists cannot be read as text. -/
inductive ReadFault where
  | directory
  | locked (reason : String)
  | notText
  deriving DecidableEq, Repr

/-- The wording of a fault. -/
def ReadFault.message : ReadFault → String
  | .directory => "Is a directory (os error 21)"
  | .locked reason => reason
  | .notText => "stream did not contain valid UTF-8"

/-- Whether something is found under the path. -/
def File.exists : File → Bool
  | .absent => false
  | _ => true

/-- Why settings cannot be had. -/
inductive Config.Fault where
  /-- The path leads nowhere. -/
  | missing (path : String)
  /-- What is there cannot be read as text. -/
  | unreadable (path : String) (fault : ReadFault)
  /-- The text there writes no settings. -/
  | unparsable (path : String)
  deriving DecidableEq, Repr

/-- The wording of a fault. -/
def Config.Fault.message : Config.Fault → String
  | .missing path => "Configuration error: Config file " ++ path ++ " does not exist"
  | .unreadable path fault =>
    "Configuration error: Failed to read config file " ++ path ++ ": " ++ fault.message
  | .unparsable path => "Configuration error: Failed to parse config file " ++ path

/-- The settings in the file under a path. -/
def Config.ofFile (path : String) : File → Except Config.Fault Config
  | .absent => .error (.missing path)
  | .directory => .error (.unreadable path .directory)
  | .locked reason => .error (.unreadable path (.locked reason))
  | .regular content =>
    match Utf8.decode content with
    | .error _ => .error (.unreadable path .notText)
    | .ok cs =>
      match Config.parse cs with
      | none => .error (.unparsable path)
      | some c => .ok c

end StompRelay
