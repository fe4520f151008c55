import StompRelay.Line.Event
import StompRelay.Text.Blank
/-!
# The stream of lines from the local bus

Bytes from the local bus are cut into lines at line feeds; a carriage return before one is dropped,
and the last line need not end. Reading stops for good at a line that is not text. Blank lines, and
lines that write no event, are passed over.

## Main definitions

* `BusInput.lines` — the lines of a stream
* `BusInput.readable` — the lines up to the first that is not text
* `BusInput.events` — what the stream asks for
-/

namespace StompRelay.BusInput

/-- The byte that ends a line. -/
def lf : UInt8 := 0x0A

/-- The byte that is dropped before the end of a line. -/
def cr : UInt8 := 0x0D

/-- The lines of a stream, the first of which starts with the bytes `acc`, latest first. -/
def linesFrom (acc : Bytes) : Bytes → List Bytes
  | [] => if acc.isEmpty then [] else [acc.reverse]
  | b :: bs =>
    if b = lf then
      (match acc with
        | c :: rest => if c = cr then rest.reverse else acc.reverse
        | [] => []) :: linesFrom [] bs
    else linesFrom (b :: acc) bs

/-- The lines of a stream, without their ends. -/
def lines (bs : Bytes) : List Bytes := linesFrom [] bs

/-- The texts of the lines up to the first that is not text. -/
def readable : List Bytes → List (List Char)
  | [] => []
  | line :: rest =>
    match Utf8.decode line with
    | .ok cs => cs :: readable rest
    -- a line that is not text is the last that is read
    | .error _ => []

/-- The event that a line asks for, if any. -/
def event? (cs : List Char) : Option Event :=
  if (Text.trim cs).isEmpty then none
  else
    match Event.ofLine cs with
    | .ok e => some e
    | .error _ => none

/-- What a stream asks for, in order. -/
def events (bs : Bytes) : List Event := (readable (lines bs)).filterMap event?

end StompRelay.BusInput
