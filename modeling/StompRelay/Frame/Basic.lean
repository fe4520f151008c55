import StompRelay.Frame.Command
import StompRelay.Frame.Escape
import StompRelay.Frame.Headers
/-!
# Frames and their bytes

A frame is a command, headers and a body. On the wire it is a head of text lines, a blank line, the
body, and one NUL.

## Main definitions

* `Frame` — a command, headers and a body
* `Frame.content`, `Frame.encode` — the bytes of a frame, without and with the final NUL
* `Frame.decode` — the frame with the given content

Bytes before the first line that end lines are heart-beats; `decode` answers none where there is
nothing else. A line ends with a line feed, before which a carriage return is dropped.
-/

namespace StompRelay

/-- A command, headers and a body. -/
structure Frame where
  command : Command
  headers : Headers
  body : Bytes
  deriving DecidableEq, Repr

namespace Frame

/-- The byte that ends a frame. -/
def nul : UInt8 := 0x00

/-- The byte that ends a line. -/
def lf : UInt8 := 0x0A

/-- The byte that may stand before the end of a line. -/
def cr : UInt8 := 0x0D

/-- One of the bytes that end lines; between frames it is a heart-beat. -/
def isEol (b : UInt8) : Bool := b == lf || b == cr

/-! ### Encoding -/

/-- A name or value as it is written under a command. -/
def spell (c : Command) (s : String) : List Char :=
  if c.escapesHeaders then escape s.toList else s.toList

/-- The line of a header, with its end. -/
def headerLine (c : Command) (h : Header) : Bytes :=
  Utf8.encode (spell c h.name ++ ':' :: spell c h.value) ++ [lf]

/-- The lines of the command and the headers, and the blank line. -/
def head (f : Frame) : Bytes :=
  Utf8.encodeText f.command.token ++ [lf] ++ f.headers.flatMap (headerLine f.command) ++ [lf]

/-- The bytes of a frame before its final NUL. -/
def content (f : Frame) : Bytes := f.head ++ f.body

/-- The bytes of a frame. -/
def encode (f : Frame) : Bytes := f.content ++ [nul]

@[simp] theorem dropLast_encode (f : Frame) : f.encode.dropLast = f.content := by
  simp [encode]

/-! ### Lines -/

/-- A line without a carriage return at its end. -/
def dropCr (line : Bytes) : Bytes :=
  if line.getLast? = some cr then line.dropLast else line

/-- Splits bytes after their first line; none where no line ends. -/
def line? (bs : Bytes) : Option (Bytes × Bytes) :=
  match bs.dropWhile (· != lf) with
  | [] => none
  | _ :: rest => some (dropCr (bs.takeWhile (· != lf)), rest)

theorem length_lt_of_line? {bs line rest : Bytes} (h : line? bs = some (line, rest)) :
    rest.length < bs.length := by
  unfold line? at h
  split at h
  · cases h
  · rename_i heq
    cases h
    have hle := (List.dropWhile_sublist (l := bs) (· != lf)).length_le
    rw [heq] at hle
    exact hle

/-! ### Decoding -/

/-- The text of a line of the head. -/
def textOf (line : HeadLine) (bs : Bytes) : Except Fault String :=
  match Utf8.decodeText bs with
  | .ok s => .ok s
  | .error f => .error (.notText line f)

/-- A name or value from its written form under a command. -/
def unspell (c : Command) (cs : List Char) : Except Fault String :=
  if c.escapesHeaders then (unescape cs).map String.ofList else .ok (String.ofList cs)

/-- The header that a nonempty line holds: its name ends before the first colon. -/
def headerOf (c : Command) (line : Bytes) : Except Fault Header := do
  let s ← textOf .header line
  match s.toList.dropWhile (· != ':') with
  | [] => .error (.noColon s)
  -- later colons belong to the value
  | _ :: value =>
    let name ← unspell c (s.toList.takeWhile (· != ':'))
    let value ← unspell c value
    return ⟨name, value⟩

/-- The headers up to the blank line, after the headers `acc`, latest first; and the body. -/
def headersFrom (c : Command) (acc : Headers) (bs : Bytes) : Except Fault (Headers × Bytes) :=
  match _h : line? bs with
  | none => .error (if bs.isEmpty then .missingBlankLine else .unterminatedHeader)
  -- the blank line: what follows is the body, whatever it holds
  | some ([], rest) => .ok (acc.reverse, rest)
  | some (b :: line, rest) =>
    match headerOf c (b :: line) with
    | .error f => .error f
    | .ok h => headersFrom c (h :: acc) rest
termination_by bs.length
decreasing_by exact length_lt_of_line? _h

/-- The command that a line names. -/
def commandOf (line : Bytes) : Except Fault Command := do
  let token ← textOf .command line
  match Command.ofToken? token with
  | some c => .ok c
  | none => .error (.unknownCommand token)

/-- The frame with the given content; none where it holds nothing but heart-beats. -/
def decode (bs : Bytes) : Except Fault (Option Frame) :=
  match bs.dropWhile isEol with
  | [] => .ok none
  | b :: rest =>
    match line? (b :: rest) with
    | none => .error .unterminatedCommand
    | some (line, rest) => do
      let command ← commandOf line
      let (headers, body) ← headersFrom command [] rest
      return some ⟨command, headers, body⟩

end Frame

end StompRelay
