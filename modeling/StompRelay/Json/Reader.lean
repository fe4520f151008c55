import StompRelay.Json.Token
/-!
# Reading JSON values

A value is read from tokens one at a time, with the containers that are open held in a list, the
innermost first. The next token either completes the value or leads to another such state, so a
value of any nesting is read by recursion on the tokens alone.

A value that is kept has to be sound throughout; one that is skipped may be nested to any depth and
may hold numbers out of range and halves of surrogate pairs.

## Main definitions

* `Json.Manner` — whether a value is kept or skipped
* `Json.Open`, `Json.Expected` — the containers that are open, and what may come next
* `Json.step`, `Json.readFrom` — the effect of one token, and of all of them
* `Json.read` — the value at the start of a list of tokens
* `Json.parse` — the value that a text writes

## Main results

* `Json.length_lt_of_read` — reading a value takes tokens off the list
-/

namespace StompRelay.Json

/-- How a value is read. -/
inductive Manner where
  /-- Into a value, with at most `depth` containers inside each other. -/
  | keep (depth : Nat)
  /-- Past it. -/
  | skip
  deriving DecidableEq, Repr

/-- A container that is open. -/
inductive Open where
  /-- An array with its items so far, latest first. -/
  | array (items : List Json)
  /-- An object with its members so far, latest first, and the key read last. -/
  | object (members : List (String × Json)) (key : String)

/-- What may come next. -/
inductive Expected where
  /-- A value. -/
  | value
  /-- A value, or the end of the array that was just opened. -/
  | item
  /-- A key, or the end of the object that was just opened. -/
  | key
  /-- A key. -/
  | nextKey
  /-- The colon after a key. -/
  | colon
  /-- A comma, or the end of the innermost container. -/
  | delimiter
  deriving DecidableEq, Repr

/-- Where reading stands after a token. -/
inductive Progress where
  /-- The value is complete. -/
  | done (v : Json)
  /-- More tokens are needed. -/
  | more (opened : List Open) (expected : Expected)

/-- Gives a complete value to the innermost container. -/
def settle (v : Json) : List Open → Progress
  | [] => .done v
  | .array items :: outer => .more (.array (v :: items) :: outer) .delimiter
  | .object members key :: outer => .more (.object ((key, v) :: members) key :: outer) .delimiter

/-- Closes the innermost container, which has to be an array. -/
def closeArray : List Open → Except Fault Progress
  | .array items :: outer => .ok (settle (.array items.reverse) outer)
  | _ => .error .malformed

/-- Closes the innermost container, which has to be an object. -/
def closeObject : List Open → Except Fault Progress
  | .object members _ :: outer => .ok (settle (ofMembers members.reverse) outer)
  | _ => .error .malformed

/-- Opens a container inside the open ones, unless they are too many. -/
def openInside (manner : Manner) (opened : List Open) (c : Open) (expected : Expected) :
    Except Fault Progress :=
  match manner with
  | .keep depth =>
    if opened.length < depth then .ok (.more (c :: opened) expected) else .error .malformed
  | .skip => .ok (.more (c :: opened) expected)

/-- What stands for a word with the given flaw: nothing where the value is kept. -/
def overlook (manner : Manner) (f : Fault) (opened : List Open) : Except Fault Progress :=
  match manner with
  | .keep _ => .error f
  | .skip => .ok (settle .null opened)

/-- The effect of a token where a value has to come. -/
def stepValue (manner : Manner) (opened : List Open) : Token → Except Fault Progress
  | .null => .ok (settle .null opened)
  | .bool b => .ok (settle (.bool b) opened)
  | .number (some n) => .ok (settle (.number n) opened)
  -- a number out of range, then a string with an unpaired surrogate
  | .number none => overlook manner .malformed opened
  | .text (.ok s) => .ok (settle (.string s) opened)
  | .text (.error f) => overlook manner f opened
  | .openArray => openInside manner opened (.array []) .item
  | .openObject => openInside manner opened (.object [] "") .key
  | .brokenText f => .error f
  | .brokenWord f => .error f
  | .closeArray | .closeObject | .colon | .comma => .error .malformed

/-- The effect of a token where a key has to come. -/
def stepKey (manner : Manner) (opened : List Open) (t : Token) : Except Fault Progress :=
  match opened with
  | .object members _ :: outer =>
    match t, manner with
    | .text (.ok s), _ => .ok (.more (.object members s :: outer) .colon)
    | .text (.error _), .skip => .ok (.more (.object members "" :: outer) .colon)
    | .text (.error f), .keep _ => .error f
    | .brokenText f, _ => .error f
    | _, _ => .error .malformed
  | _ => .error .malformed

/-- The effect of a token after a complete value inside a container. -/
def stepDelimiter (opened : List Open) : Token → Except Fault Progress
  | .comma =>
    match opened with
    | .array _ :: _ => .ok (.more opened .value)
    | .object _ _ :: _ => .ok (.more opened .nextKey)
    | [] => .error .malformed
  | .closeArray => closeArray opened
  | .closeObject => closeObject opened
  | _ => .error .malformed

/-- The effect of a token. -/
def step (manner : Manner) (opened : List Open) (expected : Expected) (t : Token) :
    Except Fault Progress :=
  match expected, t with
  | .value, t => stepValue manner opened t
  | .item, .closeArray => closeArray opened
  | .item, t => stepValue manner opened t
  | .key, .closeObject => closeObject opened
  | .key, t => stepKey manner opened t
  | .nextKey, t => stepKey manner opened t
  | .colon, .colon => .ok (.more opened .value)
  | .colon, _ => .error .malformed
  | .delimiter, t => stepDelimiter opened t

/-- Reads on until the outermost value is complete. -/
def readFrom (manner : Manner) (opened : List Open) (expected : Expected) :
    List Token → Except Fault (Json × List Token)
  | [] => .error .endOfInput
  | t :: ts =>
    match step manner opened expected t with
    | .error f => .error f
    | .ok (.done v) => .ok (v, ts)
    | .ok (.more opened expected) => readFrom manner opened expected ts

/-- The value at the start of a list of tokens, and the tokens after it. -/
def read (manner : Manner) (ts : List Token) : Except Fault (Json × List Token) :=
  readFrom manner [] .value ts

theorem length_lt_of_readFrom {manner : Manner} {opened : List Open} {expected : Expected}
    {ts rest : List Token} {v : Json} (h : readFrom manner opened expected ts = .ok (v, rest)) :
    rest.length < ts.length := by
  induction ts generalizing opened expected with
  | nil => cases h
  | cons t ts ih =>
    unfold readFrom at h
    split at h
    · cases h
    · cases h
      simp
    · exact Nat.lt_succ_of_lt (ih h)

theorem length_lt_of_read {manner : Manner} {ts rest : List Token} {v : Json}
    (h : read manner ts = .ok (v, rest)) : rest.length < ts.length :=
  length_lt_of_readFrom h

/-- How many containers of a text may be inside each other. -/
def maxDepth : Nat := 127

/-- Ends reading: nothing may follow. -/
def finish {α : Type} : α × List Token → Except Fault α
  | (a, []) => .ok a
  | (_, _ :: _) => .error .malformed

/-- The value that a text writes. -/
def parse (cs : List Char) : Except Fault Json :=
  read (.keep maxDepth) (tokens cs) >>= finish

/-- Why a token is refused where a value of another shape has to come. -/
def Token.mismatch : Token → Fault
  | .number none => .malformed
  | .text (.error f) => f
  | .brokenText f | .brokenWord f => f
  | .closeArray | .closeObject | .colon | .comma => .malformed
  | _ => .wrongShape

end StompRelay.Json
