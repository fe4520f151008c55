import StompRelay.Frame.Headers
import StompRelay.Json.Reader
/-!
# Reading header lists

Headers are written as an array of pairs of strings. A text that is not such an array is refused at
the first token that does not fit.

## Main definitions

* `HeaderList.Expected`, `HeaderList.step` — what may come next, and the effect of a token
* `HeaderList.parse` — the headers that a text writes
-/

namespace StompRelay.HeaderList

/-- What may come next. -/
inductive Expected where
  /-- The array of headers. -/
  | list
  /-- A pair, or the end of the array that was just opened. -/
  | firstPair
  /-- A pair. -/
  | pair
  /-- The name of a header. -/
  | name
  /-- The comma after a name. -/
  | comma (name : String)
  /-- The value of a header. -/
  | value (name : String)
  /-- The end of a pair. -/
  | pairEnd
  /-- A comma or the end of the array. -/
  | delimiter

/-- The effect of a token on the headers so far, latest first; none once the array has ended. -/
def step (acc : Headers) : Expected → Json.Token → Except Json.Fault (Headers × Option Expected)
  | .list, .openArray => .ok (acc, some .firstPair)
  | .list, t => .error t.mismatch
  | .firstPair, .closeArray => .ok (acc, none)
  | .firstPair, .openArray | .pair, .openArray => .ok (acc, some .name)
  | .firstPair, t | .pair, t => .error t.mismatch
  | .name, .text (.ok name) => .ok (acc, some (.comma name))
  | .name, .closeArray => .error .wrongShape
  | .name, t => .error t.mismatch
  | .comma name, .comma => .ok (acc, some (.value name))
  | .comma _, .closeArray => .error .wrongShape
  | .comma _, _ => .error .malformed
  | .value name, .text (.ok value) => .ok (⟨name, value⟩ :: acc, some .pairEnd)
  | .value _, t => .error t.mismatch
  | .pairEnd, .closeArray => .ok (acc, some .delimiter)
  | .pairEnd, _ => .error .malformed
  | .delimiter, .comma => .ok (acc, some .pair)
  | .delimiter, .closeArray => .ok (acc, none)
  | .delimiter, _ => .error .malformed

/-- Reads on until the array ends. -/
def readFrom (acc : Headers) (expected : Expected) :
    List Json.Token → Except Json.Fault (Headers × List Json.Token)
  | [] => .error .endOfInput
  | t :: ts =>
    match step acc expected t with
    | .error f => .error f
    | .ok (acc, none) => .ok (acc.reverse, ts)
    | .ok (acc, some expected) => readFrom acc expected ts

/-- The headers that a text writes. -/
def parse (cs : List Char) : Except Json.Fault Headers :=
  readFrom [] .list (Json.tokens cs) >>= Json.finish

end StompRelay.HeaderList
