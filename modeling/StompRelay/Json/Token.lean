import StompRelay.Json.Basic
/-!
# JSON tokens

The words of a JSON text: its punctuation, strings, numbers and names, without the blanks between
them. A text that stops being JSON inside a word yields a token that says so, and no token after
it, so a reader of the tokens meets the problems of a text in the order in which they stand there.

Two things about a word can be wrong without hiding where it ends: a string may hold half of a
surrogate pair, and a number may be too large. The token records them, and the reader decides.

## Main definitions

* `Json.Token` — the words
* `Json.scanString`, `Json.scanNumber`, `Json.scanName` — words of each kind
* `Json.scanWord` — one word
* `Json.tokens` — all words of a text
-/

namespace StompRelay.Json

/-- A word of a JSON text. -/
inductive Token where
  | openArray
  | closeArray
  | openObject
  | closeObject
  | colon
  | comma
  | null
  | bool (b : Bool)
  /-- A number; none where it is beyond the range of floating-point numbers. -/
  | number (n : Option Number)
  /-- A closed string; a fault where an escape in it is half of a surrogate pair. -/
  | text (s : Except Fault String)
  /-- A string that is broken off or holds what no string may. -/
  | brokenText (fault : Fault)
  /-- A number or name that is broken off or misspelled, or a character that starts no word. -/
  | brokenWord (fault : Fault)
  deriving Repr

/-- One of the four blanks that may stand between words. -/
def isSpace (c : Char) : Bool := c == ' ' || c == '\t' || c == '\n' || c == '\r'

/-! ### Strings -/

/-- The value of a digit in base sixteen. -/
def hexValue? (c : Char) : Option Nat :=
  if '0' ≤ c && c ≤ '9' then some (c.toNat - 48)
  else if 'a' ≤ c && c ≤ 'f' then some (c.toNat - 87)
  else if 'A' ≤ c && c ≤ 'F' then some (c.toNat - 55)
  else none

/-- Whether a text takes fewer than four bytes. -/
def underFourBytes (cs : List Char) : Bool :=
  (cs.take 4).foldl (fun n c => n + c.utf8Size) 0 < 4

/-- The number written by the four digits at the start of a text. -/
def codeUnit (cs : List Char) : Except Fault Nat :=
  match cs with
  | a :: b :: c :: d :: _ =>
    match hexValue? a, hexValue? b, hexValue? c, hexValue? d with
    | some a, some b, some c, some d => .ok (((a * 16 + b) * 16 + c) * 16 + d)
    | _, _, _, _ => .error .malformed
  | cs => if underFourBytes cs then .error .endOfInput else .error .malformed

/-- First half of a surrogate pair. -/
def isLeading (n : Nat) : Bool := 0xD800 ≤ n && n ≤ 0xDBFF

/-- Second half of a surrogate pair. -/
def isTrailing (n : Nat) : Bool := 0xDC00 ≤ n && n ≤ 0xDFFF

/-- The character that an escape whose first half is `first` writes together with the escape at
the start of a text. -/
def pairWith (first : Nat) : List Char → Except Fault Char
  | [] => .error .endOfInput
  | '\\' :: [] => .error .endOfInput
  | '\\' :: 'u' :: rest => do
    let second ← codeUnit rest
    if isTrailing second then
      .ok (Char.ofNat (0x10000 + (first - 0xD800) * 0x400 + (second - 0xDC00)))
    else .error .malformed
  | _ => .error .malformed

/-- The character that a one-letter escape writes. -/
def shortEscape? (c : Char) : Option Char :=
  if c = '"' then some '"'
  else if c = '\\' then some '\\'
  else if c = '/' then some '/'
  else if c = 'b' then some '\x08'
  else if c = 'f' then some '\x0c'
  else if c = 'n' then some '\n'
  else if c = 'r' then some '\r'
  else if c = 't' then some '\t'
  else none

/-- Keeps the first of two faults. -/
def firstFault (lone : Option Fault) (f : Fault) : Option Fault := some (lone.getD f)

/-- Scans a string after its opening quote. The characters so far are in `acc`, latest first, and
`lone` is the fault of the first unpaired surrogate. Returns the token and the text after it. -/
def scanString (acc : List Char) (lone : Option Fault) : List Char → Token × List Char
  | [] => (.brokenText (lone.getD .endOfInput), [])
  | '"' :: rest =>
    (.text (match lone with
      | none => .ok (String.ofList acc.reverse)
      | some f => .error f), rest)
  | '\\' :: [] => (.brokenText (lone.getD .endOfInput), [])
  | '\\' :: 'u' :: rest =>
    match codeUnit rest with
    | .error f => (.brokenText (lone.getD f), [])
    | .ok n =>
      -- an unpaired half is noted, and the string is scanned on: a skipped string may hold one
      if isTrailing n then scanString acc (firstFault lone .malformed) (rest.drop 4)
      else if isLeading n then
        match pairWith n (rest.drop 4) with
        -- four digits, a backslash, a letter and four digits
        | .ok c => scanString (c :: acc) lone (rest.drop 10)
        | .error f => scanString acc (firstFault lone f) (rest.drop 4)
      else scanString (Char.ofNat n :: acc) lone (rest.drop 4)
  | '\\' :: c :: rest =>
    match shortEscape? c with
    | some d => scanString (d :: acc) lone rest
    | none => (.brokenText (lone.getD .malformed), [])
  | c :: rest =>
    if c < ' ' then (.brokenText (lone.getD .malformed), [])
    else scanString (c :: acc) lone rest
termination_by cs => cs.length
decreasing_by all_goals simp only [List.length_cons, List.length_drop]; omega

/-! ### Numbers -/

/-- Splits a text after the digits at its start; there has to be one. -/
def scanDigits (cs : List Char) : Except Fault (List Char × List Char) :=
  let rest := cs.dropWhile Numeral.isDigit
  if (cs.takeWhile Numeral.isDigit).isEmpty then
    .error (if rest.isEmpty then .endOfInput else .malformed)
  else .ok (cs.takeWhile Numeral.isDigit, rest)

/-- The digits after the decimal point at the start of a text, if it starts with one. -/
def scanFraction : List Char → Except Fault (Option (List Char) × List Char)
  | '.' :: cs => (scanDigits cs).map (Prod.map some id)
  | cs => .ok (none, cs)

/-- The power of ten at the start of a text, if it starts with one. -/
def scanPower : List Char → Except Fault (Option Int × List Char)
  | c :: cs =>
    if c = 'e' ∨ c = 'E' then
      match cs with
      | '-' :: cs => (scanDigits cs).map (Prod.map (fun ds => some (-(Numeral.value ds : Int))) id)
      | '+' :: cs => (scanDigits cs).map (Prod.map (fun ds => some (Numeral.value ds : Int)) id)
      | cs => (scanDigits cs).map (Prod.map (fun ds => some (Numeral.value ds : Int)) id)
    else .ok (none, c :: cs)
  | [] => .ok (none, [])

/-- The floating-point number nearest to a decimal; none where it is too large. -/
def realNumber (negative : Bool) (whole fraction : List Char) (power : Int) : Option Number :=
  (Binary64.ofDecimal negative (Numeral.value (whole ++ fraction))
    (power - fraction.length)).map Number.real

/-- The largest whole number. -/
def maxWhole : Nat := 18446744073709551615

/-- The magnitude of the least whole number. -/
def maxNegated : Nat := 9223372036854775808

/-- The number written by digits alone. What does not fit 64 bits, and zero with a sign, is a
floating-point number. -/
def wholeNumber (negative : Bool) (digits : List Char) : Option Number :=
  let n := Numeral.value digits
  if negative then
    if 0 < n && n ≤ maxNegated then some (.whole (-n)) else realNumber true digits [] 0
  else if n ≤ maxWhole then some (.whole n)
  else realNumber false digits [] 0

/-- The number with the given parts. -/
def numberOf (negative : Bool) (whole : List Char) :
    (fraction : Option (List Char)) → (power : Option Int) → Option Number
  | none, none => wholeNumber negative whole
  | fraction, power => realNumber negative whole (fraction.getD []) (power.getD 0)

/-- The number at the start of a text, after its sign. A leading zero stands alone. -/
def scanUnsigned (negative : Bool) (cs : List Char) : Except Fault (Option Number × List Char) :=
  match scanDigits cs with
  | .error f => .error f
  | .ok (whole, rest) =>
    if 1 < whole.length ∧ whole.head? = some '0' then .error .malformed
    else
      match scanFraction rest with
      | .error f => .error f
      | .ok (fraction, rest) =>
        match scanPower rest with
        | .error f => .error f
        | .ok (power, rest) => .ok (numberOf negative whole fraction power, rest)

/-- The number at the start of a text. -/
def scanSigned : List Char → Except Fault (Option Number × List Char)
  | '-' :: rest => scanUnsigned true rest
  | cs => scanUnsigned false cs

/-- The number at the start of a text as a token. -/
def scanNumber (cs : List Char) : Token × List Char :=
  match scanSigned cs with
  | .ok (n, rest) => (.number n, rest)
  | .error f => (.brokenWord f, [])

/-! ### Names -/

/-- Scans the rest of a name, of which the letters `expected` are to come. -/
def scanName (word : Token) : (expected : List Char) → List Char → Token × List Char
  | [], rest => (word, rest)
  | _ :: _, [] => (.brokenWord .endOfInput, [])
  | e :: expected, c :: rest =>
    if c = e then scanName word expected rest else (.brokenWord .malformed, [])

/-! ### Words -/

/-- The word that starts with `c`, and the text after it. -/
def scanWord (c : Char) (rest : List Char) : Token × List Char :=
  match c with
  | '[' => (.openArray, rest)
  | ']' => (.closeArray, rest)
  | '\x7b' => (.openObject, rest)
  | '\x7d' => (.closeObject, rest)
  | ':' => (.colon, rest)
  | ',' => (.comma, rest)
  | '"' => scanString [] none rest
  | 'n' => scanName .null ['u', 'l', 'l'] rest
  | 't' => scanName (.bool true) ['r', 'u', 'e'] rest
  | 'f' => scanName (.bool false) ['a', 'l', 's', 'e'] rest
  | c =>
    if c = '-' || Numeral.isDigit c then scanNumber (c :: rest) else (.brokenWord .malformed, [])

theorem length_scanString_le (acc : List Char) (lone : Option Fault) (cs : List Char) :
    (scanString acc lone cs).2.length ≤ cs.length := by
  fun_induction scanString acc lone cs <;> simp_all <;> omega

theorem length_scanName_le (word : Token) (expected cs : List Char) :
    (scanName word expected cs).2.length ≤ cs.length := by
  fun_induction scanName word expected cs <;> simp_all
  omega

/-! ### Scanning takes something off the text -/

theorem length_dropWhile_le {α : Type} (p : α → Bool) (l : List α) :
    (l.dropWhile p).length ≤ l.length :=
  (List.dropWhile_sublist p).length_le

theorem length_dropWhile_lt {α : Type} {p : α → Bool} {l : List α}
    (h : (l.takeWhile p).isEmpty = false) : (l.dropWhile p).length < l.length := by
  cases l with
  | nil => simp at h
  | cons a l =>
    by_cases ha : p a = true
    · simpa [List.dropWhile_cons, ha] using Nat.lt_succ_of_le (length_dropWhile_le p l)
    · simp [ha] at h

theorem length_lt_of_scanDigits {cs ds rest : List Char} (h : scanDigits cs = .ok (ds, rest)) :
    rest.length < cs.length := by
  unfold scanDigits at h
  extract_lets tail at h
  split at h
  · cases h
  · rename_i hne
    injection h with h
    injection h with _ h
    subst h
    exact length_dropWhile_lt (by simpa using hne)

/-- Digits turned into something else leave the same rest. -/
theorem length_lt_of_map_scanDigits {α : Type} {f : List Char → α} {cs rest : List Char} {a : α}
    (h : (scanDigits cs).map (Prod.map f id) = .ok (a, rest)) :
    rest.length < cs.length := by
  cases hs : scanDigits cs with
  | error e => rw [hs] at h; cases h
  | ok p =>
    obtain ⟨ds, tail⟩ := p
    rw [hs] at h
    cases h
    exact length_lt_of_scanDigits hs

theorem length_le_of_scanFraction {cs rest : List Char} {ds : Option (List Char)}
    (h : scanFraction cs = .ok (ds, rest)) : rest.length ≤ cs.length := by
  unfold scanFraction at h
  split at h
  · exact Nat.le_succ_of_le (Nat.le_of_lt (length_lt_of_map_scanDigits h))
  · cases h
    exact Nat.le_refl _

theorem length_le_of_scanPower {cs rest : List Char} {power : Option Int}
    (h : scanPower cs = .ok (power, rest)) : rest.length ≤ cs.length := by
  unfold scanPower at h
  split at h
  · split at h
    · split at h
      all_goals
        have := length_lt_of_map_scanDigits h
        simp only [List.length_cons]
        omega
    · cases h
      exact Nat.le_refl _
  · cases h
    exact Nat.le_refl _

theorem length_lt_of_scanUnsigned {negative : Bool} {cs rest : List Char} {n : Option Number}
    (h : scanUnsigned negative cs = .ok (n, rest)) : rest.length < cs.length := by
  unfold scanUnsigned at h
  split at h
  · cases h
  · rename_i hd
    split at h
    · cases h
    · split at h
      · cases h
      · rename_i hf
        split at h
        · cases h
        · rename_i hp
          cases h
          have := length_lt_of_scanDigits hd
          have := length_le_of_scanFraction hf
          have := length_le_of_scanPower hp
          omega

theorem length_scanNumber_le (c : Char) (cs : List Char) :
    (scanNumber (c :: cs)).2.length ≤ cs.length := by
  unfold scanNumber
  split
  · rename_i h
    unfold scanSigned at h
    split at h
    · rename_i heq
      cases heq
      exact Nat.le_of_lt (length_lt_of_scanUnsigned h)
    · exact Nat.le_of_lt_succ (length_lt_of_scanUnsigned h)
  · exact Nat.zero_le _

theorem length_scanWord_le (c : Char) (cs : List Char) :
    (scanWord c cs).2.length ≤ cs.length := by
  unfold scanWord
  split
  case h_7 => exact length_scanString_le _ _ _
  case h_8 => exact length_scanName_le _ _ _
  case h_9 => exact length_scanName_le _ _ _
  case h_10 => exact length_scanName_le _ _ _
  case h_11 =>
    split
    · exact length_scanNumber_le _ _
    · exact Nat.zero_le _
  all_goals exact Nat.le_refl _

/-! ### All words -/

/-- The words of a text, after the words `acc`, latest first. -/
def tokensFrom (acc : List Token) : List Char → List Token
  | [] => acc.reverse
  | c :: rest =>
    if isSpace c then tokensFrom acc rest
    else tokensFrom ((scanWord c rest).1 :: acc) (scanWord c rest).2
termination_by cs => cs.length
decreasing_by
  · simp
  · exact Nat.lt_succ_of_le (length_scanWord_le c rest)

/-- The words of a text, up to the first broken one. -/
def tokens (cs : List Char) : List Token := tokensFrom [] cs

end StompRelay.Json
