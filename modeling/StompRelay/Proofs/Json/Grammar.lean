import StompRelay.Json.Reader
/-!
# The grammar of JSON

Which texts write which values, said without a parser. A text spells words, with blanks wherever
they please between them, and words form a value. Nothing is said about how a string is spelled
beyond what each escape stands for, nor about the order in which the members of an object come.

## Main definitions

* `Json.CodeUnit`, `Json.Letters` — how the characters of a string are written
* `Json.Digits`, `Json.Whole`, `Json.Fraction`, `Json.Power`, `Json.NumberText` — how numbers are
* `Json.Word`, `Json.Spells` — the words that a text spells
* `Json.Forms` — the values that words form, with a bound on the containers inside each other
* `Json.WritesObject` — the members that a text writes, in the order in which they come
-/

namespace StompRelay.Json

/-! ### Strings -/

/-- Four digits in base sixteen, and the number that they write. -/
inductive CodeUnit : List Char → Nat → Prop where
  | mk {a b c d : Char} {i j k l : Nat} : hexValue? a = some i → hexValue? b = some j →
    hexValue? c = some k → hexValue? d = some l →
    CodeUnit [a, b, c, d] (((i * 16 + j) * 16 + k) * 16 + l)

/-- The text between the quotes of a string, and the characters that it stands for. -/
inductive Letters : List Char → List Char → Prop where
  | nil : Letters [] []
  | plain {c : Char} {cs ds : List Char} : ¬c < ' ' → c ≠ '"' → c ≠ '\\' → Letters cs ds →
    Letters (c :: cs) (c :: ds)
  | short {c d : Char} {cs ds : List Char} : shortEscape? c = some d → Letters cs ds →
    Letters ('\\' :: c :: cs) (d :: ds)
  | code {us cs ds : List Char} {n : Nat} : CodeUnit us n → isLeading n = false →
    isTrailing n = false → Letters cs ds →
    Letters ('\\' :: 'u' :: (us ++ cs)) (Char.ofNat n :: ds)
  /-- Both halves of a surrogate pair. -/
  | pair {us vs cs ds : List Char} {m n : Nat} : CodeUnit us m → isLeading m = true →
    CodeUnit vs n → isTrailing n = true → Letters cs ds →
    Letters ('\\' :: 'u' :: (us ++ '\\' :: 'u' :: (vs ++ cs)))
      (Char.ofNat (0x10000 + (m - 0xD800) * 0x400 + (n - 0xDC00)) :: ds)

/-! ### Numbers -/

/-- One digit or more. -/
structure Digits (ds : List Char) : Prop where
  ne_nil : ds ≠ []
  all : ∀ c ∈ ds, Numeral.isDigit c = true

/-- Digits that do not start with a zero, or one zero. -/
structure Whole (ds : List Char) : Prop where
  digits : Digits ds
  zero : ds.head? = some '0' → ds = ['0']

/-- A decimal point with digits after it, or nothing. -/
inductive Fraction : List Char → Option (List Char) → Prop where
  | absent : Fraction [] none
  | present {ds : List Char} : Digits ds → Fraction ('.' :: ds) (some ds)

/-- A power of ten, or nothing. -/
inductive Power : List Char → Option Int → Prop where
  | absent : Power [] none
  | unsigned {e : Char} {ds : List Char} : e = 'e' ∨ e = 'E' → Digits ds →
    Power (e :: ds) (some (Numeral.value ds))
  | positive {e : Char} {ds : List Char} : e = 'e' ∨ e = 'E' → Digits ds →
    Power (e :: '+' :: ds) (some (Numeral.value ds))
  | negative {e : Char} {ds : List Char} : e = 'e' ∨ e = 'E' → Digits ds →
    Power (e :: '-' :: ds) (some (-(Numeral.value ds : Int)))

/-- The texts of numbers. -/
inductive NumberText : List Char → Option Number → Prop where
  | unsigned {ds fs ps : List Char} {fraction : Option (List Char)} {power : Option Int} :
    Whole ds → Fraction fs fraction → Power ps power →
    NumberText (ds ++ (fs ++ ps)) (numberOf false ds fraction power)
  | signed {ds fs ps : List Char} {fraction : Option (List Char)} {power : Option Int} :
    Whole ds → Fraction fs fraction → Power ps power →
    NumberText ('-' :: (ds ++ (fs ++ ps))) (numberOf true ds fraction power)

/-! ### Words -/

/-- The words that end by themselves. -/
inductive Word : List Char → Token → Prop where
  | openArray : Word ['['] .openArray
  | closeArray : Word [']'] .closeArray
  | openObject : Word ['\x7b'] .openObject
  | closeObject : Word ['\x7d'] .closeObject
  | colon : Word [':'] .colon
  | comma : Word [','] .comma
  | nullName : Word ['n', 'u', 'l', 'l'] .null
  | trueName : Word ['t', 'r', 'u', 'e'] (.bool true)
  | falseName : Word ['f', 'a', 'l', 's', 'e'] (.bool false)
  | text {cs ds : List Char} : Letters cs ds →
    Word ('"' :: (cs ++ ['"'])) (.text (.ok (String.ofList ds)))

/-- What may follow a number inside a value. -/
def Ended (cs : List Char) : Prop :=
  ∀ c ∈ cs.head?, isSpace c = true ∨ c = ',' ∨ c = ']' ∨ c = '\x7d'

/-- The words that a text spells. -/
inductive Spells : List Char → List Token → Prop where
  | nil : Spells [] []
  | blank {c : Char} {cs : List Char} {ts : List Token} : isSpace c = true → Spells cs ts →
    Spells (c :: cs) ts
  | word {w cs : List Char} {t : Token} {ts : List Token} : Word w t → Spells cs ts →
    Spells (w ++ cs) (t :: ts)
  | number {w cs : List Char} {n : Option Number} {ts : List Token} : NumberText w n → Ended cs →
    Spells cs ts → Spells (w ++ cs) (.number n :: ts)

/-! ### Values -/

/-- Groups of words with commas between them. -/
def commas : List (List Token) → List Token
  | [] => []
  | [part] => part
  | part :: rest => part ++ .comma :: commas rest

/-- An item of an array: its words and its value. -/
structure Item where
  words : List Token
  value : Json

/-- A member of an object: its key, and the words and the value after the colon. -/
structure Entry extends Item where
  key : String

/-- The words of a member, its key included. -/
def Entry.allWords (e : Entry) : List Token := .text (.ok e.key) :: .colon :: e.words

/-- The key and the value of a member. -/
def Entry.member (e : Entry) : String × Json := (e.key, e.value)

/-- The words of an object with the given members. -/
def objectWords (entries : List Entry) : List Token :=
  .openObject :: (commas (entries.map Entry.allWords) ++ [.closeObject])

/-- The words of an array with the given items. -/
def arrayWords (items : List Item) : List Token :=
  .openArray :: (commas (items.map Item.words) ++ [.closeArray])

/-- The values that words form, with at most so many containers inside each other. -/
inductive Forms : Nat → List Token → Json → Prop where
  | null {d : Nat} : Forms d [.null] .null
  | bool {d : Nat} (b : Bool) : Forms d [.bool b] (.bool b)
  | number {d : Nat} (n : Number) : Forms d [.number (some n)] (.number n)
  | string {d : Nat} (s : String) : Forms d [.text (.ok s)] (.string s)
  | array {d : Nat} (items : List Item) : (∀ i ∈ items, Forms d i.words i.value) →
    Forms (d + 1) (arrayWords items) (.array (items.map Item.value))
  /-- The last of equal keys wins. -/
  | object {d : Nat} (entries : List Entry) : (∀ e ∈ entries, Forms d e.words e.value) →
    Forms (d + 1) (objectWords entries) (ofMembers (entries.map Entry.member))

/-- A text writes an object with the given members, in the order in which they come. -/
def WritesObject (cs : List Char) (members : List (String × Json)) : Prop :=
  ∃ entries : List Entry, Spells cs (objectWords entries)
    ∧ (∀ e ∈ entries, Forms (maxDepth - 1) e.words e.value)
    ∧ members = entries.map Entry.member

end StompRelay.Json
