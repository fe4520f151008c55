import StompRelay.Json.Reader
/-!
# Reading records

A record with known fields is written as an object, in which each known field may be given once and
unknown ones are skipped, or as an array of the fields in their order, of which the last may be
left out. Fields that are not given keep the value they have in the record that reading starts
from.

## Main definitions

* `Json.Reader` — reads a value off a list of tokens, at least one of which it takes
* `Json.Reader.string`, `Json.Reader.bool`, `Json.Reader.natural` — single values
* `Json.Reader.record` — a record with the given fields
-/

namespace StompRelay.Json

/-- The lists of tokens that are shorter than a given one. -/
abbrev Shorter (ts : List Token) := { rest : List Token // rest.length < ts.length }

/-- Reads a value off a list of tokens, at least one of which it takes; none where the tokens do
not start with such a value. -/
abbrev Reader (α : Type) := (ts : List Token) → Option (α × Shorter ts)

namespace Reader

/-- The value that one token stands for. -/
def token {α : Type} (f : Token → Option α) : Reader α
  | [] => none
  | t :: ts => (f t).map fun a => (a, ⟨ts, by simp⟩)

/-- A string. -/
def string : Reader String := token fun
  | .text (.ok s) => some s
  | _ => none

/-- A truth value. -/
def bool : Reader Bool := token fun
  | .bool b => some b
  | _ => none

/-- A whole number from zero up to a bound. -/
def natural (bound : Nat) : Reader Nat := token fun
  | .number (some (.whole (.ofNat n))) => if n ≤ bound then some n else none
  | _ => none

/-- A value that is not kept. -/
def skipped : Reader Unit := fun ts =>
  match h : read .skip ts with
  | .ok (_, rest) => some ((), ⟨rest, length_lt_of_read h⟩)
  | .error _ => none

/-- A field of a record: its key, and how it is read into a record. -/
abbrev Field (σ : Type) := String × (σ → Reader σ)

/-- The value of a member with the given key, read into a record; members that are not known
are skipped. -/
def member {σ : Type} (fields : List (Field σ)) (key : String) (s : σ) : Reader σ := fun ts =>
  match fields.lookup key with
  | some readInto => readInto s ts
  | none => (skipped ts).map fun (_, rest) => (s, rest)

/-- The members up to the end of an object, read into a record. The keys of known fields that have
been given are in `given`. -/
def membersFrom {σ : Type} (fields : List (Field σ)) (given : List String) (s : σ) :
    (ts : List Token) → Option (σ × Shorter ts)
  | .text (.ok key) :: .colon :: ts =>
    if key ∈ given then none
    else
      match member fields key s ts with
      | none => none
      | some (s, ⟨.closeObject :: rest, h⟩) =>
        some (s, ⟨rest, by simp only [List.length_cons] at h ⊢; omega⟩)
      | some (s, ⟨.comma :: rest, h⟩) =>
        let given := if (fields.lookup key).isSome then key :: given else given
        (membersFrom fields given s rest).map fun (s, ⟨rest', h'⟩) =>
          (s, ⟨rest', by simp only [List.length_cons] at h ⊢; omega⟩)
      | some _ => none
  | _ => none
termination_by ts => ts.length
decreasing_by simp only [List.length_cons] at h ⊢; omega

/-- The items of an array up to its end, read into a record as the given fields in order. -/
def itemsFrom {σ : Type} (s : σ) : List (Field σ) → (ts : List Token) → Option (σ × Shorter ts)
  | _, .closeArray :: ts => some (s, ⟨ts, by simp⟩)
  | (_, readInto) :: fields, .comma :: ts =>
    match readInto s ts with
    | none => none
    | some (s, ⟨rest, h⟩) =>
      (itemsFrom s fields rest).map fun (s, ⟨rest', h'⟩) =>
        (s, ⟨rest', by simp only [List.length_cons]; omega⟩)
  | _, _ => none

/-- A record with the given fields, starting from the record `s`. -/
def record {σ : Type} (fields : List (Field σ)) (s : σ) : Reader σ
  | .openObject :: .closeObject :: ts =>
    some (s, ⟨ts, by simp only [List.length_cons]; omega⟩)
  | .openObject :: ts =>
    (membersFrom fields [] s ts).map fun (s, ⟨rest, h⟩) =>
      (s, ⟨rest, by simp only [List.length_cons]; omega⟩)
  | .openArray :: .closeArray :: ts =>
    some (s, ⟨ts, by simp only [List.length_cons]; omega⟩)
  | .openArray :: ts =>
    match fields with
    | [] => none
    | (_, readInto) :: fields =>
      match readInto s ts with
      | none => none
      | some (s, ⟨rest, h⟩) =>
        (itemsFrom s fields rest).map fun (s, ⟨rest', h'⟩) =>
          (s, ⟨rest', by simp only [List.length_cons]; omega⟩)
  | _ => none

end Reader

end StompRelay.Json
