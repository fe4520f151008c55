import StompRelay.Binary64
/-!
# JSON values

## Main definitions

* `Json` — the values; the members of an object are sorted by key, each key once
* `Json.Number` — a whole number that fits 64 bits, or a binary floating-point number
* `Json.ofMembers` — the object with the given members, the last of equal keys winning
* `Json.Fault` — why a text is refused
-/

namespace StompRelay

namespace Json

/-- A number. -/
inductive Number where
  /-- A whole number from `-2 ^ 63` up to `2 ^ 64 - 1`. -/
  | whole (i : Int)
  /-- Any other number, rounded. -/
  | real (x : Binary64)
  deriving DecidableEq, Repr

/-- Why a text is refused. -/
inductive Fault where
  /-- It ends too early. -/
  | endOfInput
  /-- It is not JSON. -/
  | malformed
  /-- It is JSON of another shape than the one asked for. -/
  | wrongShape
  deriving DecidableEq, Repr

end Json

/-- A JSON value. -/
inductive Json where
  | null
  | bool (b : Bool)
  | number (n : Json.Number)
  | string (s : String)
  | array (items : List Json)
  | object (members : List (String × Json))

namespace Json

/-- Puts a member into a list sorted by key, in place of a member with the same key. -/
def insertMember {α : Type} (key : String) (value : α) : List (String × α) → List (String × α)
  | [] => [(key, value)]
  | (k, v) :: rest =>
    if key < k then (key, value) :: (k, v) :: rest
    else if key = k then (key, value) :: rest
    else (k, v) :: insertMember key value rest

/-- The object with the given members in order of reading: the last of equal keys wins. -/
def ofMembers (members : List (String × Json)) : Json :=
  .object (members.foldl (fun sorted m => insertMember m.1 m.2 sorted) [])

theorem lookup_cons_eq_ite {α : Type} (key k : String) (value : α) (ms : List (String × α)) :
    ((k, value) :: ms).lookup key = if key = k then some value else ms.lookup key := by
  by_cases h : key = k
  · simp [h]
  · rw [if_neg h, List.lookup_cons, beq_eq_false_iff_ne.mpr h]

/-- A member is found where it was put; the others are found as before. -/
theorem lookup_insertMember {α : Type} (key k : String) (value : α) (ms : List (String × α)) :
    (insertMember k value ms).lookup key = if key = k then some value else ms.lookup key := by
  induction ms with
  | nil => exact lookup_cons_eq_ite _ _ _ _
  | cons m ms ih =>
    obtain ⟨k', value'⟩ := m
    rw [insertMember]
    split
    · exact lookup_cons_eq_ite _ _ _ _
    · split
      · rename_i heq
        rw [lookup_cons_eq_ite, lookup_cons_eq_ite, heq]
        split <;> rfl
      · rename_i hne
        rw [lookup_cons_eq_ite, lookup_cons_eq_ite, ih]
        -- the key is not both the one put in and the one passed over
        grind

end Json

end StompRelay
