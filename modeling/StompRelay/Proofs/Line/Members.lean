import StompRelay.Line.Event
import StompRelay.Proofs.Json.Reading
/-!
# The members of a line

A line that writes an object is read from left to right. What comes of it is told by the values that
are given under each key: its type is the one that is given, and its fields are all other members,
wherever the type stands among them.

## Main definitions

* `Json.given` — the values given under a key
* `Event.typeOf?`, `Event.fieldsOf` — the type and the fields among the members of a line
* `Event.kindAfter` — what is known of the type after some members

## Main results

* `Event.readMember_eq`, `Event.membersFrom_eq` — what members are read as
* `Event.readFields_eq` — the type and the fields of a line that writes an object
-/

namespace StompRelay

open Json

/-- The values given under a key, in the order in which they come. -/
def Json.given (members : List (String × Json)) (key : String) : List Json :=
  (members.filter fun m => m.1 = key).map Prod.snd

namespace Event

variable {members : List (String × Json)} {ts rest : List Token} {v : Json} {kind : Option Kind}
  {acc : List (String × Json)} {d : Nat}

/-! ### The members that are given -/

/-- The type that a value names. -/
def kindOf? : Json → Option Kind
  | .string s => Kind.ofName? s
  | _ => none

/-- The type of a line: that which is given once. -/
def typeOf? (members : List (String × Json)) : Option Kind :=
  match given members "type" with
  | [v] => kindOf? v
  | _ => none

/-- The members that are not the type. -/
def fieldsOf (members : List (String × Json)) : List (String × Json) :=
  members.filter fun m => m.1 ≠ "type"

/-- What a member is read as, if the type is known before or not; none where it is refused. -/
def memberOf? (known : Bool) (m : String × Json) : Option Member :=
  if m.1 = "type" then
    if known then none else (kindOf? m.2).map Member.kind
  else some (.field m.1 m.2)

/-- What is known of the type after a member. -/
def Member.kindAfter (m : Member) (kind : Option Kind) : Option Kind :=
  match m with
  | .kind k => some k
  | .field _ _ => kind

/-- The fields, latest first, after a member. -/
def Member.fieldsAfter (m : Member) (acc : List (String × Json)) : List (String × Json) :=
  match m with
  | .kind _ => acc
  | .field key v => (key, v) :: acc

/-- What is known of the type after some members; none where one is refused. -/
def kindAfter (kind : Option Kind) : List (String × Json) → Option (Option Kind)
  | [] => some kind
  | m :: ms => (memberOf? kind.isSome m).bind fun r => kindAfter (r.kindAfter kind) ms

theorem given_cons (key k : String) (v : Json) (ms : List (String × Json)) :
    given ((k, v) :: ms) key = if k = key then v :: given ms key else given ms key := by
  by_cases h : k = key <;> simp [given, h]

/-- Once the type is known, no other may come. -/
theorem kindAfter_some (k : Kind) (ms : List (String × Json)) :
    kindAfter (some k) ms = if given ms "type" = [] then some (some k) else none := by
  induction ms with
  | nil => rfl
  | cons m ms ih =>
    obtain ⟨key, v⟩ := m
    by_cases h : key = "type"
    · simp [kindAfter, memberOf?, given_cons, h]
    · simp [kindAfter, memberOf?, given_cons, h, Member.kindAfter, ih]

theorem kindAfter_none (ms : List (String × Json)) :
    kindAfter none ms
      = match given ms "type" with
        | [] => some none
        | [v] => (kindOf? v).map some
        | _ => none := by
  induction ms with
  | nil => rfl
  | cons m ms ih =>
    obtain ⟨key, v⟩ := m
    by_cases h : key = "type"
    · -- whether another type comes after this one decides
      cases hv : kindOf? v <;> cases hms : given ms "type" <;>
        simp [kindAfter, memberOf?, given_cons, h, hv, Member.kindAfter, kindAfter_some, hms]
    · simp [kindAfter, memberOf?, given_cons, h, Member.kindAfter, ih]

theorem reverse_fieldsAfter {known : Bool} {p : String × Json} {m : Member}
    (h : memberOf? known p = some m) :
    (m.fieldsAfter acc).reverse = acc.reverse ++ fieldsOf [p] := by
  unfold memberOf? at h
  split at h
  · rename_i hkey
    split at h
    · cases h
    · obtain ⟨k, -, rfl⟩ := Option.map_eq_some_iff.mp h
      simp [Member.fieldsAfter, fieldsOf, hkey]
  · rename_i hkey
    cases h
    simp [Member.fieldsAfter, fieldsOf, hkey]

/-! ### Reading the members -/

/-- The type is read off the first word of its value. -/
theorem readKind_eq (h : Forms d ts v) (rest : List Token) :
    readKind (ts ++ rest)
      = match kindOf? v with
        | some k => .ok (k, rest)
        | none => .error .wrongShape := by
  cases h <;> rfl

theorem readMember_eq {e : Entry} (h : Forms fieldDepth e.words e.value) (known : Bool)
    (rest : List Token) :
    readMember known (e.allWords ++ rest)
      = match memberOf? known e.member with
        | some m => .ok (m, rest)
        | none => .error .wrongShape := by
  rw [Entry.allWords, List.cons_append, List.cons_append, readMember, readValue, memberOf?,
    Entry.member]
  by_cases hkey : e.key = "type"
  · cases known
    · simp only [hkey, readKind_eq h]
      cases kindOf? e.value <;> rfl
    · simp [hkey]
  · simp only [hkey, h.read_eq (Nat.le_refl _)]
    rfl

theorem membersFrom_of_error {f : Fault} (h : readMember kind.isSome ts = .error f) :
    membersFrom kind acc ts = .error f := by
  rw [membersFrom]
  split
  · rename_i heq
    cases h.symm.trans heq
    rfl
  · rename_i heq
    cases h.symm.trans heq

theorem membersFrom_comma {m : Member}
    (h : readMember kind.isSome ts = .ok (m, .comma :: rest)) :
    membersFrom kind acc ts = membersFrom (m.kindAfter kind) (m.fieldsAfter acc) rest := by
  rw [membersFrom]
  split
  · rename_i heq
    cases h.symm.trans heq
  · rename_i heq
    cases h.symm.trans heq
    cases m <;> rfl

theorem membersFrom_closeObject {m : Member}
    (h : readMember kind.isSome ts = .ok (m, .closeObject :: rest)) :
    membersFrom kind acc ts = .ok ((m.kindAfter kind, (m.fieldsAfter acc).reverse), rest) := by
  rw [membersFrom]
  split
  · rename_i heq
    cases h.symm.trans heq
  · rename_i heq
    cases h.symm.trans heq
    cases m <;> rfl

theorem fieldsOf_cons (p : String × Json) (ms : List (String × Json)) :
    fieldsOf (p :: ms) = fieldsOf [p] ++ fieldsOf ms :=
  List.filter_append [p] ms

/-- The members of an object are read up to its end. -/
theorem membersFrom_eq {e : Entry} {entries : List Entry}
    (h : ∀ f ∈ e :: entries, Forms fieldDepth f.words f.value) :
    membersFrom kind acc (commas ((e :: entries).map Entry.allWords) ++ .closeObject :: rest)
      = match kindAfter kind ((e :: entries).map Entry.member) with
        | some k => .ok ((k, acc.reverse ++ fieldsOf ((e :: entries).map Entry.member)), rest)
        | none => .error .wrongShape := by
  -- one member after the other; the first that is refused ends the reading
  induction entries generalizing e kind acc with
  | nil =>
    have hread := readMember_eq (h e List.mem_cons_self) kind.isSome (.closeObject :: rest)
    simp only [List.map_cons, List.map_nil, commas, kindAfter]
    cases hm : memberOf? kind.isSome e.member with
    | none =>
      rw [hm] at hread
      exact membersFrom_of_error hread
    | some m =>
      rw [hm] at hread
      rw [membersFrom_closeObject hread, reverse_fieldsAfter hm]
      rfl
  | cons f entries ih =>
    have hread := readMember_eq (h e List.mem_cons_self) kind.isSome
      (.comma :: (commas ((f :: entries).map Entry.allWords) ++ .closeObject :: rest))
    have hwords : commas ((e :: f :: entries).map Entry.allWords) ++ .closeObject :: rest
        = e.allWords
          ++ .comma :: (commas ((f :: entries).map Entry.allWords) ++ .closeObject :: rest) := by
      simp [commas]
    have hkind : kindAfter kind ((e :: f :: entries).map Entry.member)
        = (memberOf? kind.isSome e.member).bind fun r =>
          kindAfter (r.kindAfter kind) ((f :: entries).map Entry.member) := rfl
    have hfields : fieldsOf ((e :: f :: entries).map Entry.member)
        = fieldsOf [e.member] ++ fieldsOf ((f :: entries).map Entry.member) := fieldsOf_cons _ _
    rw [hwords, hkind, hfields]
    cases hm : memberOf? kind.isSome e.member with
    | none =>
      rw [hm] at hread
      exact membersFrom_of_error hread
    | some m =>
      rw [hm] at hread
      rw [membersFrom_comma hread, ih fun g hg => h g (List.mem_cons_of_mem _ hg),
        reverse_fieldsAfter hm, List.append_assoc]
      rfl

theorem readFields_of_key (s : String) (ts : List Token) :
    readFields (.openObject :: .text (.ok s) :: ts)
      = match membersFrom none [] (.text (.ok s) :: ts) with
        | .error f => .error f
        | .ok ((some kind, members), rest) => .ok ((kind, .named members), rest)
        | .ok ((none, _), _) => .error .wrongShape := rfl

/-- A line that writes an object is read as its type, given once, and its other members. -/
theorem readFields_eq {entries : List Entry}
    (h : ∀ e ∈ entries, Forms fieldDepth e.words e.value) :
    readFields (objectWords entries)
      = match typeOf? (entries.map Entry.member) with
        | some k => .ok ((k, .named (fieldsOf (entries.map Entry.member))), [])
        | none => .error .wrongShape := by
  cases entries with
  | nil => rfl
  | cons e entries =>
    -- the object is not empty, since a key comes first
    obtain ⟨tail, htail⟩ := commas_cons e.allWords (entries.map Entry.allWords)
    have hread := @membersFrom_eq [] none [] e entries h
    rw [kindAfter_none, List.map_cons, htail, Entry.allWords] at hread
    rw [objectWords, List.map_cons, htail, Entry.allWords]
    simp only [List.cons_append] at hread ⊢
    rw [readFields_of_key, hread, typeOf?]
    -- no type, one, or more of them
    rcases given ((e :: entries).map Entry.member) "type" with _ | ⟨v, _ | ⟨w, vs⟩⟩
    · rfl
    · cases hv : kindOf? v <;> simp [hv]
    · rfl

theorem given_fieldsOf {key : String} (hkey : key ≠ "type") :
    given (fieldsOf members) key = given members key := by
  rw [given, given, fieldsOf, List.filter_filter]
  congr 1
  refine List.filter_congr fun m _ => ?_
  by_cases h : m.1 = key <;> simp [h, hkey]

end Event

end StompRelay
