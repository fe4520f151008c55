import Mathlib.Tactic.Choose
import StompRelay.Proofs.Json.Reading
import StompRelay.Proofs.Json.Written
/-!
# Values from their texts

The text of a value is read as that value again, whatever strings it holds, as long as its numbers
are whole numbers that fit, its objects are sorted, and no more containers are inside each other
than the reader takes.

## Main definitions

* `Json.Sorted` — the keys of members ascend
* `Json.Plain` — a value that is read back, with a bound on the containers inside each other

## Main results

* `Json.ofMembers_of_sorted` — sorted members are an object as they are
* `Json.Plain.exists_renders` — the text of a plain value is written for it
* `Json.Plain.parse_write` — reading what was written
-/

namespace StompRelay.Json

/-! ### Sorted members -/

/-- The keys of the members ascend. -/
def Sorted (members : List (String × Json)) : Prop :=
  members.Pairwise fun m n => m.1 < n.1

/-- A member whose key comes after all others is put at the end. -/
theorem insertMember_eq_append {key : String} {value : Json} {members : List (String × Json)}
    (h : ∀ m ∈ members, m.1 < key) :
    insertMember key value members = members ++ [(key, value)] := by
  induction members with
  | nil => rfl
  | cons m members ih =>
    have hlt := h m List.mem_cons_self
    have hrest := ih fun n hn => h n (List.mem_cons_of_mem _ hn)
    have hne : key ≠ m.1 := by
      intro heq
      rw [heq] at hlt
      exact String.lt_irrefl _ hlt
    rw [insertMember, if_neg (String.lt_asymm hlt), if_neg hne, hrest, List.cons_append]

theorem foldl_insertMember {acc members : List (String × Json)} (h : Sorted (acc ++ members)) :
    members.foldl (fun sorted m => insertMember m.1 m.2 sorted) acc = acc ++ members := by
  induction members generalizing acc with
  | nil => rw [List.foldl_nil, List.append_nil]
  | cons m members ih =>
    have hlast : ∀ n ∈ acc, n.1 < m.1 := fun n hn =>
      (List.pairwise_append.mp h).2.2 n hn m List.mem_cons_self
    have hmoved : Sorted ((acc ++ [m]) ++ members) := by
      rwa [List.append_assoc, List.singleton_append]
    rw [List.foldl_cons, insertMember_eq_append hlast, ih hmoved, List.append_assoc,
      List.singleton_append]

/-- Sorted members are an object as they are. -/
theorem ofMembers_of_sorted {members : List (String × Json)} (h : Sorted members) :
    ofMembers members = .object members := by
  rw [ofMembers, @foldl_insertMember [] members h, List.nil_append]

/-! ### Plain values -/

/-- A value without floating-point numbers, with at most so many containers inside each other. -/
inductive Plain : Nat → Json → Prop where
  | null {d : Nat} : Plain d .null
  | bool {d : Nat} (b : Bool) : Plain d (.bool b)
  | whole {d : Nat} {i : Int} : -maxNegated ≤ i → i ≤ maxWhole → Plain d (.number (.whole i))
  | string {d : Nat} (s : String) : Plain d (.string s)
  | array {d : Nat} {items : List Json} : (∀ v ∈ items, Plain d v) → Plain (d + 1) (.array items)
  | object {d : Nat} {members : List (String × Json)} : Sorted members →
    (∀ m ∈ members, Plain d m.2) → Plain (d + 1) (.object members)

variable {d n : Nat} {v w : Json}

theorem writeItems_eq (items : List Json) : writeItems items = items.map write := by
  induction items with
  | nil => rfl
  | cons v items ih => rw [writeItems, ih, List.map_cons]

theorem writeMembers_eq (members : List (String × Json)) :
    writeMembers members = members.map fun m => writeMember m.1 m.2.write := by
  induction members with
  | nil => rfl
  | cons m members ih => rw [writeMembers, ih, List.map_cons]

/-- A word of the grammar without a part that may vary. -/
theorem renders_word {w : List Char} {t : Token} {v : Json} (hvisible : Visible w)
    (hword : Word w t) (hforms : Forms d [t] v) : Renders d w ⟨[t], v⟩ :=
  ⟨hvisible, fun _ _ _ hcs => .word hword hcs, hforms⟩

/-- A negative number. -/
theorem renders_negative (hn : n + 1 ≤ maxNegated) :
    Renders d ('-' :: Numeral.write (n + 1))
      ⟨[.number (some (.whole (.negSucc n)))], .number (.whole (.negSucc n))⟩ := by
  refine ⟨visible_cons.mpr ⟨by decide, visible_write _⟩, fun cs us hended hcs => ?_, .number _⟩
  have hnumber := NumberText.signed (whole_write (n + 1)) .absent .absent
  rw [List.append_nil, List.append_nil] at hnumber
  have hvalue : numberOf true (Numeral.write (n + 1)) none none
      = some (.whole (.negSucc n)) := by
    simp [numberOf, wholeNumber, Numeral.value_write, hn, Int.negSucc_eq]
  rw [hvalue] at hnumber
  exact .number hnumber hended hcs

instance : Inhabited Item := ⟨.ofString ""⟩

/-- The text of a plain value is written for it. -/
theorem Plain.exists_renders (h : Plain d v) : ∃ i : Item, i.value = v ∧ Renders d v.write i := by
  induction h with
  | null => exact ⟨_, rfl, renders_word (by simp [Visible, write]) .nullName .null⟩
  | bool b =>
    cases b with
    | true => exact ⟨_, rfl, renders_word (by simp [Visible, write]) .trueName (.bool true)⟩
    | false => exact ⟨_, rfl, renders_word (by simp [Visible, write]) .falseName (.bool false)⟩
  | @whole d i hlow hhigh =>
    cases i with
    | ofNat n => exact ⟨.ofNat n, rfl, renders_natural (Int.ofNat_le.mp hhigh)⟩
    | negSucc n => exact ⟨_, rfl, renders_negative (by omega)⟩
  | string s => exact ⟨.ofString s, rfl, renders_string s⟩
  | @array d items _ ih =>
    choose! item hvalue hrenders using ih
    refine ⟨.ofItems (items.map item), ?_, ?_⟩
    · have hitems : items.map (Item.value ∘ item) = items :=
        (List.map_congr_left hvalue).trans (List.map_id' items)
      rw [Item.ofItems, List.map_map, hitems]
    · rw [write, writeItems_eq]
      exact renders_array hrenders
  | @object d members hsorted _ ih =>
    choose! item hvalue hrenders using ih
    refine ⟨.ofEntries (members.map fun m => ⟨item m, m.1⟩), ?_, ?_⟩
    · have hmembers : members.map (Entry.member ∘ fun m => ⟨item m, m.1⟩) = members := by
        refine (List.map_congr_left fun m hm => ?_).trans (List.map_id' members)
        exact congrArg (Prod.mk m.1) (hvalue m hm)
      rw [Item.ofEntries, List.map_map, hmembers, ofMembers_of_sorted hsorted]
    · have hparts := @renders_object d (members.map fun m => (m.2.write, ⟨item m, m.1⟩))
        (List.forall_mem_map.mpr hrenders)
      rw [List.map_map, List.map_map] at hparts
      rw [write, writeMembers_eq]
      exact hparts

/-- The text of a plain value is visible, and is read as the value. -/
theorem Plain.parse_write (h : Plain maxDepth v) : Visible v.write ∧ parse v.write = .ok v := by
  obtain ⟨i, rfl, hrenders⟩ := h.exists_renders
  exact ⟨hrenders.visible, parse_eq_of_forms hrenders.wrote.spells hrenders.forms⟩

end StompRelay.Json
