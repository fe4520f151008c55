import StompRelay.Json.Record
import StompRelay.Proofs.Json.Reading
/-!
# Values that are passed over

A value that is not kept may be nested to any depth, and may hold numbers out of range and halves
of surrogate pairs. Its words have to form a value all the same, and no others are taken.

## Main definitions

* `Json.arrayOf`, `Json.objectOf` — groups of words between brackets
* `Json.Passes` — the words of a value that is passed over

## Main results

* `Json.Passes.readFrom_eq` — such words are passed over, whatever follows them
* `Json.skips_of_readFrom` — nothing else is
* `Json.Reader.skipped_iff` — both, for the reader of such values
-/

namespace StompRelay.Json

/-- An array of groups of words. -/
def arrayOf (parts : List (List Token)) : List Token :=
  .openArray :: (commas parts ++ [.closeArray])

/-- An object of groups of words. -/
def objectOf (parts : List (List Token)) : List Token :=
  .openObject :: (commas parts ++ [.closeObject])

/-- The words of a member: its key, a colon and the words of its value. -/
def memberWords (m : Except Fault String × List Token) : List Token := .text m.1 :: .colon :: m.2

/-- The words of a value that is passed over. -/
inductive Passes : List Token → Prop where
  | null : Passes [.null]
  | bool (b : Bool) : Passes [.bool b]
  /-- A number, in range or not. -/
  | number (n : Option Number) : Passes [.number n]
  /-- A string, sound or not. -/
  | text (s : Except Fault String) : Passes [.text s]
  | array (items : List (List Token)) : (∀ ws ∈ items, Passes ws) → Passes (arrayOf items)
  /-- Keys may be equal, and need not be sound. -/
  | object (members : List (Except Fault String × List Token)) : (∀ m ∈ members, Passes m.2) →
    Passes (objectOf (members.map memberWords))

variable {opened outer : List Open} {acc : List Json} {ms : List (String × Json)} {key : String}
  {ts rest ws : List Token} {r : Json × List Token} {n : Nat} {expected : Expected}
  {m : Except Fault String × List Token}

theorem commas_cons_cons (part part' : List Token) (parts : List (List Token)) :
    commas (part :: part' :: parts) = part ++ .comma :: commas (part' :: parts) := rfl

/-! ### What is passed over -/

/-- The words are passed over, whatever containers are open and whatever follows. -/
def Passable (ws : List Token) : Prop :=
  ∀ (opened : List Open) (rest : List Token),
    ∃ v, readFrom .skip opened .value (ws ++ rest) = resume .skip (settle v opened) rest

/-- Words that are passed over do not close an array that was just opened. -/
theorem Passable.readFrom_item (h : Passable ws) :
    readFrom .skip opened .item (ws ++ rest) = readFrom .skip opened .value (ws ++ rest) := by
  obtain ⟨v, hv⟩ := h [] []
  cases ws with
  | nil => cases hv
  | cons t ws =>
    cases t with
    | closeArray => cases hv
    | _ => rfl

/-- The items that are left of an array, up to its end. -/
theorem passable_items {item : List Token} {items : List (List Token)}
    (h : ∀ ws ∈ item :: items, Passable ws) (acc : List Json) (outer : List Open)
    (rest : List Token) :
    ∃ v, readFrom .skip (.array acc :: outer) .value
        (commas (item :: items) ++ .closeArray :: rest)
      = resume .skip (settle v outer) rest := by
  induction items generalizing item acc with
  | nil =>
    obtain ⟨v, hv⟩ := h item List.mem_cons_self (.array acc :: outer) (.closeArray :: rest)
    refine ⟨.array (v :: acc).reverse, ?_⟩
    rw [commas, hv]
    exact readFrom_cons rfl
  | cons item' items ih =>
    obtain ⟨v, hv⟩ := h item List.mem_cons_self (.array acc :: outer)
      (.comma :: (commas (item' :: items) ++ .closeArray :: rest))
    obtain ⟨w, hw⟩ := ih (fun ws hws => h ws (List.mem_cons_of_mem _ hws)) (v :: acc)
    refine ⟨w, ?_⟩
    rw [commas_cons_cons, List.append_assoc, List.cons_append, hv, settle, resume,
      readFrom_cons rfl, resume, hw]

/-- An array is passed over if its items are. -/
theorem passable_array {items : List (List Token)} (h : ∀ ws ∈ items, Passable ws) :
    Passable (arrayOf items) := by
  intro opened rest
  rw [arrayOf, List.cons_append, List.append_assoc, List.singleton_append]
  have hopen : step .skip opened .value .openArray = .ok (.more (.array [] :: opened) .item) := rfl
  rw [readFrom_cons hopen, resume]
  cases items with
  | nil =>
    refine ⟨.array [], ?_⟩
    exact readFrom_cons rfl
  | cons item items =>
    obtain ⟨v, hv⟩ := passable_items h [] opened rest
    obtain ⟨tail, htail⟩ := commas_cons item items
    rw [htail, List.append_assoc] at hv ⊢
    exact ⟨v, (h item List.mem_cons_self).readFrom_item.trans hv⟩

/-- A member, up to what follows it. -/
theorem passable_member (h : Passable m.2) (ms : List (String × Json)) (key : String)
    (hexpected : expected = .key ∨ expected = .nextKey) (outer : List Open) (rest : List Token) :
    ∃ ms' key', readFrom .skip (.object ms key :: outer) expected (memberWords m ++ rest)
      = readFrom .skip (.object ms' key' :: outer) .delimiter rest := by
  obtain ⟨s, words⟩ := m
  have hkey : ∃ key', step .skip (.object ms key :: outer) expected (.text s)
      = .ok (.more (.object ms key' :: outer) .colon) := by
    rcases hexpected with rfl | rfl <;> cases s <;> exact ⟨_, rfl⟩
  obtain ⟨key', hkey'⟩ := hkey
  obtain ⟨v, hv⟩ := h (.object ms key' :: outer) rest
  refine ⟨(key', v) :: ms, key', ?_⟩
  rw [memberWords, List.cons_append, List.cons_append, readFrom_cons hkey', resume,
    readFrom_cons rfl, resume, hv]
  rfl

/-- The members that are left of an object, up to its end. -/
theorem passable_members {members : List (Except Fault String × List Token)}
    (h : ∀ m' ∈ m :: members, Passable m'.2) (ms : List (String × Json)) (key : String)
    (hexpected : expected = .key ∨ expected = .nextKey) :
    ∃ v, readFrom .skip (.object ms key :: outer) expected
        (commas ((m :: members).map memberWords) ++ .closeObject :: rest)
      = resume .skip (settle v outer) rest := by
  induction members generalizing m ms key expected with
  | nil =>
    obtain ⟨ms', key', hm⟩ := passable_member (h m List.mem_cons_self) ms key hexpected outer
      (.closeObject :: rest)
    refine ⟨ofMembers ms'.reverse, ?_⟩
    rw [List.map_cons, List.map_nil, commas, hm]
    exact readFrom_cons rfl
  | cons m' members ih =>
    obtain ⟨ms', key', hm⟩ := passable_member (h m List.mem_cons_self) ms key hexpected outer
      (.comma :: (commas ((m' :: members).map memberWords) ++ .closeObject :: rest))
    obtain ⟨w, hw⟩ := ih (fun m'' hm'' => h m'' (List.mem_cons_of_mem _ hm'')) ms' key' (.inr rfl)
    refine ⟨w, ?_⟩
    rw [List.map_cons, List.map_cons, commas_cons_cons, List.append_assoc, List.cons_append,
      ← List.map_cons, hm, readFrom_cons rfl, resume, hw]

/-- An object is passed over if the values of its members are. -/
theorem passable_object {members : List (Except Fault String × List Token)}
    (h : ∀ m ∈ members, Passable m.2) : Passable (objectOf (members.map memberWords)) := by
  intro opened rest
  rw [objectOf, List.cons_append, List.append_assoc, List.singleton_append]
  have hopen : step .skip opened .value .openObject
      = .ok (.more (.object [] "" :: opened) .key) := rfl
  rw [readFrom_cons hopen, resume]
  cases members with
  | nil =>
    refine ⟨ofMembers [], ?_⟩
    exact readFrom_cons rfl
  | cons m members => exact passable_members h [] "" (.inl rfl)

/-- The words of a value that is passed over are, whatever follows them. -/
theorem Passes.readFrom_eq (h : Passes ws) : Passable ws := by
  induction h with
  | array items _ ih => exact passable_array ih
  | object members _ ih => exact passable_object ih
  | null | bool => exact fun _ _ => ⟨_, readFrom_cons rfl⟩
  | number n => cases n <;> exact fun _ _ => ⟨_, readFrom_cons rfl⟩
  | text s => cases s <;> exact fun _ _ => ⟨_, readFrom_cons rfl⟩

/-!
### Nothing else is

What has been read is kept on a stack, and a value inside another is read by the same loop as that.
So nothing says where it ends, but for what is left to be read: `Skips` tells the words of a value
from those after it. As the words inside a value are fewer, they are known when it comes to the
value (`SkipsBelow`).
-/

/-- Words at the start form a value, after which reading goes on. -/
def Skips (opened : List Open) (ts : List Token) (r : Json × List Token) : Prop :=
  ∃ ws rest v, ts = ws ++ rest ∧ Passes ws ∧ resume .skip (settle v opened) rest = .ok r

/-- Whatever is passed over of fewer than `n` words forms a value. -/
def SkipsBelow (n : Nat) : Prop :=
  ∀ (ts : List Token), ts.length < n → ∀ (opened : List Open) (r : Json × List Token),
    readFrom .skip opened .value ts = .ok r → Skips opened ts r

/-- What is passed over inside an array is items up to its end. -/
theorem SkipsBelow.items (ih : SkipsBelow n) (hn : ts.length < n)
    (h : readFrom .skip (.array acc :: outer) .value ts = .ok r) :
    ∃ item items rest v, ts = commas (item :: items) ++ .closeArray :: rest
      ∧ (∀ ws ∈ item :: items, Passes ws) ∧ resume .skip (settle v outer) rest = .ok r := by
  induction hk : ts.length using Nat.strongRecOn generalizing ts acc with
  | _ k ihk =>
    obtain ⟨ws, tail, v, rfl, hws, hr⟩ := ih ts hn _ _ h
    -- after an item there is a comma or the end
    cases tail with
    | nil => cases hr
    | cons t tail =>
      cases t with
      | closeArray =>
        refine ⟨ws, [], tail, _, rfl, ?_, (readFrom_cons rfl).symm.trans hr⟩
        simpa using hws
      | comma =>
        have hlt : tail.length < k := by
          rw [← hk, List.length_append, List.length_cons]
          omega
        obtain ⟨item, items, rest, w, rfl, hitems, hrest⟩ := ihk _ hlt (by omega) hr rfl
        refine ⟨ws, item :: items, rest, w, ?_, List.forall_mem_cons.mpr ⟨hws, hitems⟩, hrest⟩
        rw [commas_cons_cons, List.append_assoc, List.cons_append]
      | _ => cases hr

/-- What is passed over inside an object is members up to its end. -/
theorem SkipsBelow.members (ih : SkipsBelow n) (hn : ts.length < n)
    (h : readFrom .skip (.object ms key :: outer) .nextKey ts = .ok r) :
    ∃ m members rest v, ts = commas ((m :: members).map memberWords) ++ .closeObject :: rest
      ∧ (∀ m' ∈ m :: members, Passes m'.2) ∧ resume .skip (settle v outer) rest = .ok r := by
  induction hk : ts.length using Nat.strongRecOn generalizing ts ms key with
  | _ k ihk =>
    -- a key, a colon and a value
    obtain ⟨s, key', tail, rfl, htail⟩ : ∃ s key' tail, ts = .text s :: tail
        ∧ readFrom .skip (.object ms key' :: outer) .colon tail = .ok r := by
      cases ts with
      | nil => cases h
      | cons t tail =>
        cases t with
        | text s => cases s <;> exact ⟨_, _, tail, rfl, h⟩
        | _ => cases h
    obtain ⟨tail, rfl, hvalue⟩ : ∃ tail', tail = .colon :: tail'
        ∧ readFrom .skip (.object ms key' :: outer) .value tail' = .ok r := by
      cases tail with
      | nil => cases htail
      | cons t tail =>
        cases t with
        | colon => exact ⟨tail, rfl, htail⟩
        | _ => cases htail
    simp only [List.length_cons] at hn hk
    obtain ⟨ws, tail, v, rfl, hws, hr⟩ := ih _ (by omega) _ _ hvalue
    -- after a member there is a comma or the end
    cases tail with
    | nil => cases hr
    | cons t tail =>
      simp only [List.length_append, List.length_cons] at hn hk
      cases t with
      | closeObject =>
        refine ⟨(s, ws), [], tail, _, rfl, ?_, (readFrom_cons rfl).symm.trans hr⟩
        simpa using hws
      | comma =>
        obtain ⟨m, members, rest, w, rfl, hmembers, hrest⟩ :=
          ihk tail.length (by omega) (by omega) hr rfl
        refine ⟨(s, ws), m :: members, rest, w, ?_, List.forall_mem_cons.mpr ⟨hws, hmembers⟩,
          hrest⟩
        simp [commas, memberWords]
      | _ => cases hr

/-- What is passed over after an opening bracket is the rest of an array. -/
theorem SkipsBelow.array (ih : SkipsBelow n) (hn : ts.length < n)
    (h : readFrom .skip (.array [] :: opened) .item ts = .ok r) :
    Skips opened (.openArray :: ts) r := by
  rcases ts with _ | ⟨t, ts⟩
  · cases h
  · by_cases ht : t = .closeArray
    · subst ht
      exact ⟨arrayOf [], ts, _, rfl, .array [] (by simp), (readFrom_cons rfl).symm.trans h⟩
    · have hvalue : readFrom .skip (.array [] :: opened) .value (t :: ts) = .ok r := by
        cases t <;> first | exact h | exact absurd rfl ht
      obtain ⟨item, items, rest, v, heq, hitems, hrest⟩ := ih.items hn hvalue
      refine ⟨arrayOf (item :: items), rest, v, ?_, .array _ hitems, hrest⟩
      rw [heq, arrayOf, List.cons_append, List.append_assoc, List.singleton_append]

/-- What is passed over after an opening brace is the rest of an object. -/
theorem SkipsBelow.object (ih : SkipsBelow n) (hn : ts.length < n)
    (h : readFrom .skip (.object [] "" :: opened) .key ts = .ok r) :
    Skips opened (.openObject :: ts) r := by
  rcases ts with _ | ⟨t, ts⟩
  · cases h
  · by_cases ht : t = .closeObject
    · subst ht
      exact ⟨objectOf [], ts, _, rfl, .object [] (by simp), (readFrom_cons rfl).symm.trans h⟩
    · have hkey : readFrom .skip (.object [] "" :: opened) .nextKey (t :: ts) = .ok r := by
        cases t <;> first | exact h | exact absurd rfl ht
      obtain ⟨m, members, rest, v, heq, hmembers, hrest⟩ := ih.members hn hkey
      refine ⟨objectOf ((m :: members).map memberWords), rest, v, ?_, .object _ hmembers, hrest⟩
      rw [heq, objectOf, List.cons_append, List.append_assoc, List.singleton_append]

/-- Whatever is passed over forms a value. -/
theorem skips_of_readFrom (h : readFrom .skip opened .value ts = .ok r) : Skips opened ts r := by
  -- the values inside are shorter, so what is passed over of them is known
  induction hk : ts.length using Nat.strongRecOn generalizing ts opened r with
  | _ k ihk =>
    have ih : SkipsBelow k := fun ts' hlt opened' r' h' => ihk ts'.length hlt h' rfl
    cases ts with
    | nil => cases h
    | cons t ts =>
      have hlt : ts.length < k := by
        rw [← hk, List.length_cons]
        omega
      cases t with
      | null => exact ⟨[.null], ts, _, rfl, .null, (readFrom_cons rfl).symm.trans h⟩
      | bool b => exact ⟨[.bool b], ts, _, rfl, .bool b, (readFrom_cons rfl).symm.trans h⟩
      | number n =>
        cases n <;> exact ⟨[.number _], ts, _, rfl, .number _, (readFrom_cons rfl).symm.trans h⟩
      | text s =>
        cases s <;> exact ⟨[.text _], ts, _, rfl, .text _, (readFrom_cons rfl).symm.trans h⟩
      | openArray => exact ih.array hlt h
      | openObject => exact ih.object hlt h
      | _ => cases h

namespace Reader

/-- A value is passed over exactly if its words form one, and nothing more is taken. -/
theorem skipped_iff :
    (∃ h, skipped ts = some ((), ⟨rest, h⟩)) ↔ ∃ ws, ts = ws ++ rest ∧ Passes ws := by
  unfold skipped
  constructor
  · rintro ⟨hlt, h⟩
    split at h
    · rename_i v rest' hread
      obtain ⟨ws, rest'', w, rfl, hws, hr⟩ := skips_of_readFrom hread
      cases hr
      cases h
      exact ⟨ws, rfl, hws⟩
    · cases h
  · rintro ⟨ws, rfl, hws⟩
    obtain ⟨v, hv⟩ := hws.readFrom_eq [] rest
    have hread : read .skip (ws ++ rest) = .ok (v, rest) := hv
    refine ⟨length_lt_of_read hread, ?_⟩
    split
    · rename_i heq
      cases hread.symm.trans heq
      rfl
    · rename_i heq
      cases hread.symm.trans heq

end Reader

end StompRelay.Json
