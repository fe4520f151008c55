import Mathlib.Data.List.Nodup
import StompRelay.Proofs.Json.Skipping
/-!
# Records and their words

A record is read off an object or an array. What comes of it is told by the words that are given
for each of its fields, whatever the order of the members. A field may be given once; members that
are not known are passed over.

A field is taken here as a slot, which holds one value of the record and can be filled alone. The
fields of a record make it up, so a record is what its slots are filled with.

## Main definitions

* `Json.Reader.Reads` — a reader takes the words of a form, and no others
* `Json.Slot`, `Json.Lawful` — the fields of a record, and that they make it up
* `Json.RecordWords` — the words of a record, with those given for each field
* `Json.Gives` — a record is filled with what is given for its fields

## Main results

* `Json.Lawful.filling_iff` — members fill a record one after another just as they do all together
* `Json.Lawful.reads_record` — what records are read from
-/

namespace StompRelay.Json

/-! ### Readers and forms -/

namespace Reader

variable {α : Type}

/-- The value that is read, and the words after it. -/
def run (r : Reader α) (ts : List Token) : Option (α × List Token) :=
  (r ts).map fun p => (p.1, p.2.1)

/-- A reader takes the words of a form off any list, and no others. -/
def Reads (r : Reader α) (form : List Token → α → Prop) : Prop :=
  ∀ ts a rest, r.run ts = some (a, rest) ↔ ∃ ws, ts = ws ++ rest ∧ form ws a

/-- The form of values that one word stands for. -/
def Single (f : Token → Option α) (ws : List Token) (a : α) : Prop := ∃ t, ws = [t] ∧ f t = some a

theorem reads_token (f : Token → Option α) : (token f).Reads (Single f) := by
  intro ts a rest
  cases ts with
  | nil => simp [run, token, Single]
  | cons t ts =>
    simp only [run, token, Option.map_map, Option.map_eq_some_iff, Function.comp, Prod.mk.injEq,
      Single]
    constructor
    · rintro ⟨b, hb, rfl, rfl⟩
      exact ⟨[t], rfl, t, rfl, hb⟩
    · rintro ⟨_, hts, t', rfl, ha⟩
      obtain ⟨rfl, rfl⟩ := List.cons.inj hts
      exact ⟨a, ha, rfl, rfl⟩

theorem reads_skipped : skipped.Reads fun ws _ => Passes ws := by
  intro ts _ rest
  rw [← skipped_iff]
  simp only [run, Option.map_eq_some_iff, Prod.exists, Subtype.exists]
  constructor
  · rintro ⟨⟨⟩, rest', hlt, h, heq⟩
    cases heq
    exact ⟨hlt, h⟩
  · rintro ⟨hlt, h⟩
    exact ⟨(), rest, hlt, h, rfl⟩

/-- What is read is turned into something else. -/
theorem Reads.map {β : Type} {r : Reader α} {form : List Token → α → Prop} (h : r.Reads form)
    (f : α → β) :
    Reads (fun ts => (r ts).map fun (a, rest) => (f a, rest)) fun ws b =>
      ∃ a, form ws a ∧ f a = b := by
  intro ts b rest
  have hrun : run (fun ts => (r ts).map fun (a, rest) => (f a, rest)) ts
      = (r.run ts).map fun p => (f p.1, p.2) := by
    simp [run, Function.comp_def]
  rw [hrun, Option.map_eq_some_iff]
  constructor
  · rintro ⟨⟨a, rest'⟩, ha, heq⟩
    cases heq
    obtain ⟨ws, hts, hform⟩ := (h _ _ _).mp ha
    exact ⟨ws, hts, a, hform, rfl⟩
  · rintro ⟨ws, hts, a, hform, rfl⟩
    exact ⟨(a, rest), (h _ _ _).mpr ⟨ws, hts, hform⟩, rfl⟩

/-- A form may be said in other words. -/
theorem Reads.congr {r : Reader α} {form form' : List Token → α → Prop} (h : r.Reads form)
    (hform : ∀ ws a, form ws a ↔ form' ws a) : r.Reads form' := by
  intro ts a rest
  simp only [h ts a rest, hform]

/-- A reader takes something. -/
theorem Reads.ne_nil {r : Reader α} {form : List Token → α → Prop} (h : r.Reads form) {a : α} :
    ¬form [] a := by
  intro hform
  obtain ⟨⟨_, rest⟩, -, heq⟩ := Option.map_eq_some_iff.mp ((h [] a []).mpr ⟨[], rfl, hform⟩)
  exact absurd rest.2 (Nat.not_lt_zero _)

end Reader

/-! ### Slots -/

/-- A field of a record: what is read into it, and how the record holds it. -/
structure Slot (σ : Type) where
  key : String
  Value : Type
  reader : Reader Value
  form : List Token → Value → Prop
  get : σ → Value
  set : σ → Value → σ

/-- A slot as a field that is read. -/
def Slot.field {σ : Type} (p : Slot σ) : Reader.Field σ :=
  (p.key, fun s ts => (p.reader ts).map fun (v, rest) => (p.set s v, rest))

/-- The keys of some slots. -/
def keysOf {σ : Type} (slots : List (Slot σ)) : List String := slots.map Slot.key

/-- Slots of different keys that make up a record. -/
structure Lawful {σ : Type} (slots : List (Slot σ)) : Prop where
  reads : ∀ p ∈ slots, p.reader.Reads p.form
  get_set : ∀ p ∈ slots, ∀ s v, p.get (p.set s v) = v
  get_set_of_ne : ∀ p ∈ slots, ∀ q ∈ slots, p.key ≠ q.key → ∀ s v, q.get (p.set s v) = q.get s
  ext : ∀ s s', (∀ p ∈ slots, p.get s' = p.get s) → s' = s
  /-- No value starts with the end of an array. -/
  begins : ∀ p ∈ slots, ∀ ws v, ¬p.form (.closeArray :: ws) v
  nodup : (keysOf slots).Nodup

/-- The keys among some that are given. -/
def givenKeys (keys : List String) (given : List (String × List Token)) : List String :=
  (given.map Prod.fst).filter (· ∈ keys)

/-- The words of a member with a sound key. -/
def entryWords (m : String × List Token) : List Token := memberWords (.ok m.1, m.2)

/-- The words of a record with the given keys, and the words that they give for each key. -/
inductive RecordWords (keys : List String) :
    List Token → List (String × List Token) → Prop where
  /-- An object, in which each of the keys may come once. -/
  | object (members : List (String × List Token)) : (∀ m ∈ members, m.1 ∉ keys → Passes m.2) →
    (givenKeys keys members).Nodup →
    RecordWords keys (objectOf (members.map entryWords)) members
  /-- An array of the values of the first keys. -/
  | array (items : List (List Token)) : items.length ≤ keys.length →
    RecordWords keys (arrayOf items) (keys.zip items)

/-- A value is what words give for it, if any. -/
def Filled {α : Type} (form : List Token → α → Prop) (words : Option (List Token))
    (old new : α) : Prop :=
  match words with
  | none => new = old
  | some ws => form ws new

/-- A record is filled with what is given for its slots, and is as before where nothing is. -/
def Gives {σ : Type} (slots : List (Slot σ)) (given : List (String × List Token)) (s s' : σ) :
    Prop :=
  ∀ p ∈ slots, Filled p.form (given.lookup p.key) (p.get s) (p.get s')

variable {σ : Type} {slots : List (Slot σ)} {p q : Slot σ} {s s' : σ} {key : String}
  {ws ts rest : List Token} {given : List (String × List Token)} {seen : List String}

theorem Lawful.eq_of_key_eq (h : Lawful slots) (hp : p ∈ slots) (hq : q ∈ slots)
    (hkey : p.key = q.key) : p = q :=
  List.inj_on_of_nodup_map h.nodup hp hq hkey

theorem mem_keysOf (hp : p ∈ slots) : p.key ∈ keysOf slots := List.mem_map_of_mem hp

theorem lookup_field_of_notMem (hkey : key ∉ keysOf slots) :
    (slots.map Slot.field).lookup key = none := by
  rw [List.lookup_eq_none_iff]
  intro f hf
  obtain ⟨p, hp, rfl⟩ := List.mem_map.mp hf
  have hne : key ≠ p.key := fun heq => hkey (heq ▸ mem_keysOf hp)
  simpa [Slot.field] using hne

theorem Lawful.lookup_field (h : Lawful slots) (hp : p ∈ slots) :
    (slots.map Slot.field).lookup p.key = some p.field.2 := by
  obtain ⟨before, after, rfl⟩ := List.append_of_mem hp
  have hnotMem : p.key ∉ keysOf before := by
    have hn := h.nodup
    rw [keysOf, List.map_append, List.nodup_append] at hn
    exact fun hmem => hn.2.2 _ hmem _ List.mem_cons_self rfl
  rw [List.map_append, List.lookup_append, lookup_field_of_notMem hnotMem, List.map_cons]
  simp [Slot.field]

/-! ### One member after another -/

/-- A member fills one slot of a record, or is passed over. -/
inductive Fills {σ : Type} (slots : List (Slot σ)) (key : String) (ws : List Token) (s : σ) :
    σ → Prop where
  | known {p : Slot σ} {v : p.Value} : p ∈ slots → p.key = key → p.form ws v →
    Fills slots key ws s (p.set s v)
  | unknown : key ∉ keysOf slots → Passes ws → Fills slots key ws s s

/-- Members fill a record one after another. -/
inductive Filling {σ : Type} (slots : List (Slot σ)) :
    List (String × List Token) → σ → σ → Prop where
  | nil (s : σ) : Filling slots [] s s
  | cons {m : String × List Token} {ms : List (String × List Token)} {s s' s'' : σ} :
    Fills slots m.1 m.2 s s' → Filling slots ms s' s'' → Filling slots (m :: ms) s s''

/-- A slot is filled with what is read for it. -/
theorem Lawful.reads_field (h : Lawful slots) (hp : p ∈ slots) (s : σ) :
    Reader.Reads (p.field.2 s) (fun ws s' => Fills slots p.key ws s s') := by
  refine ((h.reads p hp).map (p.set s)).congr fun ws s' => ⟨?_, ?_⟩
  · rintro ⟨v, hv, rfl⟩
    exact .known hp rfl hv
  · intro hfills
    cases hfills with
    | @known q v hq hkey hv =>
      obtain rfl := h.eq_of_key_eq hq hp hkey
      exact ⟨v, hv, rfl⟩
    | unknown hnot => exact absurd (mem_keysOf hp) hnot

/-- A member is read into its slot, or passed over. -/
theorem Lawful.reads_member (h : Lawful slots) (key : String) (s : σ) :
    (Reader.member (slots.map Slot.field) key s).Reads (fun ws s' => Fills slots key ws s s') := by
  by_cases hkey : key ∈ keysOf slots
  · obtain ⟨p, hp, rfl⟩ := List.mem_map.mp hkey
    have hmember : Reader.member (slots.map Slot.field) p.key s = p.field.2 s := by
      funext ts
      simp [Reader.member, h.lookup_field hp]
    rw [hmember]
    exact h.reads_field hp s
  · have hmember : Reader.member (slots.map Slot.field) key s
        = fun ts => (Reader.skipped ts).map fun p => (s, p.2) := by
      funext ts
      simp [Reader.member, lookup_field_of_notMem hkey]
    rw [hmember]
    refine (Reader.reads_skipped.map fun _ => s).congr fun ws s' => ⟨?_, ?_⟩
    · rintro ⟨-, hws, rfl⟩
      exact .unknown hkey hws
    · intro hfills
      cases hfills with
      | @known q v hq hkey' => exact absurd (hkey' ▸ mem_keysOf hq) hkey
      | unknown _ hws => exact ⟨(), hws, rfl⟩

/-- Where a slot has been filled once, the record holds what it was filled with. -/
theorem Lawful.gives_cons_iff (h : Lawful slots) (hp : p ∈ slots)
    (hfresh : given.lookup p.key = none) :
    Gives slots ((p.key, ws) :: given) s s'
      ↔ p.form ws (p.get s') ∧ Gives slots given (p.set s (p.get s')) s' := by
  have other {q : Slot σ} (hq : q ∈ slots) (hne : q ≠ p) :
      Filled q.form (((p.key, ws) :: given).lookup q.key) (q.get s) (q.get s')
        ↔ Filled q.form (given.lookup q.key) (q.get (p.set s (p.get s'))) (q.get s') := by
    have hkey : p.key ≠ q.key := fun heq => hne (h.eq_of_key_eq hp hq heq).symm
    rw [List.lookup_cons, beq_false_of_ne hkey.symm, h.get_set_of_ne p hp q hq hkey]
  have hself : Filled p.form (((p.key, ws) :: given).lookup p.key) (p.get s) (p.get s')
      ↔ p.form ws (p.get s') := by
    rw [List.lookup_cons_self, Filled]
  constructor
  · refine fun hgives => ⟨hself.mp (hgives p hp), fun q hq => ?_⟩
    by_cases hne : q = p
    · subst hne
      rw [hfresh, Filled, h.get_set q hq]
    · exact (other hq hne).mp (hgives q hq)
  · rintro ⟨hform, hgives⟩ q hq
    by_cases hne : q = p
    · subst hne
      exact hself.mpr hform
    · exact (other hq hne).mpr (hgives q hq)

/-- What is given for other keys is not asked for. -/
theorem gives_cons_iff_of_notMem (hkey : key ∉ keysOf slots) :
    Gives slots ((key, ws) :: given) s s' ↔ Gives slots given s s' := by
  refine forall₂_congr fun p hp => ?_
  have hne : p.key ≠ key := fun heq => hkey (heq ▸ mem_keysOf hp)
  rw [List.lookup_cons, beq_false_of_ne hne]

theorem lookup_eq_none_of_nodup {keys : List String} (hkey : key ∈ keys)
    (hn : (givenKeys keys ((key, ws) :: given)).Nodup) : given.lookup key = none := by
  rw [givenKeys, List.map_cons, List.filter_cons_of_pos (by simpa using hkey),
    List.nodup_cons] at hn
  rw [List.lookup_eq_none_iff]
  intro m hm
  have hne : key ≠ m.1 := by
    rintro rfl
    exact hn.1 (List.mem_filter.mpr ⟨List.mem_map.mpr ⟨m, hm, rfl⟩, by simpa using hkey⟩)
  simpa using hne

theorem nodup_givenKeys_tail {keys : List String} {m : String × List Token}
    (hn : (givenKeys keys (m :: given)).Nodup) : (givenKeys keys given).Nodup :=
  hn.sublist ((List.sublist_cons_self _ _).filter _)

/-- Members fill a record one after another just as they do all together, if each slot is filled
once. -/
theorem Lawful.filling_iff (h : Lawful slots) (hn : (givenKeys (keysOf slots) given).Nodup) :
    Filling slots given s s'
      ↔ (∀ m ∈ given, m.1 ∉ keysOf slots → Passes m.2) ∧ Gives slots given s s' := by
  induction given generalizing s with
  | nil =>
    constructor
    · rintro ⟨⟩
      exact ⟨nofun, fun p _ => rfl⟩
    · rintro ⟨-, hgives⟩
      rw [h.ext s s' hgives]
      exact .nil s
  | cons m given ih =>
    obtain ⟨key, ws⟩ := m
    have ih {s : σ} := @ih s (nodup_givenKeys_tail hn)
    rw [List.forall_mem_cons]
    constructor
    · intro hfilling
      cases hfilling with
      | cons hfills hrest =>
        obtain ⟨hpass, hgives⟩ := ih.mp hrest
        cases hfills with
        | @known p v hp hkey hform =>
          obtain rfl : p.key = key := hkey
          -- later members leave the slot as it is
          have hfresh := lookup_eq_none_of_nodup (mem_keysOf hp) hn
          have hv : p.get s' = v := by
            have hfilled := hgives p hp
            rw [hfresh, Filled, h.get_set p hp] at hfilled
            exact hfilled
          subst hv
          exact ⟨⟨fun hnot => absurd (mem_keysOf hp) hnot, hpass⟩,
            (h.gives_cons_iff hp hfresh).mpr ⟨hform, hgives⟩⟩
        | unknown hkey hws =>
          exact ⟨⟨fun _ => hws, hpass⟩, (gives_cons_iff_of_notMem hkey).mpr hgives⟩
    · rintro ⟨⟨hws, hpass⟩, hgives⟩
      by_cases hkey : key ∈ keysOf slots
      · obtain ⟨p, hp, rfl⟩ := List.mem_map.mp hkey
        obtain ⟨hform, hrest⟩ :=
          (h.gives_cons_iff hp (lookup_eq_none_of_nodup (mem_keysOf hp) hn)).mp hgives
        exact .cons (.known hp rfl hform) (ih.mpr ⟨hpass, hrest⟩)
      · exact .cons (.unknown hkey (hws hkey))
          (ih.mpr ⟨hpass, (gives_cons_iff_of_notMem hkey).mp hgives⟩)

/-! ### Objects -/

/-- Reading the members of an object, one member after another. -/
theorem run_membersFrom_iff {fields : List (Reader.Field σ)} :
    Reader.run (Reader.membersFrom fields seen s) ts = some (s', rest)
      ↔ ∃ key tail s₁ tail', ts = .text (.ok key) :: .colon :: tail ∧ key ∉ seen
        ∧ Reader.run (Reader.member fields key s) tail = some (s₁, tail')
        ∧ (tail' = .closeObject :: rest ∧ s' = s₁
          ∨ ∃ tail'', tail' = .comma :: tail'' ∧ Reader.run (Reader.membersFrom fields
            (if (fields.lookup key).isSome then key :: seen else seen) s₁) tail''
              = some (s', rest)) := by
  rw [Reader.run, Reader.membersFrom.eq_def]
  split
  · rename_i key tail
    split
    · rename_i hseen
      simp [hseen]
    · rename_i hseen
      split
      · rename_i hm
        simp [Reader.run, hm]
      · rename_i s₁ tail' hlt hm
        simp [Reader.run, hm, hseen]
        tauto
      · rename_i s₁ tail' hlt hm
        simp [Reader.run, hm, hseen]
        intro _ _
        simpa using hlt
      · rename_i p hclose hcomma hm
        obtain ⟨s₁, tail', hlt⟩ := p
        refine iff_of_false (Option.some_ne_none _).symm ?_
        rintro ⟨_, _, s₂, tail₂, heq, -, hm', hnext⟩
        cases heq
        rw [Reader.run, hm] at hm'
        cases hm'
        rcases hnext with ⟨rfl, -⟩ | ⟨tail₃, rfl, -⟩
        · exact hclose _ _ _ rfl
        · exact hcomma _ _ _ rfl
  · rename_i hshape
    refine iff_of_false (Option.some_ne_none _).symm ?_
    rintro ⟨key, tail, _, _, heq, -⟩
    exact hshape key tail heq

/-- Keys that are given once, and not among those seen before. -/
def Fresh (keys seen : List String) (given : List (String × List Token)) : Prop :=
  (givenKeys keys given).Nodup ∧ ∀ key ∈ givenKeys keys given, key ∉ seen

theorem fresh_nil (keys seen : List String) : Fresh keys seen [] := ⟨List.nodup_nil, nofun⟩

/-- A known key counts as seen from then on. -/
theorem fresh_cons_iff {keys : List String} (hseen : ∀ key ∈ seen, key ∈ keys) :
    Fresh keys seen ((key, ws) :: given)
      ↔ key ∉ seen ∧ Fresh keys (if key ∈ keys then key :: seen else seen) given := by
  by_cases hkey : key ∈ keys
  · rw [if_pos hkey, Fresh, Fresh, givenKeys, List.map_cons,
      List.filter_cons_of_pos (by simpa using hkey), List.nodup_cons, List.forall_mem_cons]
    constructor
    · rintro ⟨⟨hnot, hn⟩, hkey, hdisjoint⟩
      refine ⟨hkey, hn, fun key' hmem =>
        List.not_mem_cons_of_ne_of_not_mem ?_ (hdisjoint key' hmem)⟩
      rintro rfl
      exact hnot hmem
    · rintro ⟨hkey, hn, hdisjoint⟩
      exact ⟨⟨fun hmem => hdisjoint key hmem List.mem_cons_self, hn⟩, hkey, fun key' hmem =>
        List.not_mem_of_not_mem_cons (hdisjoint key' hmem)⟩
  · have hnot : key ∉ seen := fun hmem => hkey (hseen key hmem)
    simp [Fresh, givenKeys, hkey, hnot]

theorem mem_of_mem_seen {keys : List String} (hseen : ∀ key ∈ seen, key ∈ keys) (key : String) :
    ∀ key' ∈ (if key ∈ keys then key :: seen else seen), key' ∈ keys := by
  split
  · rename_i hkey
    exact List.forall_mem_cons.mpr ⟨hkey, hseen⟩
  · exact hseen

theorem Lawful.lookup_isSome_iff (h : Lawful slots) :
    ((slots.map Slot.field).lookup key).isSome = true ↔ key ∈ keysOf slots := by
  constructor
  · intro hsome
    by_contra hkey
    rw [lookup_field_of_notMem hkey] at hsome
    cases hsome
  · intro hkey
    obtain ⟨p, hp, rfl⟩ := List.mem_map.mp hkey
    rw [h.lookup_field hp]
    rfl

/-- One member is taken off, and then the object ends or goes on. -/
theorem Lawful.run_membersFrom_iff (h : Lawful slots) :
    Reader.run (Reader.membersFrom (slots.map Slot.field) seen s) ts = some (s', rest)
      ↔ ∃ key ws s₁ tail, ts = entryWords (key, ws) ++ tail ∧ key ∉ seen
        ∧ Fills slots key ws s s₁
        ∧ (tail = .closeObject :: rest ∧ s' = s₁
          ∨ ∃ tail', tail = .comma :: tail' ∧ Reader.run (Reader.membersFrom (slots.map Slot.field)
            (if key ∈ keysOf slots then key :: seen else seen) s₁) tail' = some (s', rest)) := by
  rw [Json.run_membersFrom_iff]
  simp only [h.lookup_isSome_iff, h.reads_member _ _ _ _ _]
  constructor
  · rintro ⟨key, _, s₁, tail, rfl, hkey, ⟨ws, rfl, hfills⟩, hrest⟩
    exact ⟨key, ws, s₁, tail, rfl, hkey, hfills, hrest⟩
  · rintro ⟨key, ws, s₁, tail, rfl, hkey, hfills, hrest⟩
    exact ⟨key, _, s₁, tail, rfl, hkey, ⟨ws, rfl, hfills⟩, hrest⟩

/-- The members of an object are read up to its end. -/
theorem Lawful.membersFrom_iff (h : Lawful slots) (hseen : ∀ key ∈ seen, key ∈ keysOf slots) :
    Reader.run (Reader.membersFrom (slots.map Slot.field) seen s) ts = some (s', rest)
      ↔ ∃ m ms, ts = commas ((m :: ms).map entryWords) ++ .closeObject :: rest
        ∧ Fresh (keysOf slots) seen (m :: ms) ∧ Filling slots (m :: ms) s s' := by
  constructor
  · intro hrun
    -- behind a member and its comma there are fewer words
    induction hk : ts.length using Nat.strongRecOn generalizing ts s seen with
    | _ k ihk =>
      obtain ⟨key, ws, s₁, tail, rfl, hkey, hfills, ⟨rfl, rfl⟩ | ⟨tail', rfl, hrest⟩⟩ :=
        h.run_membersFrom_iff.mp hrun
      · exact ⟨(key, ws), [], rfl, (fresh_cons_iff hseen).mpr ⟨hkey, fresh_nil _ _⟩,
          .cons hfills (.nil _)⟩
      · have hlt : tail'.length < k := by
          rw [← hk, List.length_append, List.length_cons]
          omega
        obtain ⟨m, ms, rfl, hfresh, hfilling⟩ :=
          ihk _ hlt (mem_of_mem_seen hseen key) hrest rfl
        refine ⟨(key, ws), m :: ms, ?_, (fresh_cons_iff hseen).mpr ⟨hkey, hfresh⟩,
          .cons hfills hfilling⟩
        simp only [List.map_cons, commas_cons_cons, List.append_assoc, List.cons_append]
  · rintro ⟨m, ms, rfl, hfresh, hfilling⟩
    induction ms generalizing m s seen with
    | nil =>
      obtain ⟨hkey, -⟩ := (fresh_cons_iff hseen).mp hfresh
      cases hfilling with
      | cons hfills hrest =>
        cases hrest
        exact h.run_membersFrom_iff.mpr
          ⟨m.1, m.2, s', .closeObject :: rest, rfl, hkey, hfills, .inl ⟨rfl, rfl⟩⟩
    | cons m' ms ih =>
      obtain ⟨hkey, hfresh'⟩ := (fresh_cons_iff hseen).mp hfresh
      cases hfilling with
      | @cons _ _ _ s₁ _ hfills hrest =>
        refine h.run_membersFrom_iff.mpr ⟨m.1, m.2, s₁, _, ?_, hkey, hfills, .inr ⟨_, rfl,
          ih (mem_of_mem_seen hseen m.1) m' hfresh' hrest⟩⟩
        simp only [List.map_cons, commas_cons_cons, List.append_assoc, List.cons_append]

/-! ### Arrays -/

theorem commas_eq_flatMap (part : List Token) (parts : List (List Token)) :
    commas (part :: parts) = part ++ parts.flatMap fun ws => .comma :: ws := by
  induction parts generalizing part with
  | nil => simp [commas]
  | cons part' parts ih => rw [commas_cons_cons, ih, List.flatMap_cons, List.cons_append]

/-- After a comma one field is read, and then those after it. -/
theorem run_itemsFrom_comma {f : Reader.Field σ} {fields : List (Reader.Field σ)} :
    Reader.run (Reader.itemsFrom s (f :: fields)) (.comma :: ts) = some (s', rest)
      ↔ ∃ s₁ tail, Reader.run (f.2 s) ts = some (s₁, tail)
        ∧ Reader.run (Reader.itemsFrom s₁ fields) tail = some (s', rest) := by
  obtain ⟨key, readInto⟩ := f
  rw [Reader.run, Reader.itemsFrom]
  cases hread : readInto s ts with
  | none => simp [Reader.run, hread]
  | some p => simp [Reader.run, hread, Function.comp_def]

/-- The items of an array are read up to its end into the slots that are left. -/
theorem Lawful.itemsFrom_iff (h : Lawful slots) {later : List (Slot σ)} (hsub : later ⊆ slots) :
    Reader.run (Reader.itemsFrom s (later.map Slot.field)) ts = some (s', rest)
      ↔ ∃ items : List (List Token), items.length ≤ later.length
        ∧ ts = (items.flatMap fun ws => .comma :: ws) ++ .closeArray :: rest
        ∧ Filling slots ((keysOf later).zip items) s s' := by
  induction later generalizing s ts with
  | nil =>
    constructor
    · intro hrun
      rcases ts with _ | ⟨t, ts⟩
      · cases hrun
      · cases t with
        | closeArray =>
          cases hrun
          exact ⟨[], Nat.le_refl _, rfl, .nil s⟩
        | _ => cases hrun
    · rintro ⟨items, hlen, rfl, hfilling⟩
      obtain rfl := List.length_eq_zero_iff.mp (Nat.le_zero.mp hlen)
      cases hfilling
      rfl
  | cons p later ih =>
    have hp : p ∈ slots := hsub List.mem_cons_self
    have ih {s : σ} {ts : List Token} := @ih s ts fun q hq => hsub (List.mem_cons_of_mem _ hq)
    have hfield := h.reads_field hp
    constructor
    · intro hrun
      rcases ts with _ | ⟨t, ts⟩
      · cases hrun
      · cases t with
        | closeArray =>
          cases hrun
          exact ⟨[], Nat.zero_le _, rfl, .nil s⟩
        | comma =>
          obtain ⟨s₁, tail, hread, hrest⟩ := run_itemsFrom_comma.mp hrun
          obtain ⟨ws, rfl, hfills⟩ := (hfield s _ _ _).mp hread
          obtain ⟨items, hlen, rfl, hfilling⟩ := ih.mp hrest
          refine ⟨ws :: items, Nat.succ_le_succ hlen, ?_, .cons hfills hfilling⟩
          simp only [List.flatMap_cons, List.cons_append, List.append_assoc]
        | _ => cases hrun
    · rintro ⟨items, hlen, rfl, hfilling⟩
      cases items with
      | nil =>
        cases hfilling
        rfl
      | cons ws items =>
        rw [List.flatMap_cons, List.cons_append, List.cons_append, List.append_assoc]
        cases hfilling with
        | @cons _ _ _ s₁ _ hfills hrest =>
          exact run_itemsFrom_comma.mpr ⟨s₁, _, (hfield s _ _ _).mpr ⟨ws, rfl, hfills⟩,
            ih.mpr ⟨items, Nat.le_of_succ_le_succ hlen, rfl, hrest⟩⟩

/-! ### Records -/

theorem sublist_zip (keys : List String) (items : List (List Token)) :
    ((keys.zip items).map Prod.fst).Sublist keys := by
  induction keys generalizing items with
  | nil => exact .slnil
  | cons key keys ih =>
    cases items with
    | nil => exact List.nil_sublist _
    | cons ws items => exact (ih items).cons_cons key

/-- An array gives each field once, and nothing else. -/
theorem Lawful.filling_zip_iff (h : Lawful slots) (items : List (List Token)) :
    Filling slots ((keysOf slots).zip items) s s'
      ↔ Gives slots ((keysOf slots).zip items) s s' := by
  have hsub := sublist_zip (keysOf slots) items
  rw [h.filling_iff (h.nodup.sublist (List.filter_sublist.trans hsub))]
  refine and_iff_right fun m hm hnot => absurd ?_ hnot
  exact hsub.subset (List.mem_map_of_mem hm)

/-- The words for a slot do not start with the end of an array. -/
theorem Lawful.exists_head (h : Lawful slots) (hp : p ∈ slots)
    (hfills : Fills slots p.key ws s s') : ∃ t ws', ws = t :: ws' ∧ t ≠ .closeArray := by
  cases hfills with
  | @known q v hq _ hform =>
    rcases ws with _ | ⟨t, ws⟩
    · exact absurd hform (h.reads q hq).ne_nil
    · refine ⟨t, ws, rfl, ?_⟩
      rintro rfl
      exact h.begins q hq ws v hform
  | unknown hnot => exact absurd (mem_keysOf hp) hnot

/-- After an opening brace an object ends at once, or members come. -/
theorem run_record_openObject {fields : List (Reader.Field σ)} :
    Reader.run (Reader.record fields s) (.openObject :: ts) = some (s', rest)
      ↔ ts = .closeObject :: rest ∧ s' = s
        ∨ Reader.run (Reader.membersFrom fields [] s) ts = some (s', rest) := by
  by_cases hclose : ∃ tail, ts = .closeObject :: tail
  · -- no member starts with a closing brace
    obtain ⟨tail, rfl⟩ := hclose
    have hmembers : Reader.run (Reader.membersFrom fields [] s) (.closeObject :: tail) = none := by
      simp [Reader.run, Reader.membersFrom]
    rw [hmembers, Reader.run, Reader.record]
    simp [eq_comm, and_comm]
  · have hrun : Reader.run (Reader.record fields s) (.openObject :: ts)
        = Reader.run (Reader.membersFrom fields [] s) ts := by
      rcases ts with _ | ⟨t, ts⟩
      · simp [Reader.run, Reader.record, Function.comp_def]
      · cases t with
        | closeObject => exact absurd ⟨ts, rfl⟩ hclose
        | _ => simp [Reader.run, Reader.record, Function.comp_def]
    rw [hrun]
    exact (or_iff_right fun h => hclose ⟨rest, h.1⟩).symm

/-- After an opening bracket an array ends at once, or a first item comes. -/
theorem run_record_openArray {fields : List (Reader.Field σ)} :
    Reader.run (Reader.record fields s) (.openArray :: ts) = some (s', rest)
      ↔ ts = .closeArray :: rest ∧ s' = s
        ∨ (∀ tail, ts ≠ .closeArray :: tail) ∧ ∃ f fields', fields = f :: fields'
          ∧ ∃ s₁ tail, Reader.run (f.2 s) ts = some (s₁, tail)
          ∧ Reader.run (Reader.itemsFrom s₁ fields') tail = some (s', rest) := by
  by_cases hclose : ∃ tail, ts = .closeArray :: tail
  · obtain ⟨tail, rfl⟩ := hclose
    rw [Reader.run, Reader.record]
    simp [eq_comm, and_comm]
  · have hne (tail : List Token) : ts ≠ .closeArray :: tail := fun heq => hclose ⟨tail, heq⟩
    rw [or_iff_right fun h => hne _ h.1, and_iff_right hne]
    rcases fields with _ | ⟨⟨key, readInto⟩, fields'⟩
    · have hrun : Reader.run (Reader.record [] s) (.openArray :: ts) = none := by
        rw [Reader.run, Reader.record]
        · rfl
        · exact hne
      simp [hrun]
    · have hrun : Reader.run (Reader.record ((key, readInto) :: fields') s) (.openArray :: ts)
          = (Reader.run (readInto s) ts).bind fun p =>
            Reader.run (Reader.itemsFrom p.1 fields') p.2 := by
        rw [Reader.run, Reader.record]
        · cases hread : readInto s ts with
          | none => simp [Reader.run, hread]
          | some p => simp [Reader.run, hread, Function.comp_def]
        · exact hne
      simp [hrun, Option.bind_eq_some_iff]

/-- An object is read as a record if each field is given once at most, and what else it gives is
passed over. -/
theorem Lawful.run_openObject_iff (h : Lawful slots) :
    Reader.run (Reader.record (slots.map Slot.field) s) (.openObject :: ts) = some (s', rest)
      ↔ ∃ ms, .openObject :: ts = objectOf (ms.map entryWords) ++ rest
        ∧ ((∀ m ∈ ms, m.1 ∉ keysOf slots → Passes m.2) ∧ (givenKeys (keysOf slots) ms).Nodup)
        ∧ Gives slots ms s s' := by
  have hmembers {ts : List Token} := @Lawful.membersFrom_iff _ slots s s' ts rest [] h (by simp)
  rw [run_record_openObject, hmembers]
  constructor
  · rintro (⟨rfl, rfl⟩ | ⟨m, ms, rfl, ⟨hn, -⟩, hfilling⟩)
    · exact ⟨[], rfl, ⟨by simp, List.nodup_nil⟩, fun _ _ => rfl⟩
    · obtain ⟨hpass, hgives⟩ := (h.filling_iff hn).mp hfilling
      refine ⟨m :: ms, ?_, ⟨hpass, hn⟩, hgives⟩
      rw [objectOf, List.cons_append, List.append_assoc, List.singleton_append]
  · rintro ⟨ms, heq, ⟨hpass, hn⟩, hgives⟩
    rw [objectOf, List.cons_append, List.append_assoc, List.singleton_append] at heq
    obtain ⟨-, rfl⟩ := List.cons.inj heq
    cases ms with
    | nil => exact .inl ⟨rfl, h.ext s s' hgives⟩
    | cons m ms =>
      exact .inr ⟨m, ms, rfl, ⟨hn, by simp⟩, (h.filling_iff hn).mpr ⟨hpass, hgives⟩⟩

/-- An array is read as a record if it has no more items than the record has fields. -/
theorem Lawful.run_openArray_iff (h : Lawful slots) :
    Reader.run (Reader.record (slots.map Slot.field) s) (.openArray :: ts) = some (s', rest)
      ↔ ∃ items, .openArray :: ts = arrayOf items ++ rest
        ∧ items.length ≤ (keysOf slots).length
        ∧ Gives slots ((keysOf slots).zip items) s s' := by
  rw [run_record_openArray]
  constructor
  · rintro (⟨rfl, rfl⟩ | ⟨-, f, fields, hfields, s₁, tail, hread, hrest⟩)
    · refine ⟨[], rfl, Nat.zero_le _, ?_⟩
      rw [List.zip_nil_right]
      exact fun _ _ => rfl
    · obtain ⟨p, later, rfl, rfl, rfl⟩ := List.map_eq_cons_iff.mp hfields
      obtain ⟨ws, rfl, hfills⟩ := (h.reads_field List.mem_cons_self s _ _ _).mp hread
      obtain ⟨items, hlen, rfl, hfilling⟩ :=
        (h.itemsFrom_iff (List.subset_cons_self _ _)).mp hrest
      have hall : Filling (p :: later) ((keysOf (p :: later)).zip (ws :: items)) s s' :=
        .cons hfills hfilling
      refine ⟨ws :: items, ?_, by simpa [keysOf] using hlen, (h.filling_zip_iff _).mp hall⟩
      simp [arrayOf, commas_eq_flatMap]
  · rintro ⟨items, heq, hlen, hgives⟩
    rw [arrayOf, List.cons_append, List.append_assoc, List.singleton_append] at heq
    obtain ⟨-, rfl⟩ := List.cons.inj heq
    cases items with
    | nil =>
      rw [List.zip_nil_right] at hgives
      exact .inl ⟨rfl, h.ext s s' hgives⟩
    | cons ws items =>
      rcases slots with _ | ⟨p, later⟩
      · exact absurd hlen (Nat.not_succ_le_zero _)
      · have hall : Filling (p :: later) ((keysOf (p :: later)).zip (ws :: items)) s s' :=
          (h.filling_zip_iff _).mpr hgives
        cases hall with
        | @cons _ _ _ s₁ _ hfills hrest =>
          -- the first item does not look like the end of the array
          obtain ⟨t, ws, rfl, ht⟩ := h.exists_head List.mem_cons_self hfills
          rw [commas_eq_flatMap, List.append_assoc]
          refine .inr ⟨fun tail heq => ht (List.cons.inj heq).1, p.field, later.map Slot.field,
            rfl, s₁, _, (h.reads_field List.mem_cons_self s _ _ _).mpr ⟨_, rfl, hfills⟩,
            (h.itemsFrom_iff (List.subset_cons_self p later)).mpr ⟨items, ?_, rfl, hrest⟩⟩
          simpa [keysOf] using hlen

/-- A record is read from its words, and filled with what they give. -/
theorem Lawful.reads_record (h : Lawful slots) (s : σ) :
    (Reader.record (slots.map Slot.field) s).Reads fun ws s' =>
      ∃ given, RecordWords (keysOf slots) ws given ∧ Gives slots given s s' := by
  intro ts s' rest
  constructor
  · intro hrun
    rcases ts with _ | ⟨t, ts⟩
    · cases hrun
    · cases t with
      | openObject =>
        obtain ⟨ms, heq, ⟨hpass, hn⟩, hgives⟩ := h.run_openObject_iff.mp hrun
        exact ⟨_, heq, ms, .object ms hpass hn, hgives⟩
      | openArray =>
        obtain ⟨items, heq, hlen, hgives⟩ := h.run_openArray_iff.mp hrun
        exact ⟨_, heq, _, .array items hlen, hgives⟩
      | _ => cases hrun
  · rintro ⟨_, rfl, given, hwords, hgives⟩
    cases hwords with
    | object _ hpass hn => exact h.run_openObject_iff.mpr ⟨given, rfl, ⟨hpass, hn⟩, hgives⟩
    | array items hlen => exact h.run_openArray_iff.mpr ⟨items, rfl, hlen, hgives⟩

end StompRelay.Json
