import StompRelay.Proofs.Json.Tokens
/-!
# Reading what words form

Words that form a value are read as this value, whatever follows them, as long as the containers
that are open leave room for those inside it.

## Main definitions

* `Json.resume` — reading on after a token
* `Json.ReadAs` — the words of a value are read as it wherever there is room

## Main results

* `Json.readFrom_array`, `Json.readFrom_object` — containers are read when their parts are
* `Json.Forms.readAs` — what words form is what they are read as
* `Json.parse_eq_of_forms` — the same for texts
-/

namespace StompRelay.Json

/-- Reads on from where reading stands. -/
def resume (manner : Manner) : Progress → List Token → Except Fault (Json × List Token)
  | .done v, ts => .ok (v, ts)
  | .more opened expected, ts => readFrom manner opened expected ts

variable {manner : Manner} {opened outer : List Open} {expected : Expected} {p : Progress}
  {t : Token} {ts rest : List Token} {v : Json} {d depth : Nat}

theorem readFrom_cons (h : step manner opened expected t = .ok p) :
    readFrom manner opened expected (t :: ts) = resume manner p ts := by
  rw [readFrom, h]
  cases p <;> rfl

/-- The words are read as the value wherever there is room for `d` containers. -/
def ReadAs (depth d : Nat) (ts : List Token) (v : Json) : Prop :=
  ∀ (opened : List Open) (rest : List Token), opened.length + d ≤ depth →
    readFrom (.keep depth) opened .value (ts ++ rest) = resume (.keep depth) (settle v opened) rest

/-- Words that form a value do not close an array that was just opened. -/
theorem ReadAs.readFrom_item (h : ReadAs depth d ts v) (hd : d ≤ depth) :
    readFrom (.keep depth) opened .item (ts ++ rest)
      = readFrom (.keep depth) opened .value (ts ++ rest) := by
  -- a list of words that is empty, or begins with the end of an array, is not read as a value
  have hok : readFrom (.keep depth) [] .value (ts ++ []) = .ok (v, []) :=
    h [] [] (by simpa using hd)
  cases ts with
  | nil => cases hok
  | cons t ts =>
    cases t with
    | closeArray => cases hok
    | _ => rfl

/-! ### Arrays -/

/-- The items that are left of an array, up to its end. -/
theorem readFrom_items {i : Item} {items : List Item}
    (h : ∀ j ∈ i :: items, ReadAs depth d j.words j.value) (acc : List Json)
    (hroom : outer.length + 1 + d ≤ depth) :
    readFrom (.keep depth) (.array acc :: outer) .value
        (commas ((i :: items).map Item.words) ++ .closeArray :: rest)
      = resume (.keep depth)
        (settle (.array (acc.reverse ++ (i :: items).map Item.value)) outer) rest := by
  -- each item settles into the array around it, which holds those before it in `acc`
  induction items generalizing i acc with
  | nil =>
    have hi := h i List.mem_cons_self (.array acc :: outer) (.closeArray :: rest) hroom
    simp only [List.map_cons, List.map_nil, commas, hi]
    exact (readFrom_cons rfl).trans (by simp)
  | cons j items ih =>
    have hi := h i List.mem_cons_self (.array acc :: outer)
      (.comma :: (commas ((j :: items).map Item.words) ++ .closeArray :: rest)) hroom
    have hrest := ih (fun k hk => h k (List.mem_cons_of_mem _ hk)) (i.value :: acc)
    simp only [List.map_cons, commas, List.append_assoc, List.cons_append] at hi hrest ⊢
    rw [hi, settle, resume, readFrom_cons rfl, resume, hrest]
    simp

theorem commas_cons (part : List Token) (parts : List (List Token)) :
    ∃ tail, commas (part :: parts) = part ++ tail := by
  cases parts with
  | nil => exact ⟨[], (List.append_nil _).symm⟩
  | cons => exact ⟨_, rfl⟩

theorem step_openArray (hroom : opened.length < depth) :
    step (.keep depth) opened .value .openArray = .ok (.more (.array [] :: opened) .item) :=
  if_pos hroom

theorem step_openObject (hroom : opened.length < depth) :
    step (.keep depth) opened .value .openObject = .ok (.more (.object [] "" :: opened) .key) :=
  if_pos hroom

/-- An array is read when its items are. -/
theorem readAs_array {items : List Item} (h : ∀ i ∈ items, ReadAs depth d i.words i.value) :
    ReadAs depth (d + 1) (arrayWords items) (.array (items.map Item.value)) := by
  intro opened rest hroom
  rw [arrayWords, List.cons_append, readFrom_cons (step_openArray (by omega)), resume,
    List.append_assoc, List.singleton_append]
  cases items with
  | nil => exact readFrom_cons rfl
  | cons i items =>
    obtain ⟨tail, htail⟩ := commas_cons i.words (items.map Item.words)
    have hall := @readFrom_items opened rest d depth i items h [] (by omega)
    rw [List.map_cons, htail, List.append_assoc] at hall ⊢
    rw [(h i List.mem_cons_self).readFrom_item (by omega), hall]
    rfl

/-! ### Objects -/

/-- A member, up to what follows it. -/
theorem readFrom_member {e : Entry} (h : ReadAs depth d e.words e.value)
    {members : List (String × Json)} {key : String} (hroom : outer.length + 1 + d ≤ depth)
    (hexpected : expected = .key ∨ expected = .nextKey) :
    readFrom (.keep depth) (.object members key :: outer) expected (e.allWords ++ rest)
      = readFrom (.keep depth) (.object (e.member :: members) e.key :: outer) .delimiter rest := by
  have hkey : step (.keep depth) (.object members key :: outer) expected (.text (.ok e.key))
      = .ok (.more (.object members e.key :: outer) .colon) := by
    rcases hexpected with rfl | rfl <;> rfl
  rw [Entry.allWords, List.cons_append, List.cons_append, readFrom_cons hkey, resume,
    readFrom_cons rfl, resume, h (.object members e.key :: outer) rest hroom]
  rfl

/-- The members that are left of an object, up to its end. -/
theorem readFrom_members {e : Entry} {entries : List Entry}
    (h : ∀ f ∈ e :: entries, ReadAs depth d f.words f.value) (acc : List (String × Json))
    (key : String) (hroom : outer.length + 1 + d ≤ depth)
    (hexpected : expected = .key ∨ expected = .nextKey) :
    readFrom (.keep depth) (.object acc key :: outer) expected
        (commas ((e :: entries).map Entry.allWords) ++ .closeObject :: rest)
      = resume (.keep depth)
        (settle (ofMembers (acc.reverse ++ (e :: entries).map Entry.member)) outer) rest := by
  -- as for arrays, only that the first key is expected in another way than the next ones
  induction entries generalizing e acc key expected with
  | nil =>
    rw [List.map_cons, List.map_nil, commas,
      readFrom_member (h e List.mem_cons_self) hroom hexpected]
    exact (readFrom_cons rfl).trans (by simp)
  | cons f entries ih =>
    have hrest := ih (fun g hg => h g (List.mem_cons_of_mem _ hg)) (e.member :: acc) e.key
      (.inr rfl)
    simp only [List.map_cons, commas, List.append_assoc, List.cons_append] at hrest ⊢
    rw [readFrom_member (h e List.mem_cons_self) hroom hexpected, readFrom_cons rfl, resume, hrest]
    simp

/-- An object is read when its members are. -/
theorem readAs_object {entries : List Entry} (h : ∀ e ∈ entries, ReadAs depth d e.words e.value) :
    ReadAs depth (d + 1) (objectWords entries) (ofMembers (entries.map Entry.member)) := by
  intro opened rest hroom
  rw [objectWords, List.cons_append, readFrom_cons (step_openObject (by omega)), resume,
    List.append_assoc, List.singleton_append]
  cases entries with
  | nil => exact readFrom_cons rfl
  | cons e entries => exact readFrom_members h [] "" (by omega) (.inl rfl)

/-! ### Values -/

/-- What words form is what they are read as. -/
theorem Forms.readAs (h : Forms d ts v) : ReadAs depth d ts v := by
  -- every container takes one place of those that are left for what is inside it
  induction h with
  | array items _ ih => exact readAs_array ih
  | object entries _ ih => exact readAs_object ih
  | _ => exact fun _ _ _ => readFrom_cons rfl

/-- Words that form a value are taken off the list. -/
theorem Forms.read_eq (h : Forms d ts v) (hd : d ≤ depth) (rest : List Token) :
    read (.keep depth) (ts ++ rest) = .ok (v, rest) :=
  h.readAs [] rest (by simpa using hd)

/-- A text is read as the value that its words form. -/
theorem parse_eq_of_forms {cs : List Char} (hcs : Spells cs ts) (h : Forms maxDepth ts v) :
    parse cs = .ok v := by
  have hread := h.read_eq (Nat.le_refl _) []
  rw [List.append_nil] at hread
  rw [parse, hcs.tokens_eq, hread]
  rfl

end StompRelay.Json
