import Mathlib.Tactic.SplitIfs
import StompRelay.Json.Printer
import StompRelay.Proofs.Json.Grammar
/-!
# Written text and its words

What is written spells the words of what it was written for, as long as what follows does not go on
with its last number. Parts are put together by commas and brackets, which do not.

## Main definitions

* `Json.Visible` — no character of a text is below the space
* `Json.Wrote` — a text spells words, in front of anything that may follow it
* `Json.Renders` — a visible text is written for a value

## Main results

* `Json.letters_write`, `Json.whole_write` — strings and numerals
* `Json.wrote_separated` — written parts with commas between them
* `Json.renders_string`, `Json.renders_natural`, `Json.renders_array`, `Json.renders_object` — the
  values of each kind
-/

namespace StompRelay.Json

variable {c : Char} {cs ds w : List Char} {ts : List Token} {n : Nat}

/-! ### Strings -/

theorem hexValue?_hexDigit : ∀ n < 16, hexValue? (Text.hexDigit n) = some n := by
  decide

theorem Letters.of_short {d e : Char} (hc : c = d) (he : shortEscape? e = some d)
    (h : Letters cs ds) : Letters ('\\' :: e :: cs) (c :: ds) :=
  hc ▸ .short he h

/-- A written character is read as itself. -/
theorem letters_writeChar (c : Char) (h : Letters cs ds) :
    Letters (writeChar c ++ cs) (c :: ds) := by
  unfold writeChar
  split_ifs with h₁ h₂ h₃ h₄ h₅ h₆ h₇ h₈
  -- seven escapes have a letter of their own
  · exact .of_short h₁ rfl h
  · exact .of_short h₂ rfl h
  · exact .of_short h₃ rfl h
  · exact .of_short h₄ rfl h
  · exact .of_short h₅ rfl h
  · exact .of_short h₆ rfl h
  · exact .of_short h₇ rfl h
  · have hunit : CodeUnit ['0', '0', Text.hexDigit (c.toNat / 16), Text.hexDigit (c.toNat % 16)]
        (((0 * 16 + 0) * 16 + c.toNat / 16) * 16 + c.toNat % 16) :=
      .mk rfl rfl (hexValue?_hexDigit _ (by omega)) (hexValue?_hexDigit _ (by omega))
    have hvalue : ((0 * 16 + 0) * 16 + c.toNat / 16) * 16 + c.toNat % 16 = c.toNat := by omega
    rw [hvalue] at hunit
    -- a control character is no half of a surrogate pair
    have hletter := Letters.code hunit (by simp [isLeading]; omega) (by simp [isTrailing]; omega) h
    rwa [Char.ofNat_toNat] at hletter
  · exact .plain h₈ h₁ h₂ h

/-- A written string is read as itself. -/
theorem letters_write (cs : List Char) : Letters (cs.flatMap writeChar) cs := by
  induction cs with
  | nil => exact .nil
  | cons c cs ih => exact letters_writeChar c ih

/-! ### Numerals -/

theorem isDigit_digit : ∀ n < 10, Numeral.isDigit (Numeral.digit n) = true := by
  decide

theorem eq_zero_of_digit : ∀ n < 10, Numeral.digit n = '0' → n = 0 := by
  decide

/-- A number is written in digits, the first of which is zero only for zero itself. -/
theorem writeOnto_eq (n : Nat) (acc : List Char) :
    ∃ d ds, Numeral.writeOnto n acc = d :: (ds ++ acc)
      ∧ (∀ c ∈ d :: ds, Numeral.isDigit c = true) ∧ (d = '0' → n = 0) := by
  fun_induction Numeral.writeOnto n acc with
  | case1 n acc h =>
    exact ⟨_, [], rfl, by simpa using isDigit_digit n h, eq_zero_of_digit n h⟩
  | case2 n acc h ih =>
    obtain ⟨d, ds, heq, hall, hzero⟩ := ih
    -- the digit written last goes to the right of those of the tenth part, which is not zero
    have hlast := isDigit_digit (n % 10) (Nat.mod_lt n (by decide))
    refine ⟨d, ds ++ [Numeral.digit (n % 10)], by simp [heq], ?_, fun hd => ?_⟩
    · simpa [or_imp, forall_and, hlast] using hall
    · have := hzero hd
      omega

theorem whole_write (n : Nat) : Whole (Numeral.write n) := by
  obtain ⟨d, ds, heq, hall, hzero⟩ := writeOnto_eq n []
  rw [List.append_nil] at heq
  refine ⟨⟨?_, ?_⟩, fun hhead => ?_⟩
  · rw [Numeral.write, heq]
    exact List.cons_ne_nil _ _
  · rwa [Numeral.write, heq]
  · rw [Numeral.write, heq] at hhead
    obtain rfl := hzero (Option.some.inj hhead)
    simp [Numeral.write, Numeral.writeOnto, Numeral.digit]

/-! ### Visible text -/

/-- No character of the text is below the space. -/
def Visible (w : List Char) : Prop := ∀ c ∈ w, 0x20 ≤ c.toNat

theorem visible_cons : Visible (c :: w) ↔ 0x20 ≤ c.toNat ∧ Visible w := List.forall_mem_cons

theorem visible_append : Visible (w ++ cs) ↔ Visible w ∧ Visible cs := List.forall_mem_append

/-- Text between two visible characters. -/
theorem Visible.enclosed (h : Visible w) {first last : Char} (hfirst : 0x20 ≤ first.toNat)
    (hlast : 0x20 ≤ last.toNat) : Visible (first :: w ++ [last]) := by
  rw [visible_append, visible_cons, visible_cons]
  exact ⟨⟨hfirst, h⟩, hlast, fun _ hc => absurd hc List.not_mem_nil⟩

theorem visible_hexDigit : ∀ n < 16, 0x20 ≤ (Text.hexDigit n).toNat := by
  decide

theorem visible_writeChar (c : Char) : Visible (writeChar c) := by
  unfold writeChar Visible
  split_ifs with h₁ h₂ h₃ h₄ h₅ h₆ h₇ h₈
  iterate 7 simp
  · have hhigh := visible_hexDigit (c.toNat / 16) (by omega)
    have hlow := visible_hexDigit (c.toNat % 16) (by omega)
    simp [hhigh, hlow]
  · simpa using h₈

theorem visible_writeString (s : String) : Visible (writeString s) := by
  have hletters : Visible (s.toList.flatMap writeChar) := by
    intro d hd
    obtain ⟨c, -, hc⟩ := List.mem_flatMap.mp hd
    exact visible_writeChar c d hc
  exact hletters.enclosed (by decide) (by decide)

theorem visible_write (n : Nat) : Visible (Numeral.write n) := by
  intro c hc
  have hdigit := (whole_write n).digits.all c hc
  simp only [Numeral.isDigit, Bool.and_eq_true, decide_eq_true_eq] at hdigit
  exact Nat.le_trans (by decide) (UInt32.le_iff_toNat_le.mp hdigit.1)

theorem visible_separated {parts : List (List Char)} (h : ∀ part ∈ parts, Visible part) :
    Visible (separated parts) := by
  induction parts with
  | nil => exact fun _ hc => absurd hc List.not_mem_nil
  | cons part parts ih =>
    have hrest := ih fun p hp => h p (List.mem_cons_of_mem _ hp)
    cases parts with
    | nil => exact h part List.mem_cons_self
    | cons =>
      exact visible_append.mpr ⟨h part List.mem_cons_self, visible_cons.mpr ⟨by decide, hrest⟩⟩

/-! ### Words in front of anything -/

/-- A text spells words, whatever follows it that does not go on with a number. -/
def Wrote (w : List Char) (ts : List Token) : Prop :=
  ∀ (cs : List Char) (us : List Token), Ended cs → Spells cs us → Spells (w ++ cs) (ts ++ us)

theorem word_string (s : String) : Word (writeString s) (.text (.ok s)) := by
  have hword := Word.text (letters_write s.toList)
  rwa [String.ofList_toList] at hword

theorem wrote_string (s : String) : Wrote (writeString s) [.text (.ok s)] :=
  fun _ _ _ hcs => .word (word_string s) hcs

theorem wrote_natural (hn : n ≤ maxWhole) :
    Wrote (Numeral.write n) [.number (some (.whole n))] := by
  intro cs us hended hcs
  have hnumber := NumberText.unsigned (whole_write n) .absent .absent
  rw [List.append_nil, List.append_nil] at hnumber
  have hvalue : numberOf false (Numeral.write n) none none = some (.whole n) := by
    simp [numberOf, wholeNumber, Numeral.value_write, hn]
  rw [hvalue] at hnumber
  exact .number hnumber hended hcs

theorem ended_cons (h : isSpace c = true ∨ c = ',' ∨ c = ']' ∨ c = '\x7d') : Ended (c :: cs) := by
  rintro _ ⟨⟩
  exact h

/-- Written parts with commas between them. -/
theorem wrote_separated {α : Type} {text : α → List Char} {words : α → List Token} {parts : List α}
    (h : ∀ p ∈ parts, Wrote (text p) (words p)) :
    Wrote (separated (parts.map text)) (commas (parts.map words)) := by
  induction parts with
  | nil => exact fun _ _ _ hcs => hcs
  | cons p parts ih =>
    have hp := h p List.mem_cons_self
    cases parts with
    | nil => exact hp
    | cons q parts =>
      intro cs us hended hcs
      -- a comma ends whatever stands before it
      have hrest := ih (fun r hr => h r (List.mem_cons_of_mem _ hr)) cs us hended hcs
      have hcomma := hp _ _ (ended_cons (.inr (.inl rfl))) (.word .comma hrest)
      simpa [separated, commas] using hcomma

/-- A written member. -/
theorem wrote_member {e : Entry} (h : Wrote w e.words) :
    Wrote (writeMember e.key w) e.allWords := by
  intro cs us hended hcs
  have hcolon : Spells (':' :: (w ++ cs)) (.colon :: (e.words ++ us)) :=
    .word .colon (h cs us hended hcs)
  simpa [writeMember, Entry.allWords] using Spells.word (word_string e.key) hcolon

/-- A written text spells its words. -/
theorem Wrote.spells (h : Wrote w ts) : Spells w ts := by
  have hspells := h [] [] (by simp [Ended]) .nil
  rwa [List.append_nil, List.append_nil] at hspells

/-! ### Written values -/

/-- A text is written for a value with at most so many containers inside each other. -/
structure Renders (d : Nat) (w : List Char) (i : Item) : Prop where
  visible : Visible w
  wrote : Wrote w i.words
  forms : Forms d i.words i.value

/-- A string. -/
def Item.ofString (s : String) : Item := ⟨[.text (.ok s)], .string s⟩

/-- A natural number. -/
def Item.ofNat (n : Nat) : Item := ⟨[.number (some (.whole n))], .number (.whole n)⟩

/-- An array. -/
def Item.ofItems (items : List Item) : Item := ⟨arrayWords items, .array (items.map Item.value)⟩

/-- An object. -/
def Item.ofEntries (entries : List Entry) : Item :=
  ⟨objectWords entries, ofMembers (entries.map Entry.member)⟩

variable {d : Nat}

theorem renders_string (s : String) : Renders d (writeString s) (.ofString s) :=
  ⟨visible_writeString s, wrote_string s, .string s⟩

theorem renders_natural (hn : n ≤ maxWhole) : Renders d (Numeral.write n) (.ofNat n) :=
  ⟨visible_write n, wrote_natural hn, .number _⟩

/-- An array of written items. -/
theorem renders_array {α : Type} {text : α → List Char} {item : α → Item} {parts : List α}
    (h : ∀ p ∈ parts, Renders d (text p) (item p)) :
    Renders (d + 1) (writeArray (parts.map text)) (.ofItems (parts.map item)) := by
  have hparts := wrote_separated fun p hp => (h p hp).wrote
  have hvisible : Visible (separated (parts.map text)) :=
    visible_separated (List.forall_mem_map.mpr fun p hp => (h p hp).visible)
  refine ⟨?_, fun cs us hended hcs => ?_, .array _ ?_⟩
  · exact hvisible.enclosed (by decide) (by decide)
  · have hclose := hparts _ _ (ended_cons (.inr (.inr (.inl rfl)))) (.word .closeArray hcs)
    simpa [writeArray, Item.ofItems, arrayWords, Function.comp_def] using
      Spells.word .openArray hclose
  · exact List.forall_mem_map.mpr fun p hp => (h p hp).forms

/-- An object of written members. -/
theorem renders_object {parts : List (List Char × Entry)}
    (h : ∀ p ∈ parts, Renders d p.1 p.2.toItem) :
    Renders (d + 1) (writeObject (parts.map fun p => writeMember p.2.key p.1))
      (.ofEntries (parts.map Prod.snd)) := by
  have hparts := wrote_separated fun p hp => wrote_member (h p hp).wrote
  have hvisible : Visible (separated (parts.map fun p => writeMember p.2.key p.1)) :=
    visible_separated (List.forall_mem_map.mpr fun p hp =>
      visible_append.mpr ⟨visible_writeString _, visible_cons.mpr ⟨by decide, (h p hp).visible⟩⟩)
  refine ⟨?_, fun cs us hended hcs => ?_, .object _ ?_⟩
  · exact hvisible.enclosed (by decide) (by decide)
  · have hclose := hparts _ _ (ended_cons (.inr (.inr (.inr rfl)))) (.word .closeObject hcs)
    simpa [writeObject, Item.ofEntries, objectWords, Function.comp_def] using
      Spells.word .openObject hclose
  · exact List.forall_mem_map.mpr fun p hp => (h p hp).forms

/-- Written members are those that the text writes. -/
theorem writesObject_write {parts : List (List Char × Entry)}
    (h : ∀ p ∈ parts, Renders (maxDepth - 1) p.1 p.2.toItem) :
    WritesObject (writeObject (parts.map fun p => writeMember p.2.key p.1))
      (parts.map fun p => p.2.member) :=
  ⟨parts.map Prod.snd, (renders_object h).wrote.spells,
    List.forall_mem_map.mpr fun p hp => (h p hp).forms, by simp⟩

end StompRelay.Json
