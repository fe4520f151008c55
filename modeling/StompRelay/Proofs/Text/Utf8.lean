import Mathlib.Data.List.Basic
import Mathlib.Data.List.Induction
import StompRelay.Text.Utf8
/-!
# UTF-8 read back

The first byte of a character tells how many follow it, so the characters of a text are found again
one after the other. Decoding accepts the bytes of texts and nothing else.

## Main results

* `Utf8.encodeText_eq_toUTF8` — the bytes of a text are those that `String` has for it
* `Utf8.decode_eq_ok_iff`, `Utf8.decodeText_eq_ok_iff` — decoding gives a text exactly for the bytes
  of that text
* `Utf8.mem_encode_iff` — an ASCII byte is among the bytes of a text exactly if its character is in
  the text
-/

namespace StompRelay.Utf8

theorem toNat_lt (c : Char) : c.toNat < 0x110000 := by
  have hvalid := c.valid
  simp only [UInt32.isValidChar, Nat.isValidChar] at hvalid
  exact hvalid.elim (fun h => Nat.lt_trans h (by decide)) And.right

theorem toNat_ofNat {n : Nat} (h : n.isValidChar) : (Char.ofNat n).toNat = n := by
  rw [Char.ofNat, dif_pos h]
  rfl

/-! ### The standard encoding -/

theorem encodeChar_eq_utf8EncodeChar (c : Char) : encodeChar c = String.utf8EncodeChar c := by
  have hlt := toNat_lt c
  unfold encodeChar encodeCode String.utf8EncodeChar
  simp only [Char.toNat] at hlt ⊢
  generalize c.val.toNat = n at hlt
  by_cases h₁ : n < 0x80
  · rw [if_pos h₁, if_pos (by omega)]
  · rw [if_neg h₁, if_neg (by omega : ¬n ≤ 127)]
    by_cases h₂ : n < 0x800
    · rw [if_pos h₂, if_pos (by omega), Nat.mod_eq_of_lt (by omega : n / 64 < 32),
        Nat.add_comm 0xC0, Nat.add_comm 0x80]
    · rw [if_neg h₂, if_neg (by omega : ¬n ≤ 2047)]
      by_cases h₃ : n < 0x10000
      · rw [if_pos h₃, if_pos (by omega), Nat.mod_eq_of_lt (by omega : n / 4096 < 16),
          Nat.add_comm 0xE0, Nat.add_comm 0x80, Nat.add_comm 0x80]
      · rw [if_neg h₃, if_neg (by omega : ¬n ≤ 65535), Nat.mod_eq_of_lt (by omega : n / 262144 < 8),
          Nat.add_comm 0xF0, Nat.add_comm 0x80, Nat.add_comm 0x80, Nat.add_comm 0x80]

/-- The bytes of a text are those that `String` has for it. -/
theorem encodeText_eq_toUTF8 (s : String) : encodeText s = s.toUTF8.data.toList := by
  have hencode : encode s.toList = s.toList.flatMap String.utf8EncodeChar :=
    congrArg s.toList.flatMap (funext encodeChar_eq_utf8EncodeChar)
  have hbytes : s.toUTF8 = (s.toList.flatMap String.utf8EncodeChar).toByteArray := by
    conv => lhs; rw [← String.ofList_toList (s := s)]
    rfl
  rw [encodeText, hencode, hbytes, List.data_toByteArray]

/-! ### Sequences -/

/-- The sequences of bytes that make up one character, and its code point. -/
inductive Sequence : Bytes → Nat → Prop where
  | one {a : UInt8} : a.toNat < 0x80 → Sequence [a] a.toNat
  | two {a b : UInt8} : 0xC2 ≤ a.toNat → a.toNat < 0xE0 → isTail b = true →
    Sequence [a, b] ((a.toNat - 0xC0) * 64 + tailValue b)
  | three {a b c : UInt8} : 0xE0 ≤ a.toNat → a.toNat < 0xF0 → secondOfThree a b = true →
    isTail c = true →
    Sequence [a, b, c] ((a.toNat - 0xE0) * 4096 + tailValue b * 64 + tailValue c)
  | four {a b c d : UInt8} : 0xF0 ≤ a.toNat → a.toNat < 0xF5 → secondOfFour a b = true →
    isTail c = true → isTail d = true →
    Sequence [a, b, c, d]
      ((a.toNat - 0xF0) * 262144 + tailValue b * 4096 + tailValue c * 64 + tailValue d)

section Sequences

variable {a b c d : UInt8} {n : Nat} {bs : Bytes}

theorem isTail_iff : isTail b = true ↔ 0x80 ≤ b.toNat ∧ b.toNat ≤ 0xBF := by
  simp [isTail, UInt8.le_iff_toNat_le]

theorem secondOfThree_iff : secondOfThree a b = true ↔ 0x80 ≤ b.toNat ∧ b.toNat ≤ 0xBF
    ∧ (a.toNat = 0xE0 → 0xA0 ≤ b.toNat) ∧ (a.toNat = 0xED → b.toNat ≤ 0x9F) := by
  have h₀ : a = 0xE0 ↔ a.toNat = 0xE0 := UInt8.toNat_inj.symm
  have h₁ : a = 0xED ↔ a.toNat = 0xED := UInt8.toNat_inj.symm
  simp only [secondOfThree, h₀, h₁]
  split
  · simp only [Bool.and_eq_true, decide_eq_true_eq, UInt8.le_iff_toNat_le, UInt8.reduceToNat]
    omega
  · split
    · simp only [Bool.and_eq_true, decide_eq_true_eq, UInt8.le_iff_toNat_le, UInt8.reduceToNat]
      omega
    · rw [isTail_iff]
      omega

theorem secondOfFour_iff : secondOfFour a b = true ↔ 0x80 ≤ b.toNat ∧ b.toNat ≤ 0xBF
    ∧ (a.toNat = 0xF0 → 0x90 ≤ b.toNat) ∧ (a.toNat = 0xF4 → b.toNat ≤ 0x8F) := by
  have h₀ : a = 0xF0 ↔ a.toNat = 0xF0 := UInt8.toNat_inj.symm
  have h₁ : a = 0xF4 ↔ a.toNat = 0xF4 := UInt8.toNat_inj.symm
  simp only [secondOfFour, h₀, h₁]
  split
  · simp only [Bool.and_eq_true, decide_eq_true_eq, UInt8.le_iff_toNat_le, UInt8.reduceToNat]
    omega
  · split
    · simp only [Bool.and_eq_true, decide_eq_true_eq, UInt8.le_iff_toNat_le, UInt8.reduceToNat]
      omega
    · rw [isTail_iff]
      omega

theorem ofNat_eq (h : n = a.toNat) : UInt8.ofNat n = a := by
  rw [h, UInt8.ofNat_toNat]

theorem encodeCode_one (h : n < 0x80) : encodeCode n = [UInt8.ofNat n] := by
  rw [encodeCode, if_pos h]

theorem encodeCode_two (h : 0x80 ≤ n) (h' : n < 0x800) :
    encodeCode n = [UInt8.ofNat (0xC0 + n / 64), UInt8.ofNat (0x80 + n % 64)] := by
  rw [encodeCode, if_neg (Nat.not_lt.mpr h), if_pos h']

theorem encodeCode_three (h : 0x800 ≤ n) (h' : n < 0x10000) :
    encodeCode n = [UInt8.ofNat (0xE0 + n / 4096), UInt8.ofNat (0x80 + n / 64 % 64),
      UInt8.ofNat (0x80 + n % 64)] := by
  rw [encodeCode, if_neg (by omega), if_neg (Nat.not_lt.mpr h), if_pos h']

theorem encodeCode_four (h : 0x10000 ≤ n) :
    encodeCode n = [UInt8.ofNat (0xF0 + n / 262144), UInt8.ofNat (0x80 + n / 4096 % 64),
      UInt8.ofNat (0x80 + n / 64 % 64), UInt8.ofNat (0x80 + n % 64)] := by
  rw [encodeCode, if_neg (by omega), if_neg (by omega), if_neg (Nat.not_lt.mpr h)]

/-- A sequence is what its code point is encoded as, and that is a character. -/
theorem Sequence.encodeCode_eq (h : Sequence bs n) : encodeCode n = bs ∧ n.isValidChar := by
  cases h with
  | one ha =>
    rw [encodeCode_one ha, UInt8.ofNat_toNat]
    exact ⟨rfl, .inl (by omega)⟩
  | @two a b ha ha' hb =>
    rw [isTail_iff] at hb
    generalize hn : (a.toNat - 0xC0) * 64 + tailValue b = n
    unfold tailValue at hn
    rw [encodeCode_two (by omega) (by omega), ofNat_eq (a := a) (by omega),
      ofNat_eq (a := b) (by omega)]
    exact ⟨rfl, .inl (by omega)⟩
  | @three a b c ha ha' hb hc =>
    rw [secondOfThree_iff] at hb
    rw [isTail_iff] at hc
    generalize hn : (a.toNat - 0xE0) * 4096 + tailValue b * 64 + tailValue c = n
    unfold tailValue at hn
    rw [encodeCode_three (by omega) (by omega), ofNat_eq (a := a) (by omega),
      ofNat_eq (a := b) (by omega), ofNat_eq (a := c) (by omega)]
    refine ⟨rfl, ?_⟩
    -- the second byte keeps the code point out of the surrogates
    by_cases h : a.toNat < 0xEE
    · exact .inl (by omega)
    · exact .inr ⟨by omega, by omega⟩
  | @four a b c d ha ha' hb hc hd =>
    rw [secondOfFour_iff] at hb
    rw [isTail_iff] at hc hd
    generalize hn : (a.toNat - 0xF0) * 262144 + tailValue b * 4096 + tailValue c * 64
      + tailValue d = n
    unfold tailValue at hn
    rw [encodeCode_four (by omega), ofNat_eq (a := a) (by omega), ofNat_eq (a := b) (by omega),
      ofNat_eq (a := c) (by omega), ofNat_eq (a := d) (by omega)]
    exact ⟨rfl, .inr ⟨by omega, by omega⟩⟩

theorem exists_byte (h : n < 256) : ∃ a : UInt8, UInt8.ofNat n = a ∧ a.toNat = n :=
  ⟨_, rfl, by rw [UInt8.toNat_ofNat', Nat.mod_eq_of_lt h]⟩

/-- A character is encoded as a sequence. -/
theorem sequence_encodeCode (h : n.isValidChar) : Sequence (encodeCode n) n := by
  have hlt : n < 0x110000 := h.elim (fun h => Nat.lt_trans h (by decide)) And.right
  have hvalid : n < 0xD800 ∨ 0xDFFF < n := h.imp id And.left
  by_cases h₁ : n < 0x80
  · obtain ⟨a, ha, han⟩ := exists_byte (by omega : n < 256)
    rw [encodeCode_one h₁, ha, ← han]
    exact .one (by omega)
  by_cases h₂ : n < 0x800
  · obtain ⟨a, ha, han⟩ := exists_byte (by omega : 0xC0 + n / 64 < 256)
    obtain ⟨b, hb, hbn⟩ := exists_byte (by omega : 0x80 + n % 64 < 256)
    have hn : n = (a.toNat - 0xC0) * 64 + tailValue b := by unfold tailValue; omega
    rw [encodeCode_two (by omega) h₂, ha, hb, hn]
    exact .two (by omega) (by omega) (isTail_iff.mpr (by omega))
  by_cases h₃ : n < 0x10000
  · obtain ⟨a, ha, han⟩ := exists_byte (by omega : 0xE0 + n / 4096 < 256)
    obtain ⟨b, hb, hbn⟩ := exists_byte (by omega : 0x80 + n / 64 % 64 < 256)
    obtain ⟨c, hc, hcn⟩ := exists_byte (by omega : 0x80 + n % 64 < 256)
    have hn : n = (a.toNat - 0xE0) * 4096 + tailValue b * 64 + tailValue c := by
      unfold tailValue; omega
    rw [encodeCode_three (by omega) h₃, ha, hb, hc, hn]
    exact .three (by omega) (by omega) (secondOfThree_iff.mpr (by omega))
      (isTail_iff.mpr (by omega))
  · obtain ⟨a, ha, han⟩ := exists_byte (by omega : 0xF0 + n / 262144 < 256)
    obtain ⟨b, hb, hbn⟩ := exists_byte (by omega : 0x80 + n / 4096 % 64 < 256)
    obtain ⟨c, hc, hcn⟩ := exists_byte (by omega : 0x80 + n / 64 % 64 < 256)
    obtain ⟨d, hd, hdn⟩ := exists_byte (by omega : 0x80 + n % 64 < 256)
    have hn : n = (a.toNat - 0xF0) * 262144 + tailValue b * 4096 + tailValue c * 64
        + tailValue d := by unfold tailValue; omega
    rw [encodeCode_four (by omega), ha, hb, hc, hd, hn]
    exact .four (by omega) (by omega) (secondOfFour_iff.mpr (by omega))
      (isTail_iff.mpr (by omega)) (isTail_iff.mpr (by omega))

end Sequences

/-! ### Decoding -/

section Decoding

variable {i n : Nat} {acc cs : List Char} {bs rest : Bytes} {s : String}

/-- A sequence decodes to its character. -/
theorem Sequence.decodeFrom_append (h : Sequence bs n) (i : Nat) (acc : List Char) (rest : Bytes) :
    decodeFrom i acc (bs ++ rest) = decodeFrom (i + bs.length) (Char.ofNat n :: acc) rest := by
  have lt {a b : UInt8} (h : a.toNat < b.toNat) : a < b := UInt8.lt_iff_toNat_lt.mpr h
  have ge {a b : UInt8} (h : b.toNat ≤ a.toNat) : ¬a < b := UInt8.not_lt.mpr h
  rw [decodeFrom.eq_def]
  cases h with
  | one ha =>
    dsimp only [List.cons_append]
    rw [if_pos (lt ha)]
    rfl
  | two ha ha' hb =>
    dsimp only [List.cons_append]
    rw [if_neg (ge (Nat.le_trans (by decide) ha)), if_neg (ge (b := 0xC2) ha), if_pos (lt ha'),
      if_pos hb]
    rfl
  | three ha ha' hb hc =>
    dsimp only [List.cons_append]
    rw [if_neg (ge (Nat.le_trans (by decide) ha)), if_neg (ge (Nat.le_trans (by decide) ha)),
      if_neg (ge (b := 0xE0) ha), if_pos (lt ha'), if_pos hb, if_pos hc]
    rfl
  | four ha ha' hb hc hd =>
    dsimp only [List.cons_append]
    rw [if_neg (ge (Nat.le_trans (by decide) ha)), if_neg (ge (Nat.le_trans (by decide) ha)),
      if_neg (ge (Nat.le_trans (by decide) ha)), if_neg (ge (b := 0xF0) ha), if_pos (lt ha'),
      if_pos hb, if_pos hc, if_pos hd]
    rfl

/-- A text decodes from its bytes. -/
theorem decodeFrom_encode (i : Nat) (acc cs : List Char) :
    decodeFrom i acc (encode cs) = .ok (acc.reverse ++ cs) := by
  induction cs generalizing i acc with
  | nil => rw [encode_nil, decodeFrom, List.append_nil]
  | cons c cs ih =>
    have hseq : Sequence (encodeChar c) c.toNat := sequence_encodeCode c.valid
    rw [encode_cons, hseq.decodeFrom_append, ih, Char.ofNat_toNat, List.reverse_cons,
      List.append_assoc, List.singleton_append]

/-- A sequence before the bytes of a text makes the bytes of a text. -/
theorem Sequence.append_encode (h : Sequence bs n) (ds : List Char) :
    bs ++ encode ds = encode (Char.ofNat n :: ds) := by
  obtain ⟨henc, hvalid⟩ := h.encodeCode_eq
  rw [encode_cons, encodeChar, toNat_ofNat hvalid, henc]

/-- What decodes to a text is the bytes of its characters. -/
theorem eq_encode_of_decodeFrom (h : decodeFrom i acc bs = .ok cs) :
    ∃ ds, cs = acc.reverse ++ ds ∧ bs = encode ds := by
  -- a sequence at the start goes to the text decoded so far
  have step {bs rest : Bytes} {n : Nat} {acc : List Char} (hseq : Sequence bs n)
      (ih : ∃ ds, cs = (Char.ofNat n :: acc).reverse ++ ds ∧ rest = encode ds) :
      ∃ ds, cs = acc.reverse ++ ds ∧ bs ++ rest = encode ds := by
    obtain ⟨ds, rfl, rfl⟩ := ih
    exact ⟨Char.ofNat n :: ds, by simp, hseq.append_encode ds⟩
  fun_induction decodeFrom i acc bs with
  | case1 =>
    cases h
    exact ⟨[], by simp⟩
  | case2 i acc a rest ha ih =>
    exact step (.one (UInt8.lt_iff_toNat_lt.mp ha)) (ih h)
  | case5 i acc a h₁ h₂ h₃ b rest hb ih =>
    exact step (.two (UInt8.not_lt.mp h₂) (UInt8.lt_iff_toNat_lt.mp h₃) hb) (ih h)
  | case9 i acc a h₁ h₂ h₃ h₄ b hb c rest hc ih =>
    exact step (.three (UInt8.not_lt.mp h₃) (UInt8.lt_iff_toNat_lt.mp h₄) hb hc) (ih h)
  | case15 i acc a h₁ h₂ h₃ h₄ h₅ b hb c hc d rest hd ih =>
    exact step (.four (UInt8.not_lt.mp h₄) (UInt8.lt_iff_toNat_lt.mp h₅) hb hc hd) (ih h)
  | _ => cases h

/-- Decoding gives a text exactly for the bytes of that text. -/
theorem decode_eq_ok_iff : decode bs = .ok cs ↔ bs = encode cs := by
  constructor
  · intro h
    obtain ⟨ds, rfl, rfl⟩ := eq_encode_of_decodeFrom h
    rfl
  · rintro rfl
    exact decodeFrom_encode 0 [] cs

/-- Texts with the same bytes are the same. -/
theorem encode_inj {ds : List Char} : encode cs = encode ds ↔ cs = ds := by
  constructor
  · intro h
    have hds : decode (encode cs) = .ok ds := decode_eq_ok_iff.mpr h
    rwa [decode_eq_ok_iff.mpr rfl, Except.ok.injEq] at hds
  · rintro rfl
    rfl

theorem ofList_eq_iff : String.ofList cs = s ↔ cs = s.toList := by
  rw [← String.toList_inj, String.toList_ofList]

/-- Decoding gives a text exactly for the bytes of that text. -/
theorem decodeText_eq_ok_iff : decodeText bs = .ok s ↔ bs = encodeText s := by
  rw [decodeText, encodeText, ← decode_eq_ok_iff]
  cases decode bs <;> simp [Except.map, ofList_eq_iff]

end Decoding

/-! ### ASCII -/

section Ascii

variable {b : UInt8} {n : Nat} {c : Char} {bs : Bytes} {cs : List Char}

/-- No sequence but its own holds an ASCII byte. -/
theorem Sequence.eq_of_mem (h : Sequence bs n) (hb : b.toNat < 0x80) (hmem : b ∈ bs) :
    bs = [b] ∧ n = b.toNat := by
  have tail {a : UInt8} (ha : isTail a = true) : b ≠ a := by
    rintro rfl
    exact absurd (isTail_iff.mp ha).1 (Nat.not_le.mpr hb)
  have lead {a : UInt8} {k : Nat} (ha : k ≤ a.toNat) (hk : 0x80 ≤ k) : b ≠ a := by
    rintro rfl
    omega
  cases h with
  | one ha =>
    rw [List.mem_singleton] at hmem
    exact ⟨by rw [hmem], by rw [hmem]⟩
  | two ha ha' hb' => simp [lead ha (by decide), tail hb'] at hmem
  | three ha ha' hb' hc =>
    have hb'' := lead (secondOfThree_iff.mp hb').1 (Nat.le_refl _)
    simp [lead ha (by decide), hb'', tail hc] at hmem
  | four ha ha' hb' hc hd =>
    have hb'' := lead (secondOfFour_iff.mp hb').1 (Nat.le_refl _)
    simp [lead ha (by decide), hb'', tail hc, tail hd] at hmem

/-- An ASCII byte is in the bytes of its own character only, and alone there. -/
theorem mem_encodeChar_iff (hb : b.toNat < 0x80) : b ∈ encodeChar c ↔ encodeChar c = [b] := by
  have hseq : Sequence (encodeChar c) c.toNat := sequence_encodeCode c.valid
  exact ⟨fun h => (hseq.eq_of_mem hb h).1, fun h => h ▸ List.mem_singleton_self b⟩

theorem encodeChar_eq_singleton_iff (hb : b.toNat < 0x80) :
    encodeChar c = [b] ↔ c = Char.ofNat b.toNat := by
  constructor
  · intro h
    have hseq : Sequence (encodeChar c) c.toNat := sequence_encodeCode c.valid
    rw [← (hseq.eq_of_mem hb (h ▸ List.mem_singleton_self b)).2, Char.ofNat_toNat]
  · rintro rfl
    obtain ⟨henc, hvalid⟩ := (Sequence.one hb).encodeCode_eq
    rw [encodeChar, toNat_ofNat hvalid, henc]

/-- An ASCII byte is among the bytes of a text exactly if its character is in the text. -/
theorem mem_encode_iff (hb : b.toNat < 0x80) : b ∈ encode cs ↔ Char.ofNat b.toNat ∈ cs := by
  rw [encode, List.mem_flatMap]
  constructor
  · rintro ⟨c, hc, hmem⟩
    rw [mem_encodeChar_iff hb, encodeChar_eq_singleton_iff hb] at hmem
    exact hmem ▸ hc
  · intro hc
    exact ⟨_, hc, (mem_encodeChar_iff hb).mpr ((encodeChar_eq_singleton_iff hb).mpr rfl)⟩

/-- The bytes of a text end in an ASCII byte exactly if the text ends in its character. -/
theorem getLast?_encode_iff (hb : b.toNat < 0x80) :
    (encode cs).getLast? = some b ↔ cs.getLast? = some (Char.ofNat b.toNat) := by
  induction cs using List.reverseRecOn with
  | nil => simp
  | append_singleton cs c =>
    have hne : encodeChar c ≠ [] := by
      rw [encodeChar_eq_utf8EncodeChar]
      exact String.utf8EncodeChar_ne_nil
    rw [encode_append, encode_cons, encode_nil, List.append_nil,
      List.getLast?_append_of_ne_nil _ hne, List.getLast?_concat, Option.some.injEq,
      ← encodeChar_eq_singleton_iff hb]
    constructor
    · intro h
      exact (mem_encodeChar_iff hb).mp (List.mem_of_getLast? h)
    · intro h
      rw [h, List.getLast?_singleton]

end Ascii

end StompRelay.Utf8
