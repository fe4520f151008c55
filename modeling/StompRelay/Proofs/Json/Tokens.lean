import StompRelay.Proofs.Json.Grammar
/-!
# Scanning what is spelled

A text that spells words is scanned into exactly these words. A word that ends by itself is taken
off whatever follows it. A number goes on as long as it can, so what follows it must not go on
with it.

## Main results

* `Json.Letters.scanString_eq`, `Json.NumberText.scanNumber_eq` — strings and numbers
* `Json.Word.scanWord_eq` — the words that end by themselves
* `Json.Spells.tokens_eq` — whole texts
-/

namespace StompRelay.Json

variable {cs ds us rest : List Char} {n : Nat}

/-! ### Strings -/

theorem CodeUnit.codeUnit_eq (h : CodeUnit us n) (rest : List Char) :
    codeUnit (us ++ rest) = .ok n := by
  obtain ⟨ha, hb, hc, hd⟩ := h
  simp [codeUnit, ha, hb, hc, hd]

theorem CodeUnit.drop_eq (h : CodeUnit us n) (rest : List Char) : (us ++ rest).drop 4 = rest := by
  cases h
  rfl

/-- A pair of escapes stands for one character. -/
theorem CodeUnit.pairWith_eq (h : CodeUnit us n) (htrail : isTrailing n = true) (first : Nat)
    (rest : List Char) :
    pairWith first ('\\' :: 'u' :: (us ++ rest))
      = .ok (Char.ofNat (0x10000 + (first - 0xD800) * 0x400 + (n - 0xDC00))) := by
  simp [pairWith, h.codeUnit_eq, htrail, bind, Except.bind]

/-- The letters of a string are scanned up to its closing quote. -/
theorem Letters.scanString_eq (h : Letters cs ds) (acc rest : List Char) :
    scanString acc none (cs ++ '"' :: rest)
      = (.text (.ok (String.ofList (acc.reverse ++ ds))), rest) := by
  -- no letter leaves an unpaired half behind, so the scan goes on with none throughout
  induction h generalizing acc with
  | nil => simp [scanString]
  | plain hspace hquote hslash _ ih =>
    rw [List.cons_append, scanString.eq_def]
    simp [hspace, hslash, ih]
  | @short c d cs ds hc _ ih =>
    have hu : c ≠ 'u' := by
      rintro rfl
      cases hc
    rw [List.cons_append, List.cons_append, scanString.eq_def]
    simp [hc, ih]
  | code hus hlead htrail _ ih =>
    rw [List.cons_append, List.cons_append, List.append_assoc, scanString.eq_def]
    simp [hus.codeUnit_eq, hus.drop_eq, hlead, htrail, ih]
  | @pair us vs cs ds m n hus hlead hvs htrail _ ih =>
    -- a first half is no second half
    have hfirst : isTrailing m = false := by
      simp only [isLeading, isTrailing, Bool.and_eq_true, decide_eq_true_eq, Bool.and_eq_false_iff,
        decide_eq_false_iff_not] at hlead ⊢
      omega
    -- the scan drops both escapes at once
    have hdrop : (us ++ '\\' :: 'u' :: (vs ++ (cs ++ '"' :: rest))).drop 10
        = cs ++ '"' :: rest := by
      cases hus
      cases hvs
      rfl
    simp only [List.cons_append, List.append_assoc]
    rw [scanString.eq_def]
    simp [hus.codeUnit_eq, hus.drop_eq, hlead, hfirst, hvs.pairWith_eq htrail, hdrop, ih]

/-! ### Numbers -/

/-- Digits are scanned up to what is none. -/
theorem Digits.scanDigits_eq (h : Digits ds) (hrest : ∀ c ∈ rest.head?, Numeral.isDigit c = false) :
    scanDigits (ds ++ rest) = .ok (ds, rest) := by
  have htake : rest.takeWhile Numeral.isDigit = [] := by
    cases rest with
    | nil => rfl
    | cons c rest => simp [hrest c rfl]
  have hdrop : rest.dropWhile Numeral.isDigit = rest := by
    cases rest with
    | nil => rfl
    | cons c rest => simp [hrest c rfl]
  simp [scanDigits, List.takeWhile_append_of_pos h.all, List.dropWhile_append_of_pos h.all, htake,
    hdrop, h.ne_nil]

/-- What follows a number does not go on with it. -/
theorem Ended.head (h : Ended rest) (c : Char) (hc : c ∈ rest.head?) :
    Numeral.isDigit c = false ∧ c ≠ '.' ∧ c ≠ 'e' ∧ c ≠ 'E' := by
  rcases h c hc with hspace | rfl | rfl | rfl
  · simp only [isSpace, Bool.or_eq_true, beq_iff_eq] at hspace
    rcases hspace with ((rfl | rfl) | rfl) | rfl <;> decide
  all_goals decide

section Number

variable {fs ps : List Char} {fraction : Option (List Char)} {power : Option Int}

theorem Power.head (h : Power ps power) (hrest : Ended rest) (c : Char)
    (hc : c ∈ (ps ++ rest).head?) : Numeral.isDigit c = false ∧ c ≠ '.' := by
  cases h with
  | absent => exact ⟨(hrest.head c hc).1, (hrest.head c hc).2.1⟩
  | unsigned he | positive he | negative he =>
    cases hc
    rcases he with rfl | rfl <;> decide

theorem Power.scanPower_eq (h : Power ps power) (hrest : Ended rest) :
    scanPower (ps ++ rest) = .ok (power, rest) := by
  have stops : ∀ c ∈ rest.head?, Numeral.isDigit c = false := fun c hc => (hrest.head c hc).1
  cases h with
  | absent =>
    cases rest with
    | nil => rfl
    | cons c rest =>
      obtain ⟨-, -, he, hE⟩ := hrest.head c rfl
      simp [scanPower, he, hE]
  | @unsigned e ds he hds =>
    -- the first digit is no sign
    obtain ⟨d, ds', rfl⟩ := List.exists_cons_of_ne_nil hds.ne_nil
    have hd : Numeral.isDigit d = true := hds.all d List.mem_cons_self
    have hminus : d ≠ '-' := by
      rintro rfl
      cases hd
    have hplus : d ≠ '+' := by
      rintro rfl
      cases hd
    have hscan := hds.scanDigits_eq stops
    rw [List.cons_append] at hscan
    simp [scanPower, he, hminus, hplus, hscan, Except.map]
  | positive he hds => simp [scanPower, he, hds.scanDigits_eq stops, Except.map]
  | negative he hds => simp [scanPower, he, hds.scanDigits_eq stops, Except.map]

theorem Fraction.head (h : Fraction fs fraction)
    (hrest : ∀ c ∈ rest.head?, Numeral.isDigit c = false) :
    ∀ c ∈ (fs ++ rest).head?, Numeral.isDigit c = false := by
  cases h with
  | absent => exact hrest
  | present =>
    rintro c ⟨⟩
    decide

theorem Fraction.scanFraction_eq (h : Fraction fs fraction)
    (hrest : ∀ c ∈ rest.head?, Numeral.isDigit c = false ∧ c ≠ '.') :
    scanFraction (fs ++ rest) = .ok (fraction, rest) := by
  have stops : ∀ c ∈ rest.head?, Numeral.isDigit c = false := fun c hc => (hrest c hc).1
  cases h with
  | absent =>
    rw [List.nil_append, scanFraction.eq_def]
    split
    · exact absurd rfl (hrest '.' rfl).2
    · rfl
  | present hds => simp [scanFraction, hds.scanDigits_eq stops, Except.map]

theorem Whole.scanUnsigned_eq (hds : Whole ds) (hfs : Fraction fs fraction) (hps : Power ps power)
    (hrest : Ended rest) (negative : Bool) :
    scanUnsigned negative (ds ++ (fs ++ (ps ++ rest)))
      = .ok (numberOf negative ds fraction power, rest) := by
  -- each part stops where the next begins, and the last at what follows the number
  have hpower := hps.head hrest
  have hdigits := hds.digits.scanDigits_eq (hfs.head fun c hc => (hpower c hc).1)
  have hzero : ¬(1 < ds.length ∧ ds.head? = some '0') := by
    rintro ⟨hlen, hhead⟩
    rw [hds.zero hhead] at hlen
    exact absurd hlen (by decide)
  simp [scanUnsigned, hdigits, hzero, hfs.scanFraction_eq hpower, hps.scanPower_eq hrest]

theorem isDigit_of_whole {d : Char} (h : Whole (d :: ds)) : Numeral.isDigit d = true :=
  h.digits.all d List.mem_cons_self

/-- A number starts with its sign or with a digit, and is taken off the text. -/
theorem NumberText.scanNumber_eq {w : List Char} {n : Option Number} (h : NumberText w n)
    (hrest : Ended rest) :
    scanNumber (w ++ rest) = (.number n, rest)
      ∧ ∃ c cs, w = c :: cs ∧ (c = '-' ∨ Numeral.isDigit c = true) := by
  cases h with
  | @unsigned ds fs ps fraction power hds hfs hps =>
    obtain ⟨d, ds', rfl⟩ := List.exists_cons_of_ne_nil hds.digits.ne_nil
    have hd := isDigit_of_whole hds
    have hminus : d ≠ '-' := by
      rintro rfl
      cases hd
    -- without a sign the text starts with a digit, which is no sign either
    have hscan := hds.scanUnsigned_eq hfs hps hrest false
    refine ⟨?_, d, ds' ++ (fs ++ ps), rfl, .inr hd⟩
    simp only [List.cons_append, List.append_assoc] at hscan ⊢
    simp [scanNumber, scanSigned, hminus, hscan]
  | signed hds hfs hps =>
    refine ⟨?_, _, _, rfl, .inl rfl⟩
    have hscan := hds.scanUnsigned_eq hfs hps hrest true
    simp [scanNumber, scanSigned, hscan]

end Number

/-! ### Words -/

theorem scanName_append (word : Token) (expected rest : List Char) :
    scanName word expected (expected ++ rest) = (word, rest) := by
  induction expected with
  | nil => rfl
  | cons e expected ih => simp [scanName, ih]

/-- A word that ends by itself is taken off the text. -/
theorem Word.scanWord_eq {w : List Char} {t : Token} (h : Word w t) (rest : List Char) :
    ∃ c cs, w = c :: cs ∧ isSpace c = false ∧ scanWord c (cs ++ rest) = (t, rest) := by
  cases h with
  | nullName => exact ⟨_, _, rfl, rfl, scanName_append .null ['u', 'l', 'l'] rest⟩
  | trueName => exact ⟨_, _, rfl, rfl, scanName_append (.bool true) ['r', 'u', 'e'] rest⟩
  | falseName => exact ⟨_, _, rfl, rfl, scanName_append (.bool false) ['a', 'l', 's', 'e'] rest⟩
  | text hcs =>
    refine ⟨_, _, rfl, rfl, ?_⟩
    rw [List.append_assoc]
    exact hcs.scanString_eq [] rest
  | _ => exact ⟨_, _, rfl, rfl, rfl⟩

/-- A number is a word that starts with no other. -/
theorem scanWord_of_number {c : Char} (h : c = '-' ∨ Numeral.isDigit c = true) :
    isSpace c = false ∧ scanWord c rest = scanNumber (c :: rest) := by
  constructor
  · refine Bool.eq_false_iff.mpr fun hspace => ?_
    simp only [isSpace, Bool.or_eq_true, beq_iff_eq] at hspace
    rcases hspace with ((rfl | rfl) | rfl) | rfl <;> exact absurd h (by decide)
  · -- neither a sign nor a digit starts one of the other words
    unfold scanWord
    split
    case h_11 => simp [h]
    all_goals exact absurd h (by decide)

theorem Spells.tokensFrom_eq {ts : List Token} (h : Spells cs ts) (acc : List Token) :
    tokensFrom acc cs = acc.reverse ++ ts := by
  -- a blank is passed over; a word is taken off whole
  induction h generalizing acc with
  | nil => simp [tokensFrom]
  | blank hc _ ih => rw [tokensFrom, if_pos hc, ih]
  | word hw _ ih =>
    obtain ⟨c, cs, rfl, hspace, hscan⟩ := hw.scanWord_eq _
    rw [List.cons_append, tokensFrom, hspace, hscan, if_neg Bool.false_ne_true, ih]
    simp
  | number hw hended _ ih =>
    obtain ⟨hscan, c, cs, rfl, hc⟩ := hw.scanNumber_eq hended
    obtain ⟨hspace, hword⟩ := scanWord_of_number hc
    rw [List.cons_append, tokensFrom, hspace, hword, ← List.cons_append, hscan,
      if_neg Bool.false_ne_true, ih]
    simp

/-- A text is scanned into the words that it spells. -/
theorem Spells.tokens_eq {ts : List Token} (h : Spells cs ts) : tokens cs = ts :=
  h.tokensFrom_eq []

end StompRelay.Json
