import StompRelay.Proofs.Frame.Tidy
/-!
# Escaping is exact

Names and values are escaped byte by byte and read character by character. Both go together because
a byte that is escaped is never a part of a longer character: escaping the bytes of a text gives the
bytes of the escaped text. What can be read back is more than what is written, since a character
that would have been escaped may also stand for itself.

## Main definitions

* `Frame.Piece` — what escaped texts are put together from
* `Frame.escapeBytes` — escaping byte by byte

## Main results

* `Frame.escapes_iff_exists_pieces` — a text is escaped exactly if it is put together from pieces
* `Frame.escapeBytes_encode` — escaping the bytes of a text gives the bytes of the escaped text
* `Frame.escaping_exact` — what escaped texts look like, what they read as, and which texts do not
  read
-/

namespace StompRelay.Frame

variable {c : Command} {h : Header} {cs ds : List Char} {fault : Fault} {b : UInt8}

/-! ### Pieces -/

/-- A part of an escaped text that stands for one character. -/
inductive Piece where
  /-- A character that stands for itself. -/
  | plain (c : Char) (ne : c ≠ '\\')
  | backslash
  | lineFeed
  | carriageReturn
  | colon
  deriving DecidableEq, Repr

namespace Piece

/-- The characters of a piece. -/
def text : Piece → List Char
  | plain c _ => [c]
  | backslash => ['\\', '\\']
  | lineFeed => ['\\', 'n']
  | carriageReturn => ['\\', 'r']
  | colon => ['\\', 'c']

/-- The character that a piece stands for. -/
def meaning : Piece → Char
  | plain c _ => c
  | backslash => '\\'
  | lineFeed => '\n'
  | carriageReturn => '\r'
  | colon => ':'

end Piece

theorem Escapes.cons (p : Piece) (h : Escapes cs ds) :
    Escapes (p.text ++ cs) (p.meaning :: ds) := by
  cases p with
  | plain c ne => exact .plain ne h
  | backslash => exact .backslash h
  | lineFeed => exact .lineFeed h
  | carriageReturn => exact .carriageReturn h
  | colon => exact .colon h

/-- A text is escaped exactly if it is put together from pieces, and then it stands for what these
stand for. -/
theorem escapes_iff_exists_pieces : Escapes cs ds ↔
    ∃ ps : List Piece, cs = ps.flatMap Piece.text ∧ ds = ps.map Piece.meaning := by
  constructor
  · intro h
    -- each piece put in front is one constructor
    have cons {cs ds : List Char} (p : Piece)
        (ih : ∃ ps : List Piece, cs = ps.flatMap Piece.text ∧ ds = ps.map Piece.meaning) :
        ∃ ps : List Piece, p.text ++ cs = ps.flatMap Piece.text
          ∧ p.meaning :: ds = ps.map Piece.meaning := by
      obtain ⟨ps, rfl, rfl⟩ := ih
      exact ⟨p :: ps, rfl, rfl⟩
    induction h with
    | nil => exact ⟨[], rfl, rfl⟩
    | plain ne _ ih => exact cons (.plain _ ne) ih
    | backslash _ ih => exact cons .backslash ih
    | lineFeed _ ih => exact cons .lineFeed ih
    | carriageReturn _ ih => exact cons .carriageReturn ih
    | colon _ ih => exact cons .colon ih
  · rintro ⟨ps, rfl, rfl⟩
    induction ps with
    | nil => exact .nil
    | cons p ps ih => exact ih.cons p

/-- A text without a backslash is escaped as it is. -/
theorem escapes_self (h : '\\' ∉ cs) : Escapes cs cs := by
  induction cs with
  | nil => exact .nil
  | cons c cs ih =>
    rw [List.mem_cons, not_or] at h
    exact .plain (Ne.symm h.1) (ih h.2)

/-! ### Bytes -/

/-- The byte that begins a pair. -/
def backslash : UInt8 := 0x5C

/-- The escaped form of a byte. -/
def escapeByte (b : UInt8) : Bytes :=
  if b = backslash then [backslash, backslash]
  else if b = lf then [backslash, 0x6E]
  else if b = cr then [backslash, 0x72]
  else if b = colon then [backslash, 0x63]
  else [b]

/-- The escaped form of a byte string. -/
def escapeBytes (bs : Bytes) : Bytes := bs.flatMap escapeByte

/-- The bytes of a character are escaped as the character is. -/
theorem escapeBytes_encodeChar (c : Char) :
    escapeBytes (Utf8.encodeChar c) = Utf8.encode (escapeOne c) := by
  by_cases h₁ : c = '\\'
  · subst h₁
    decide
  by_cases h₂ : c = '\n'
  · subst h₂
    decide
  by_cases h₃ : c = '\r'
  · subst h₃
    decide
  by_cases h₄ : c = ':'
  · subst h₄
    decide
  -- no other character has a byte that is escaped
  have ne (a : UInt8) (ha : a.toNat < 0x80) (hc : c ≠ Char.ofNat a.toNat) {b : UInt8}
      (hb : b ∈ Utf8.encodeChar c) : b ≠ a := by
    rintro rfl
    exact hc ((Utf8.encodeChar_eq_singleton_iff ha).mp ((Utf8.mem_encodeChar_iff ha).mp hb))
  have plain : ∀ b ∈ Utf8.encodeChar c, escapeByte b = [b] := fun b hb => by
    rw [escapeByte, if_neg (ne backslash (by decide) h₁ hb), if_neg (ne lf (by decide) h₂ hb),
      if_neg (ne cr (by decide) h₃ hb), if_neg (ne colon (by decide) h₄ hb)]
  rw [escapeOne, if_neg h₁, if_neg h₂, if_neg h₃, if_neg h₄, escapeBytes, List.flatMap_congr plain]
  simp

/-- Escaping the bytes of a text gives the bytes of the escaped text. -/
theorem escapeBytes_encode (cs : List Char) :
    escapeBytes (Utf8.encode cs) = Utf8.encode (escape cs) := by
  induction cs with
  | nil => rfl
  | cons c cs ih =>
    rw [Utf8.encode_cons, escape_cons, Utf8.encode_append, ← ih, ← escapeBytes_encodeChar]
    exact List.flatMap_append

/-- No byte that ends a line or a name is left. -/
theorem notMem_escapeBytes_encode (hlt : b.toNat < 0x80)
    (hb : Char.ofNat b.toNat ∈ ['\n', '\r', ':']) : b ∉ escapeBytes (Utf8.encode cs) := by
  rw [escapeBytes_encode, Utf8.mem_encode_iff hlt]
  exact notMem_escape hb

/-- The name and the value of a header are escaped byte by byte. -/
theorem headerLine_of_not_verbatim (hc : ¬c.Verbatim) :
    headerLine c h = escapeBytes (Utf8.encodeText h.name)
      ++ colon :: escapeBytes (Utf8.encodeText h.value) ++ [lf] := by
  have hcolon : Utf8.encodeChar ':' = [colon] := rfl
  rw [headerLine, spell_of_not_verbatim hc, spell_of_not_verbatim hc, Utf8.encode_append,
    Utf8.encode_cons, hcolon, Utf8.encodeText, Utf8.encodeText, escapeBytes_encode,
    escapeBytes_encode]
  rfl

/-! ### Escaping and reading -/

/-- A text reads exactly if it is put together from pieces. -/
theorem unescape_eq_ok_iff_exists_pieces : unescape cs = .ok ds ↔
    ∃ ps : List Piece, cs = ps.flatMap Piece.text ∧ ds = ps.map Piece.meaning :=
  unescape_eq_ok_iff.trans escapes_iff_exists_pieces

/-- A text does not read exactly if there is a stray backslash after some pieces. -/
theorem unescape_eq_error_iff_exists_pieces : unescape cs = .error fault ↔
    ∃ (ps : List Piece) (rest : List Char),
      cs = ps.flatMap Piece.text ++ rest ∧ Stray rest fault := by
  rw [unescape_eq_error_iff]
  constructor
  · rintro ⟨bs, ds, rest, rfl, hes, hstray⟩
    obtain ⟨ps, rfl, -⟩ := escapes_iff_exists_pieces.mp hes
    exact ⟨ps, rest, rfl, hstray⟩
  · rintro ⟨ps, rest, rfl, hstray⟩
    exact ⟨_, _, rest, rfl, escapes_iff_exists_pieces.mpr ⟨ps, rfl, rfl⟩, hstray⟩

/-- Escaping is exact. For every text `cs`:

* escaped byte by byte, it is still UTF-8, namely that of the escaped text, without a line feed, a
  carriage return or a colon; and this is how the names and values of headers are written, except in
  a login;
* the escaped text reads as the text.

For every text `ws`:

* it reads exactly if it is put together from characters other than backslashes and from the four
  pairs, and then as what these stand for; without a backslash, that is the text itself;
* what it reads as is escaped to the text again exactly if there is no line feed, no carriage return
  and no colon in the text;
* otherwise it does not read, and the fault is that of the first backslash that is not in a pair. -/
theorem escaping_exact (cs ws : List Char) :
    (Utf8.decode (escapeBytes (Utf8.encode cs)) = .ok (escape cs)
        ∧ escapeBytes (Utf8.encode cs) = (String.ofList (escape cs)).toUTF8.data.toList
        ∧ lf ∉ escapeBytes (Utf8.encode cs) ∧ cr ∉ escapeBytes (Utf8.encode cs)
        ∧ colon ∉ escapeBytes (Utf8.encode cs)
        ∧ unescape (escape cs) = .ok cs)
      ∧ (∀ (c : Command) (h : Header), ¬c.Verbatim →
        headerLine c h = escapeBytes (Utf8.encodeText h.name)
          ++ colon :: escapeBytes (Utf8.encodeText h.value) ++ [lf])
      ∧ (∀ ds, unescape ws = .ok ds ↔
        ∃ ps : List Piece, ws = ps.flatMap Piece.text ∧ ds = ps.map Piece.meaning)
      ∧ ('\\' ∉ ws → unescape ws = .ok ws)
      ∧ (∀ ds, unescape ws = .ok ds →
        (escape ds = ws ↔ '\n' ∉ ws ∧ '\r' ∉ ws ∧ ':' ∉ ws))
      ∧ ((∀ ps : List Piece, ws ≠ ps.flatMap Piece.text) → ∃ fault, unescape ws = .error fault)
      ∧ (∀ fault, unescape ws = .error fault ↔
        ∃ (ps : List Piece) (rest : List Char),
          ws = ps.flatMap Piece.text ++ rest ∧ Stray rest fault) := by
  refine ⟨⟨?_, ?_, ?_, ?_, ?_, unescape_escape cs⟩, fun c h => headerLine_of_not_verbatim,
    fun ds => unescape_eq_ok_iff_exists_pieces, fun hws => (escapes_self hws).unescape_eq, ?_, ?_,
    fun fault => unescape_eq_error_iff_exists_pieces⟩
  · exact Utf8.decode_eq_ok_iff.mpr (escapeBytes_encode cs)
  · rw [← Utf8.encodeText_eq_toUTF8, Utf8.encodeText, String.toList_ofList]
    exact escapeBytes_encode cs
  · exact notMem_escapeBytes_encode (by decide) (by decide)
  · exact notMem_escapeBytes_encode (by decide) (by decide)
  · exact notMem_escapeBytes_encode (by decide) (by decide)
  · intro ds hds
    rw [eq_comm, (unescape_eq_ok_iff.mp hds).eq_escape_iff]
  · intro hws
    cases hread : unescape ws with
    | error fault => exact ⟨fault, rfl⟩
    | ok ds =>
      obtain ⟨ps, hps, -⟩ := unescape_eq_ok_iff_exists_pieces.mp hread
      exact absurd hps (hws ps)

/-- A backslash that was escaped makes no pair with the letter after it. A third backslash is stray,
whether nothing comes after it or a character of two bytes. -/
theorem escaping_exact_of_backslashes :
    Utf8.decode (escapeBytes (Utf8.encodeText "\\n:é")) = .ok "\\\\n\\cé".toList
      ∧ unescape "\\\\n\\cé".toList = .ok "\\n:é".toList
      ∧ headerLine .send ⟨"a", "\\n:é"⟩ = escapeBytes (Utf8.encodeText "a")
        ++ colon :: escapeBytes (Utf8.encodeText "\\n:é") ++ [lf]
      ∧ unescape "né".toList = .ok "né".toList
      ∧ escape "\\:".toList ≠ "\\\\:".toList
      ∧ (∃ fault, unescape "\\\\\\".toList = .error fault)
      ∧ unescape "\\\\\\é".toList = .error (.undefinedEscape 'é') := by
  have hwritten := (escaping_exact "\\n:é".toList []).1
  have hraw := (escaping_exact [] "\\\\:".toList).2.2.2.2.1 "\\:".toList (by decide)
  have hdangling : ∀ ps : List Piece, "\\\\\\".toList ≠ ps.flatMap Piece.text := by
    intro ps hps
    have hread := ((escaping_exact [] "\\\\\\".toList).2.2.1 _).mpr ⟨ps, hps, rfl⟩
    cases hread
  refine ⟨hwritten.1, hwritten.2.2.2.2.2, (escaping_exact [] []).2.1 _ _ (by decide),
    (escaping_exact [] "né".toList).2.2.2.1 (by decide), ?_,
    (escaping_exact [] "\\\\\\".toList).2.2.2.2.2.1 hdangling, ?_⟩
  · rw [Ne, hraw]
    decide
  · exact ((escaping_exact [] "\\\\\\é".toList).2.2.2.2.2.2 _).mpr
      ⟨[.backslash], "\\é".toList, by decide, .undefined (by decide)⟩

end StompRelay.Frame
