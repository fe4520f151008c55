import StompRelay.Proofs.Frame.Grammar
/-!
# Frames as they are written

A frame is written without heart-beats, with lines that end in a line feed alone, and with names and
values that are escaped where the command escapes them. Other bytes may hold the same frame; which
of them are as they are written can be told from how they are laid out.

## Main definitions

* `Header.Plain` — the headers that can be written verbatim
* `Line.Tidy`, `Layout.Tidy` — the lines and the layouts that are as frames are written

## Main results

* `Frame.exists_line`, `Frame.exists_layout` — headers that can be written make lines, and the bytes
  of their frame a layout
* `Layout.bytes_eq_content_iff` — which bytes are as they are written
-/

namespace StompRelay

open StompRelay.Frame

/-- A header that can be written verbatim. -/
structure Header.Plain (h : Header) : Prop where
  colon_notMem_name : ':' ∉ h.name.toList
  lf_notMem_name : '\n' ∉ h.name.toList
  lf_notMem_value : '\n' ∉ h.value.toList
  cr_ne_last : h.value.toList.getLast? ≠ some '\r'

theorem Header.plain_iff {h : Header} : h.Plain ↔ (':' ∉ h.name.toList ∧ '\n' ∉ h.name.toList)
    ∧ '\n' ∉ h.value.toList ∧ h.value.toList.getLast? ≠ some '\r' :=
  ⟨fun ⟨h₁, h₂, h₃, h₄⟩ => ⟨⟨h₁, h₂⟩, h₃, h₄⟩, fun ⟨⟨h₁, h₂⟩, h₃, h₄⟩ => ⟨h₁, h₂, h₃, h₄⟩⟩

instance : DecidablePred Header.Plain := fun _ => decidable_of_iff' _ Header.plain_iff

namespace Frame

variable {c : Command} {h : Header} {hs : Headers} {cs ds : List Char} {d : Char} {s : String}
  {g : Header → Header} {line : Line} {lines : List Line} {f : Frame}

/-! ### Escaped texts -/

theorem notMem_escape (hd : d ∈ ['\n', '\r', ':']) : d ∉ escape cs := by
  intro hmem
  rcases mem_escape hmem with hd' | ⟨-, hd'⟩
  · simp only [List.mem_cons, List.not_mem_nil, or_false] at hd hd'
    rcases hd with rfl | rfl | rfl <;> simp at hd'
  · exact hd' hd

/-- An escaped text is the escaped form of what it reads as exactly if it holds no character that is
always escaped. -/
theorem Escapes.eq_escape_iff (h : Escapes cs ds) :
    cs = escape ds ↔ '\n' ∉ cs ∧ '\r' ∉ cs ∧ ':' ∉ cs := by
  constructor
  · rintro rfl
    exact ⟨notMem_escape (by simp), notMem_escape (by simp), notMem_escape (by simp)⟩
  · intro hcs
    -- a pair is what its character is escaped to; any other character has to be left as it is
    induction h with
    | nil => rfl
    | @plain d cs ds hne _ ih =>
      simp only [List.mem_cons, not_or] at hcs
      obtain ⟨⟨hlf, hlfs⟩, ⟨hcr, hcrs⟩, ⟨hcolon, hcolons⟩⟩ := hcs
      have hone : escapeOne d = [d] := by
        rw [escapeOne, if_neg hne, if_neg (Ne.symm hlf), if_neg (Ne.symm hcr),
          if_neg (Ne.symm hcolon)]
      rw [escape_cons, hone, ← ih ⟨hlfs, hcrs, hcolons⟩]
      rfl
    | backslash _ ih | lineFeed _ ih | carriageReturn _ ih | colon _ ih =>
      simp only [List.mem_cons, not_or] at hcs
      rw [escape_cons, ← ih ⟨hcs.1.2.2, hcs.2.1.2.2, hcs.2.2.2.2⟩]
      rfl

theorem spell_of_verbatim (hc : c.Verbatim) : spell c s = s.toList := by
  rw [spell, if_neg (by simp [Command.escapesHeaders_eq_false_iff.mpr hc])]

theorem spell_of_not_verbatim (hc : ¬c.Verbatim) : spell c s = escape s.toList := by
  rw [spell, if_pos (Command.escapesHeaders_iff.mpr hc)]

theorem spelling_spell (c : Command) (s : String) : Spelling c (spell c s) s := by
  by_cases hc : c.Verbatim
  · rw [spell_of_verbatim hc]
    exact .verbatim hc
  · rw [spell_of_not_verbatim hc]
    exact .escaped hc (unescape_eq_ok_iff.mp (unescape_escape s.toList))

/-! ### Headers and lines -/

/-- A header that can be written makes a line. -/
theorem exists_line (hw : ¬c.Verbatim ∨ h.Plain) :
    ∃ line : Line, line.content ≠ [] ∧ line.bytes = headerLine c h
      ∧ HeaderText c line.content h := by
  have hparts : ':' ∉ spell c h.name ∧ '\n' ∉ spell c h.name ∧ '\n' ∉ spell c h.value
      ∧ (spell c h.value).getLast? ≠ some '\r' := by
    by_cases hc : c.Verbatim
    · simp only [spell_of_verbatim hc]
      have hplain : h.Plain := hw.resolve_left (not_not_intro hc)
      exact ⟨hplain.colon_notMem_name, hplain.lf_notMem_name, hplain.lf_notMem_value,
        hplain.cr_ne_last⟩
    · simp only [spell_of_not_verbatim hc]
      exact ⟨notMem_escape (by simp), notMem_escape (by simp), notMem_escape (by simp),
        fun hlast => notMem_escape (by simp) (List.mem_of_getLast? hlast)⟩
  obtain ⟨hcolon, hname, hvalue, hcr⟩ := hparts
  have hlf : lf ∉ Utf8.encode (spell c h.name ++ ':' :: spell c h.value) := by
    rw [Utf8.mem_encode_iff (by decide), List.mem_append, List.mem_cons, not_or, not_or]
    exact ⟨hname, by decide, hvalue⟩
  have hlast : (Utf8.encode (spell c h.name ++ ':' :: spell c h.value)).getLast? ≠ some cr := by
    rw [Ne, Utf8.getLast?_encode_iff (by decide), List.getLast?_append, List.getLast?_cons,
      Option.some_or, Option.some.injEq]
    -- without a value the line ends in the colon
    cases hvalue : (spell c h.value).getLast? with
    | none => decide
    | some d =>
      rw [hvalue] at hcr
      exact fun hd => hcr (congrArg some hd)
  have htext := HeaderText.mk hcolon (spelling_spell c h.name) (spelling_spell c h.value)
  exact ⟨⟨_, .lf, hlf, fun _ => hlast⟩, List.ne_nil_of_mem htext.colon_mem, rfl, htext⟩

/-- Headers that each make a line make lines. -/
theorem exists_lines (hw : ∀ h ∈ hs, ∃ line : Line, line.content ≠ [] ∧ line.bytes = headerLine c h
      ∧ HeaderText c line.content (g h)) :
    ∃ lines : List Line, (∀ line ∈ lines, line.content ≠ [])
      ∧ lines.flatMap Line.bytes = hs.flatMap (headerLine c)
      ∧ List.Forall₂ (fun line h => HeaderText c (Line.content line) h) lines (hs.map g) := by
  induction hs with
  | nil => exact ⟨[], by simp, rfl, .nil⟩
  | cons h hs ih =>
    rw [List.forall_mem_cons] at hw
    obtain ⟨line, hne, hbytes, htext⟩ := hw.1
    obtain ⟨lines, hnes, hbytess, htexts⟩ := ih hw.2
    refine ⟨line :: lines, List.forall_mem_cons.mpr ⟨hne, hnes⟩, ?_, .cons htext htexts⟩
    rw [List.flatMap_cons, List.flatMap_cons, hbytes, hbytess]

/-! ### Frames -/

/-- The token of a command makes a line that begins a head. -/
theorem token_line (c : Command) : lf ∉ Utf8.encodeText c.token
    ∧ (Utf8.encodeText c.token).getLast? ≠ some cr
    ∧ ∃ b content, Utf8.encodeText c.token = b :: content ∧ isEol b = false := by
  cases c <;> exact ⟨by decide, by decide, _, _, rfl, rfl⟩

/-- A frame does not begin like a heart-beat. -/
theorem content_begins (f : Frame) : ∃ b rest, f.content = b :: rest ∧ isEol b = false := by
  obtain ⟨-, -, b, token, htoken, heol⟩ := token_line f.command
  exact ⟨b, _, by rw [content, head, htoken]; rfl, heol⟩

/-- The layout of a frame each of whose headers makes a line. -/
theorem exists_layout (hw : ∀ h ∈ f.headers, ∃ line : Line, line.content ≠ []
      ∧ line.bytes = headerLine f.command h ∧ HeaderText f.command line.content (g h)) :
    ∃ l : Layout, l.Holds {f with headers := f.headers.map g} ∧ l.bytes = f.content := by
  obtain ⟨lines, hne, hbytes, htexts⟩ := exists_lines hw
  obtain ⟨hlf, hcr, hbegins⟩ := token_line f.command
  refine ⟨⟨[], ⟨Utf8.encodeText f.command.token, .lf, hlf, fun _ => hcr⟩, lines, .lf, f.body,
    by simp, hbegins, hne⟩, ⟨rfl, htexts, rfl⟩, ?_⟩
  simp [Layout.bytes, Layout.tail, Line.bytes, LineEnd.bytes, hbytes, content, head]

/-! ### Tidy layouts -/

/-- The byte that ends a name. -/
def colon : UInt8 := 0x3A

/-- What follows the first colon of a line. -/
def afterColon (bs : Bytes) : Bytes := (bs.dropWhile (· != colon)).drop 1

end Frame

/-- The lines of a head: that of the command, those of the headers and the blank line. -/
def Layout.headLines (l : Layout) : List Line := l.first :: l.lines ++ [.blank l.blank]

/-- A line as frames are written: it ends in a line feed alone and, where headers are escaped, holds
neither a carriage return nor a colon after its first. -/
structure Line.Tidy (line : Line) (c : Command) : Prop where
  ending : line.ending = .lf
  cr_notMem : ¬c.Verbatim → cr ∉ line.content
  colon_notMem : ¬c.Verbatim → colon ∉ afterColon line.content

/-- A layout as frames are written: there are no heart-beats, and the lines of the head are tidy. -/
structure Layout.Tidy (l : Layout) (c : Command) : Prop where
  beats : l.beats = []
  lines : ∀ line ∈ l.headLines, line.Tidy c

theorem LineEnd.bytes_append_eq_iff {e : LineEnd} {rest rest' : Bytes} :
    e.bytes ++ rest = Frame.lf :: rest' ↔ e = .lf ∧ rest = rest' := by
  cases e with
  | lf => simp [bytes]
  | crlf => simp [bytes, show cr ≠ Frame.lf by decide]

/-- A line in which nothing needs an escape is tidy exactly if it ends in a line feed alone. -/
theorem Line.bytes_append_eq_iff {line : Line} {c : Command} {rest rest' : Bytes}
    (hcr : ¬c.Verbatim → cr ∉ line.content)
    (hcolon : ¬c.Verbatim → colon ∉ afterColon line.content) :
    line.bytes ++ rest = line.content ++ Frame.lf :: rest' ↔ line.Tidy c ∧ rest = rest' := by
  rw [bytes, List.append_assoc, List.append_cancel_left_eq, LineEnd.bytes_append_eq_iff]
  exact and_congr_left fun _ => ⟨fun hend => ⟨hend, hcr, hcolon⟩, Line.Tidy.ending⟩

namespace Frame

variable {c : Command} {h : Header} {hs : Headers} {name value : List Char} {bs rest rest' : Bytes}
  {line : Line} {lines : List Line} {f : Frame} {l : Layout}

theorem afterColon_encode (hname : ':' ∉ name) :
    afterColon (Utf8.encode (name ++ ':' :: value)) = Utf8.encode value := by
  have hne : ∀ b ∈ Utf8.encode name, (b != colon) = true := fun b hb => by
    rw [bne_iff_ne]
    rintro rfl
    exact hname ((Utf8.mem_encode_iff (by decide)).mp hb)
  have hcolon : Utf8.encodeChar ':' = [colon] := rfl
  rw [afterColon, Utf8.encode_append, Utf8.encode_cons, hcolon, List.dropWhile_append_of_pos hne]
  simp

/-- A header that is not escaped stands in its line as it is written. -/
theorem HeaderText.append_lf_of_verbatim (hc : c.Verbatim) (ht : HeaderText c bs h) :
    bs ++ [lf] = headerLine c h := by
  cases ht with
  | mk hcolon hname hvalue =>
    rw [spelling_iff_of_verbatim hc] at hname hvalue
    rw [hname, hvalue, headerLine, spell_of_verbatim hc, spell_of_verbatim hc]

/-- An escaped header stands in its line as it is written exactly if the line holds neither a
carriage return nor a second colon. -/
theorem HeaderText.append_lf_eq_iff (hc : ¬c.Verbatim) (hlf : lf ∉ bs) (ht : HeaderText c bs h) :
    bs ++ [lf] = headerLine c h ↔ cr ∉ bs ∧ colon ∉ afterColon bs := by
  cases ht with
  | @mk name value _ hcolon hname hvalue =>
    rw [spelling_iff_of_not_verbatim hc] at hname hvalue
    rw [Utf8.mem_encode_iff (by decide), List.mem_append, List.mem_cons, not_or, not_or] at hlf
    have hparts : name ++ ':' :: value = escape h.name.toList ++ ':' :: escape h.value.toList
        ↔ name = escape h.name.toList ∧ value = escape h.value.toList := by
      rw [eq_comm, List.append_cons_inj_of_notMem (notMem_escape (by simp))
        (notMem_escape (by simp)), eq_comm (a := name), eq_comm (a := value), eq_self, true_and]
    have hcr : cr ∉ Utf8.encode (name ++ ':' :: value) ↔ '\r' ∉ name ∧ '\r' ∉ value := by
      rw [Utf8.mem_encode_iff (by decide), List.mem_append, List.mem_cons, not_or, not_or]
      exact and_congr_right fun _ => and_iff_right (by decide)
    have hsecond : colon ∉ afterColon (Utf8.encode (name ++ ':' :: value)) ↔ ':' ∉ value := by
      rw [afterColon_encode hcolon, Utf8.mem_encode_iff (by decide)]
      exact Iff.rfl
    rw [headerLine, spell_of_not_verbatim hc, spell_of_not_verbatim hc,
      List.append_cancel_right_eq, Utf8.encode_inj, hparts, hname.eq_escape_iff,
      hvalue.eq_escape_iff, hcr, hsecond]
    constructor
    · rintro ⟨⟨-, hname, -⟩, -, hvalue, hsecond⟩
      exact ⟨⟨hname, hvalue⟩, hsecond⟩
    · rintro ⟨⟨hname, hvalue⟩, hsecond⟩
      exact ⟨⟨hlf.1, hname, hcolon⟩, hlf.2.2, hvalue, hsecond⟩

theorem cr_notMem_headerLine (hc : ¬c.Verbatim) : cr ∉ headerLine c h := by
  rw [headerLine, spell_of_not_verbatim hc, spell_of_not_verbatim hc, List.mem_append, not_or,
    Utf8.mem_encode_iff (by decide), List.mem_append, List.mem_cons, not_or, not_or]
  exact ⟨⟨notMem_escape (by decide), by decide, notMem_escape (by decide)⟩, by decide⟩

/-- Some bytes begin with the line of a header as it is written exactly if the line with the header
that they begin with is tidy. -/
theorem HeaderText.bytes_append_eq_iff (ht : HeaderText c line.content h) :
    line.bytes ++ rest = headerLine c h ++ rest' ↔ line.Tidy c ∧ rest = rest' := by
  by_cases hc : c.Verbatim
  · rw [← ht.append_lf_of_verbatim hc, List.append_assoc]
    exact Line.bytes_append_eq_iff (absurd hc) (absurd hc)
  · constructor
    · intro hbytes
      -- what is written is a line as well, and a line can be told from what comes after it
      obtain ⟨line', -, hline', -⟩ := exists_line (h := h) (.inl hc)
      rw [← hline'] at hbytes
      obtain ⟨rfl, rfl⟩ := Line.bytes_append_inj hbytes
      have hend : line.ending = .lf := by
        cases hend : line.ending with
        | lf => rfl
        | crlf =>
          refine absurd ?_ (hline' ▸ cr_notMem_headerLine hc : cr ∉ line.bytes)
          rw [Line.bytes, hend]
          exact List.mem_append_right _ List.mem_cons_self
      rw [Line.bytes, hend] at hline'
      obtain ⟨hcr, hcolon⟩ := (ht.append_lf_eq_iff hc line.lf_notMem).mp hline'
      exact ⟨⟨hend, fun _ => hcr, fun _ => hcolon⟩, rfl⟩
    · rintro ⟨⟨hend, hcr, hcolon⟩, rfl⟩
      have hwritten := (ht.append_lf_eq_iff hc line.lf_notMem).mpr ⟨hcr hc, hcolon hc⟩
      rw [← hwritten, Line.bytes, hend]
      rfl

theorem flatMap_bytes_append_eq_iff
    (ht : List.Forall₂ (fun line h => HeaderText c (Line.content line) h) lines hs) :
    lines.flatMap Line.bytes ++ rest = hs.flatMap (headerLine c) ++ rest' ↔
      (∀ line ∈ lines, line.Tidy c) ∧ rest = rest' := by
  induction ht with
  | nil => simp
  | cons ht _ ih =>
    rw [List.flatMap_cons, List.flatMap_cons, List.append_assoc, List.append_assoc,
      ht.bytes_append_eq_iff, ih, List.forall_mem_cons, and_assoc]

end Frame

/-- The bytes of a layout are as its frame is written exactly if it is tidy. -/
theorem Layout.bytes_eq_content_iff {l : Layout} {f : Frame} (hl : l.Holds f) :
    l.bytes = f.content ↔ l.Tidy f.command := by
  have htoken : cr ∉ l.first.content ∧ colon ∉ afterColon l.first.content := by
    rw [hl.command]
    cases f.command <;> decide
  have hbody : l.bytes = f.content ↔ l.beats = [] ∧ l.first.bytes ++ l.tail = f.content := by
    constructor
    · intro hbytes
      -- heart-beats would stand before the command, but the frame begins with it
      obtain ⟨b, rest, hcontent, heol⟩ := content_begins f
      have hbeats : l.beats = [] := by
        rw [← takeWhile_isEol_bytes, hbytes, hcontent, List.takeWhile_cons_of_neg (by simp [heol])]
      rw [bytes, hbeats] at hbytes
      exact ⟨hbeats, hbytes⟩
    · rintro ⟨hbeats, hbytes⟩
      rw [bytes, hbeats]
      exact hbytes
  have hcontent : f.content = l.first.content ++ Frame.lf
      :: (f.headers.flatMap (headerLine f.command) ++ ([] ++ Frame.lf :: f.body)) := by
    simp [content, head, hl.command]
  rw [hbody, hcontent, Line.bytes_append_eq_iff (fun _ => htoken.1) (fun _ => htoken.2), tail,
    List.append_assoc, flatMap_bytes_append_eq_iff hl.headers, hl.body, ← Line.bytes_blank,
    ← Line.content_blank l.blank,
    Line.bytes_append_eq_iff (c := f.command) (by simp) (by simp [afterColon])]
  constructor
  · rintro ⟨hbeats, hfirst, hlines, hblank, -⟩
    refine ⟨hbeats, ?_⟩
    rw [headLines, List.cons_append, List.forall_mem_cons, List.forall_mem_append,
      List.forall_mem_singleton]
    exact ⟨hfirst, hlines, hblank⟩
  · rintro ⟨hbeats, hlines⟩
    rw [headLines, List.cons_append, List.forall_mem_cons, List.forall_mem_append,
      List.forall_mem_singleton] at hlines
    exact ⟨hbeats, hlines.1, hlines.2.1, hlines.2.2, rfl⟩

end StompRelay
