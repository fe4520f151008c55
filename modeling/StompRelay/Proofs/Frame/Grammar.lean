import Mathlib.Data.List.Forall2
import StompRelay.Proofs.Frame.Layout
import StompRelay.Proofs.Text.Utf8
/-!
# The grammar of frames

Which bytes are a frame, said without a parser: a layout holds a frame when its first line is the
token of the command, each of its lines is the text of a header, and its body is the body of the
frame. Decoding accepts these bytes and no others.

## Main definitions

* `Command.Verbatim` — the commands under which headers are not escaped
* `Frame.Escapes`, `Frame.Stray` — escaped texts, and what cannot stand in one
* `Frame.Spelling` — how names and values are written
* `Frame.HeaderText`, `Layout.Holds` — which header is in a line, and which frame in a layout

## Main results

* `Frame.unescape_eq_ok_iff`, `Frame.unescape_eq_error_iff` — what a text reads as, and where it
  does not read
* `Frame.headerOf_eq_ok_iff`, `Frame.commandOf_eq_ok_iff` — what each part of a head reads as
* `Frame.headersFrom_eq_ok_iff` — what the lines up to the blank line read as
* `Frame.decode_iff_layout` — bytes decode to a frame exactly if they can be laid out to hold it
-/

namespace StompRelay

theorem bind_eq_ok_iff {ε α β : Type} {x : Except ε α} {f : α → Except ε β} {b : β} :
    (x >>= f) = .ok b ↔ ∃ a, x = .ok a ∧ f a = .ok b := by
  cases x <;> simp [bind, Except.bind]

/-- The commands of a login. The names and values of their headers are not escaped. -/
def Command.Verbatim (c : Command) : Prop := c = .connect ∨ c = .stomp ∨ c = .connected

instance : DecidablePred Command.Verbatim :=
  fun c => inferInstanceAs (Decidable (c = .connect ∨ c = .stomp ∨ c = .connected))

theorem Command.escapesHeaders_eq_false_iff {c : Command} :
    c.escapesHeaders = false ↔ c.Verbatim := by
  cases c <;> decide

theorem Command.escapesHeaders_iff {c : Command} : c.escapesHeaders = true ↔ ¬c.Verbatim := by
  rw [← escapesHeaders_eq_false_iff, Bool.not_eq_false]

namespace Frame

/-! ### Names and values -/

/-- Escaped texts, and the texts that they stand for. -/
inductive Escapes : List Char → List Char → Prop where
  | nil : Escapes [] []
  | plain {c : Char} {cs ds : List Char} : c ≠ '\\' → Escapes cs ds → Escapes (c :: cs) (c :: ds)
  | backslash {cs ds : List Char} : Escapes cs ds → Escapes ('\\' :: '\\' :: cs) ('\\' :: ds)
  | lineFeed {cs ds : List Char} : Escapes cs ds → Escapes ('\\' :: 'n' :: cs) ('\n' :: ds)
  | carriageReturn {cs ds : List Char} : Escapes cs ds → Escapes ('\\' :: 'r' :: cs) ('\r' :: ds)
  | colon {cs ds : List Char} : Escapes cs ds → Escapes ('\\' :: 'c' :: cs) (':' :: ds)

/-- What begins with a backslash that escapes nothing, and what is wrong with it. -/
inductive Stray : List Char → Fault → Prop where
  | dangling : Stray ['\\'] .danglingEscape
  | undefined {c : Char} {cs : List Char} : c ∉ ['\\', 'n', 'r', 'c'] →
    Stray ('\\' :: c :: cs) (.undefinedEscape c)

/-- How a name or value is written under a command. -/
inductive Spelling (c : Command) : List Char → String → Prop where
  | verbatim {s : String} : c.Verbatim → Spelling c s.toList s
  | escaped {cs : List Char} {s : String} : ¬c.Verbatim → Escapes cs s.toList → Spelling c cs s

/-- The texts of headers under a command: the name ends before the first colon. -/
inductive HeaderText (c : Command) : Bytes → Header → Prop where
  | mk {name value : List Char} {h : Header} : ':' ∉ name → Spelling c name h.name →
    Spelling c value h.value → HeaderText c (Utf8.encode (name ++ ':' :: value)) h

end Frame

/-- The frame that is laid out. -/
structure Layout.Holds (l : Layout) (f : Frame) : Prop where
  command : l.first.content = Utf8.encodeText f.command.token
  headers : List.Forall₂ (fun line h => Frame.HeaderText f.command line.content h) l.lines f.headers
  body : l.body = f.body

namespace Frame

theorem eq_false_of_dropWhile_eq_cons {α : Type} {p : α → Bool} {as bs : List α} {a : α}
    (h : as.dropWhile p = a :: bs) : p a = false := by
  have hhead := List.head?_dropWhile_not p as
  rw [h] at hhead
  exact hhead

section Parts

variable {c : Command} {bs cs ds rest : List Char} {fault : Fault} {s : String} {h : Header}
  {line content : Bytes}

/-- An escaped text reads as what it stands for, whatever comes after it. -/
theorem Escapes.unescapeFrom_append (h : Escapes cs ds) (acc rest : List Char) :
    unescapeFrom acc (cs ++ rest) = unescapeFrom (ds.reverse ++ acc) rest := by
  induction h generalizing acc with
  | nil => rfl
  | plain hne _ ih => simp [unescapeFrom, hne, ih]
  | backslash _ ih => simp [unescapeFrom, escaped?, ih]
  | lineFeed _ ih => simp [unescapeFrom, escaped?, ih]
  | carriageReturn _ ih => simp [unescapeFrom, escaped?, ih]
  | colon _ ih => simp [unescapeFrom, escaped?, ih]

theorem Escapes.unescape_eq (h : Escapes cs ds) : unescape cs = .ok ds := by
  have hread := h.unescapeFrom_append [] []
  rw [List.append_nil, List.append_nil] at hread
  rw [unescape, hread, unescapeFrom, List.reverse_reverse]

theorem Escapes.of_escaped? {c d : Char} (hd : escaped? c = some d) (h : Escapes cs ds) :
    Escapes ('\\' :: c :: cs) (d :: ds) := by
  unfold escaped? at hd
  split_ifs at hd with h₁ h₂ h₃ h₄ <;> cases hd
  · exact h₁ ▸ .backslash h
  · exact h₂ ▸ .lineFeed h
  · exact h₃ ▸ .carriageReturn h
  · exact h₄ ▸ .colon h

theorem escaped?_eq_none_iff {c : Char} : escaped? c = none ↔ c ∉ ['\\', 'n', 'r', 'c'] := by
  unfold escaped?
  split_ifs <;> simp_all

/-- Reading stops at a stray backslash. -/
theorem Stray.unescape_append (h : Stray rest fault) (hbs : Escapes bs ds) :
    unescape (bs ++ rest) = .error fault := by
  rw [unescape, hbs.unescapeFrom_append]
  cases h with
  | dangling => rfl
  | undefined hc => rw [unescapeFrom, escaped?_eq_none_iff.mpr hc]

/-- Every text is escaped up to its end or up to a stray backslash. -/
theorem escapes_or_stray (cs : List Char) : (∃ ds, Escapes cs ds)
    ∨ ∃ bs ds rest fault, cs = bs ++ rest ∧ Escapes bs ds ∧ Stray rest fault := by
  -- one character or one pair is taken off at a time
  fun_induction unescapeFrom [] cs with
  | case1 => exact .inl ⟨[], .nil⟩
  | case2 => exact .inr ⟨[], [], _, _, rfl, .nil, .dangling⟩
  | case3 _ c rest d hd ih =>
    obtain ⟨ds, hes⟩ | ⟨bs, ds, rest, fault, rfl, hes, hstray⟩ := ih
    · exact .inl ⟨d :: ds, hes.of_escaped? hd⟩
    · exact .inr ⟨'\\' :: c :: bs, d :: ds, rest, fault, rfl, hes.of_escaped? hd, hstray⟩
  | case4 _ c rest hc =>
    exact .inr ⟨[], [], _, _, rfl, .nil, .undefined (escaped?_eq_none_iff.mp hc)⟩
  | case5 _ c rest hend hpair ih =>
    -- a backslash is at the end or before another character
    have hne : c ≠ '\\' := by
      rintro rfl
      cases rest with
      | nil => exact hend rfl rfl
      | cons c rest => exact hpair c rest rfl rfl
    obtain ⟨ds, hes⟩ | ⟨bs, ds, rest, fault, rfl, hes, hstray⟩ := ih
    · exact .inl ⟨c :: ds, .plain hne hes⟩
    · exact .inr ⟨c :: bs, c :: ds, rest, fault, rfl, .plain hne hes, hstray⟩

/-- A text reads as another exactly if it is an escaped form of it. -/
theorem unescape_eq_ok_iff : unescape cs = .ok ds ↔ Escapes cs ds := by
  refine ⟨fun h => ?_, Escapes.unescape_eq⟩
  obtain ⟨es, hes⟩ | ⟨bs, es, rest, fault, rfl, hes, hstray⟩ := escapes_or_stray cs
  · rw [hes.unescape_eq] at h
    cases h
    exact hes
  · rw [hstray.unescape_append hes] at h
    cases h

/-- A text does not read exactly if it is escaped up to a stray backslash. -/
theorem unescape_eq_error_iff : unescape cs = .error fault ↔
    ∃ bs ds rest, cs = bs ++ rest ∧ Escapes bs ds ∧ Stray rest fault := by
  constructor
  · intro h
    obtain ⟨es, hes⟩ | ⟨bs, es, rest, fault', rfl, hes, hstray⟩ := escapes_or_stray cs
    · rw [hes.unescape_eq] at h
      cases h
    · rw [hstray.unescape_append hes] at h
      cases h
      exact ⟨bs, es, rest, rfl, hes, hstray⟩
  · rintro ⟨bs, ds, rest, rfl, hes, hstray⟩
    exact hstray.unescape_append hes

theorem spelling_iff_of_verbatim (hc : c.Verbatim) : Spelling c cs s ↔ cs = s.toList := by
  constructor
  · intro h
    cases h with
    | verbatim => rfl
    | escaped hc' => exact absurd hc hc'
  · rintro rfl
    exact .verbatim hc

theorem spelling_iff_of_not_verbatim (hc : ¬c.Verbatim) :
    Spelling c cs s ↔ Escapes cs s.toList := by
  constructor
  · intro h
    cases h with
    | verbatim hc' => exact absurd hc' hc
    | escaped _ hes => exact hes
  · exact .escaped hc

/-- A name or value reads as a text exactly if the text may be written so. -/
theorem unspell_eq_ok_iff : unspell c cs = .ok s ↔ Spelling c cs s := by
  by_cases hc : c.Verbatim
  · rw [spelling_iff_of_verbatim hc, unspell,
      if_neg (by simp [Command.escapesHeaders_eq_false_iff.mpr hc]), Except.ok.injEq,
      Utf8.ofList_eq_iff]
  · rw [spelling_iff_of_not_verbatim hc, unspell, if_pos (Command.escapesHeaders_iff.mpr hc),
      ← unescape_eq_ok_iff]
    cases unescape cs <;> simp [Except.map, Utf8.ofList_eq_iff]

theorem textOf_eq_ok_iff {kind : HeadLine} :
    textOf kind line = .ok s ↔ line = Utf8.encodeText s := by
  rw [← Utf8.decodeText_eq_ok_iff]
  unfold textOf
  split <;> simp_all

/-- A line names a command exactly if it is the token of the command. -/
theorem commandOf_eq_ok_iff : commandOf line = .ok c ↔ line = Utf8.encodeText c.token := by
  unfold commandOf
  rw [bind_eq_ok_iff]
  constructor
  · rintro ⟨token, htoken, h⟩
    split at h
    · rename_i c' hc
      cases h
      rw [Command.ofToken?_eq_some_iff.mp hc] at htoken
      exact textOf_eq_ok_iff.mp htoken
    · cases h
  · intro h
    refine ⟨c.token, textOf_eq_ok_iff.mpr h, ?_⟩
    rw [Command.ofToken?_token]

theorem HeaderText.colon_mem (ht : HeaderText c content h) : 0x3A ∈ content := by
  cases ht with
  | mk => exact (Utf8.mem_encode_iff (by decide)).mpr (List.mem_append_right _ List.mem_cons_self)

/-- A line reads as a header exactly if it is a text of that header. -/
theorem headerOf_eq_ok_iff : headerOf c line = .ok h ↔ HeaderText c line h := by
  unfold headerOf
  rw [bind_eq_ok_iff]
  constructor
  · rintro ⟨s, hs, hparts⟩
    have hsplit := List.takeWhile_append_dropWhile (p := (· != ':')) (l := s.toList)
    split at hparts
    · cases hparts
    · rename_i d value hdrop
      obtain ⟨name', hname, hparts⟩ := bind_eq_ok_iff.mp hparts
      obtain ⟨value', hvalue, hparts⟩ := bind_eq_ok_iff.mp hparts
      cases hparts
      obtain rfl : d = ':' := by simpa using eq_false_of_dropWhile_eq_cons hdrop
      have hcolon : ':' ∉ s.toList.takeWhile (· != ':') := by
        intro hmem
        simpa using List.mem_takeWhile_imp hmem
      rw [textOf_eq_ok_iff.mp hs, Utf8.encodeText, ← hsplit, hdrop]
      exact .mk hcolon (unspell_eq_ok_iff.mp hname) (unspell_eq_ok_iff.mp hvalue)
  · rintro ⟨hcolon, hname, hvalue⟩
    rename_i name value
    have hne : ∀ d ∈ name, (d != ':') = true := fun d hd => by
      rw [bne_iff_ne]
      rintro rfl
      exact hcolon hd
    refine ⟨String.ofList (name ++ ':' :: value), textOf_eq_ok_iff.mpr ?_, ?_⟩
    · rw [Utf8.encodeText, String.toList_ofList]
    · rw [String.toList_ofList, List.dropWhile_append_of_pos hne, List.takeWhile_append_of_pos hne]
      simp only [bne_self_eq_false, Bool.false_eq_true, not_false_eq_true,
        List.dropWhile_cons_of_neg, List.takeWhile_cons_of_neg, List.append_nil]
      rw [unspell_eq_ok_iff.mpr hname, unspell_eq_ok_iff.mpr hvalue]
      rfl

end Parts

/-! ### The head -/

section Head

variable {c : Command} {acc hs : Headers} {h : Header} {line line' : Line}
  {lines lines' : List Line} {bs content body rest : Bytes}

theorem headersFrom_of_line? (hline : line? bs = some (content, rest)) :
    headersFrom c acc bs = if content = [] then .ok (acc.reverse, rest)
      else headerOf c content >>= fun h => headersFrom c (h :: acc) rest := by
  conv => lhs; unfold headersFrom
  split
  · rename_i heq
    rw [hline] at heq
    cases heq
  · rename_i heq
    rw [hline, Option.some.injEq, Prod.mk.injEq] at heq
    obtain ⟨rfl, rfl⟩ := heq
    exact (if_pos rfl).symm
  · rename_i heq
    rw [hline, Option.some.injEq, Prod.mk.injEq] at heq
    obtain ⟨rfl, rfl⟩ := heq
    rw [if_neg (List.cons_ne_nil _ _)]
    cases headerOf c _ <;> rfl

/-- The blank line ends the head. -/
theorem headersFrom_blank (e : LineEnd) :
    headersFrom c acc (e.bytes ++ body) = .ok (acc.reverse, body) := by
  rw [← Line.bytes_blank, headersFrom_of_line? (line?_bytes _ _), if_pos (Line.content_blank e)]

/-- A line that is not blank is a header. -/
theorem headersFrom_line (hne : line.content ≠ []) :
    headersFrom c acc (line.bytes ++ rest)
      = headerOf c line.content >>= fun h => headersFrom c (h :: acc) rest := by
  rw [headersFrom_of_line? (line?_bytes line rest), if_neg hne]

/-- Bytes read as headers and a body exactly if they are lines with the texts of the headers, a
blank line and the body. -/
theorem headersFrom_eq_ok_iff : headersFrom c acc bs = .ok (hs, body) ↔
    ∃ lines hs' e, (∀ line ∈ lines, Line.content line ≠ [])
      ∧ List.Forall₂ (fun line h => HeaderText c (Line.content line) h) lines hs'
      ∧ hs = acc.reverse ++ hs'
      ∧ bs = lines.flatMap Line.bytes ++ (LineEnd.bytes e ++ body) := by
  constructor
  · intro h
    -- each step takes one line off, and none after the blank line
    fun_induction headersFrom c acc bs with
    | case1 => cases h
    | case2 acc bs rest hline =>
      cases h
      obtain ⟨line, hcontent, rfl⟩ := exists_of_line? hline
      refine ⟨[], [], line.ending, by simp, .nil, by simp, ?_⟩
      simp [Line.bytes, hcontent]
    | case3 => cases h
    | case4 acc bs b content rest hline h' hh ih =>
      obtain ⟨lines, hs', e, hne, hlines, rfl, rfl⟩ := ih h
      obtain ⟨line, hcontent, rfl⟩ := exists_of_line? hline
      refine ⟨line :: lines, h' :: hs', e, ?_, ?_, by simp, by simp⟩
      · rw [List.forall_mem_cons]
        exact ⟨by simp [hcontent], hne⟩
      · rw [← hcontent, headerOf_eq_ok_iff] at hh
        exact .cons hh hlines
  · rintro ⟨lines, hs', e, hne, hlines, rfl, rfl⟩
    induction hlines generalizing acc with
    | nil => rw [List.flatMap_nil, List.nil_append, headersFrom_blank, List.append_nil]
    | @cons line h lines hs' hh _ ih =>
      rw [List.forall_mem_cons] at hne
      rw [List.flatMap_cons, List.append_assoc, headersFrom_line hne.1, headerOf_eq_ok_iff.mpr hh]
      refine (ih hne.2).trans ?_
      simp

theorem mem_dropLast_cons (hmem : line ∈ lines.dropLast) : line ∈ (line' :: lines).dropLast := by
  rw [List.dropLast_cons_of_ne_nil (List.ne_nil_of_mem (List.dropLast_subset _ hmem))]
  exact List.mem_cons_of_mem _ hmem

/-- How the lines of the headers end does not matter. -/
theorem headersFrom_congr (hcontents : lines.map Line.content = lines'.map Line.content)
    (hne : ∀ line ∈ lines.dropLast, line.content ≠ []) :
    headersFrom c acc (lines.flatMap Line.bytes ++ rest)
      = headersFrom c acc (lines'.flatMap Line.bytes ++ rest) := by
  induction lines generalizing acc lines' with
  | nil =>
    rw [List.map_nil, eq_comm, List.map_eq_nil_iff] at hcontents
    rw [hcontents]
  | cons line lines ih =>
    obtain ⟨line', lines', rfl, hline, hlines⟩ := List.map_eq_cons_iff.mp hcontents.symm
    simp only [List.flatMap_cons, List.append_assoc]
    by_cases hblank : line.content = []
    · -- the blank line is the last
      have hnil : lines = [] := by
        by_contra hlines
        obtain ⟨l, ls, rfl⟩ := List.exists_cons_of_ne_nil hlines
        exact hne line (by simp) hblank
      subst hnil
      rw [List.map_nil, List.map_eq_nil_iff] at hlines
      rw [hlines, Line.bytes, Line.bytes, hline, hblank]
      simp [headersFrom_blank]
    · rw [headersFrom_line hblank, headersFrom_line (hline ▸ hblank), hline]
      congr 1
      funext h
      exact ih hlines.symm fun line hmem => hne line (mem_dropLast_cons hmem)

end Head

/-! ### Frames -/

section Frames

variable {bs beats content rest : Bytes} {line : Line} {lines lines' : List Line} {f : Frame}
  {l : Layout}

/-- Nothing but heart-beats is not a frame, and not a fault. -/
theorem decode_eq_none_iff : decode bs = .ok none ↔ ∀ b ∈ bs, isEol b = true := by
  rw [← List.dropWhile_eq_nil_iff]
  unfold decode
  split
  · rename_i heq
    simp [heq]
  · rename_i heq
    rw [heq]
    split
    · simp
    · simp [bind_eq_ok_iff, pure, Except.pure]

/-- Heart-beats before a frame do not matter. -/
theorem decode_append (hbeats : ∀ b ∈ beats, isEol b = true) :
    decode (beats ++ bs) = decode bs := by
  unfold decode
  rw [List.dropWhile_append_of_pos hbeats]

/-- The first line that is not a heart-beat names the command. -/
theorem decode_line (hbegins : ∃ b content, line.content = b :: content ∧ isEol b = false) :
    decode (line.bytes ++ rest) = do
      let c ← commandOf line.content
      let (headers, body) ← headersFrom c [] rest
      return some ⟨c, headers, body⟩ := by
  obtain ⟨b, content, hb, heol⟩ := hbegins
  have hbytes : line.bytes ++ rest = b :: (content ++ line.ending.bytes ++ rest) := by
    rw [Line.bytes, hb]
    rfl
  have hline := line?_bytes line rest
  rw [hbytes] at hline ⊢
  unfold decode
  rw [List.dropWhile_cons_of_neg (by simp [heol])]
  dsimp only
  rw [hline]

/-- What is after heart-beats starts with a line, if any line ends in it. -/
theorem exists_first {b : UInt8} {bs' : Bytes} (hdrop : bs.dropWhile isEol = b :: bs')
    (hline : line? (b :: bs') = some (content, rest)) :
    ∃ beats line, (∀ b ∈ beats, isEol b = true) ∧ Line.content line = content
      ∧ (∃ b content, line.content = b :: content ∧ isEol b = false)
      ∧ bs = beats ++ (line.bytes ++ rest) := by
  obtain ⟨line, hcontent, hbytes⟩ := exists_of_line? hline
  refine ⟨bs.takeWhile isEol, line, fun b hb => List.mem_takeWhile_imp hb, hcontent, ?_, ?_⟩
  · have heol : isEol b = false := eq_false_of_dropWhile_eq_cons hdrop
    -- a blank line would be a heart-beat
    cases hnil : line.content with
    | nil =>
      rw [Line.bytes, hnil] at hbytes
      cases hend : line.ending <;> rw [hend] at hbytes <;> cases hbytes <;> cases heol
    | cons b' content' =>
      rw [Line.bytes, hnil] at hbytes
      cases hbytes
      exact ⟨b, content', rfl, heol⟩
  · rw [← hbytes, ← hdrop, List.takeWhile_append_dropWhile]

/-- Bytes decode to a frame exactly if they can be laid out to hold it. -/
theorem decode_eq_some_iff : decode bs = .ok (some f) ↔ ∃ l : Layout, l.Holds f ∧ l.bytes = bs := by
  constructor
  · intro h
    unfold decode at h
    split at h
    · cases h
    · rename_i hdrop
      split at h
      · cases h
      · rename_i hline
        obtain ⟨c, hc, h⟩ := bind_eq_ok_iff.mp h
        obtain ⟨⟨hs, body⟩, hhs, h⟩ := bind_eq_ok_iff.mp h
        cases h
        obtain ⟨beats, first, hbeats, rfl, hbegins, rfl⟩ := exists_first hdrop hline
        obtain ⟨lines, hs', e, hne, hlines, rfl, rfl⟩ := headersFrom_eq_ok_iff.mp hhs
        refine ⟨⟨beats, first, lines, e, body, hbeats, hbegins, hne⟩, ⟨?_, hlines, rfl⟩, ?_⟩
        · exact commandOf_eq_ok_iff.mp hc
        · simp [Layout.bytes, Layout.tail]
  · rintro ⟨l, ⟨hcommand, hheaders, hbody⟩, rfl⟩
    have hhead : headersFrom f.command [] l.tail = .ok (f.headers, f.body) := by
      refine headersFrom_eq_ok_iff.mpr
        ⟨l.lines, f.headers, l.blank, l.ne_nil_of_mem_lines, hheaders, rfl, ?_⟩
      rw [Layout.tail, List.append_assoc, hbody]
    rw [Layout.bytes, List.append_assoc, decode_append l.isEol_of_mem_beats, decode_line l.begins,
      commandOf_eq_ok_iff.mpr hcommand]
    change (headersFrom f.command [] l.tail >>= _) = _
    rw [hhead]
    rfl

/-- How the lines of a head end does not matter. -/
theorem decode_congr (hcontents : lines.map Line.content = lines'.map Line.content)
    (hne : ∀ line ∈ lines.dropLast, line.content ≠ []) :
    decode (lines.flatMap Line.bytes ++ rest) = decode (lines'.flatMap Line.bytes ++ rest) := by
  induction lines generalizing lines' with
  | nil =>
    rw [List.map_nil, eq_comm, List.map_eq_nil_iff] at hcontents
    rw [hcontents]
  | cons line lines ih =>
    obtain ⟨line', lines', rfl, hline, hlines⟩ := List.map_eq_cons_iff.mp hcontents.symm
    have hne' : ∀ line ∈ lines.dropLast, line.content ≠ [] :=
      fun line hmem => hne line (mem_dropLast_cons hmem)
    simp only [List.flatMap_cons, List.append_assoc]
    cases hdrop : line.content.dropWhile isEol with
    | nil =>
      -- the line is a heart-beat
      have hbeats (line' : Line) (hline' : line'.content = line.content) :
          ∀ b ∈ line'.bytes, isEol b = true := by
        rw [List.dropWhile_eq_nil_iff] at hdrop
        intro b hb
        rw [Line.bytes, List.mem_append, hline'] at hb
        exact hb.elim (hdrop b) (LineEnd.isEol_of_mem_bytes b)
      rw [decode_append (hbeats line rfl), decode_append (hbeats line' hline)]
      exact ih hlines.symm hne'
    | cons b content =>
      -- the line names the command after heart-beats
      have heol : isEol b = false := eq_false_of_dropWhile_eq_cons hdrop
      have hsplit : line.content = line.content.takeWhile isEol ++ b :: content := by
        rw [← hdrop, List.takeWhile_append_dropWhile]
      have hbeats : ∀ b ∈ line.content.takeWhile isEol, isEol b = true :=
        fun b hb => List.mem_takeWhile_imp hb
      obtain ⟨first, hfirst, hbytes⟩ := line.exists_of_content_eq_append hsplit
      obtain ⟨first', hfirst', hbytes'⟩ :=
        line'.exists_of_content_eq_append (hline.trans hsplit)
      rw [hbytes, hbytes', List.append_assoc, List.append_assoc, decode_append hbeats,
        decode_append hbeats, decode_line ⟨b, content, hfirst, heol⟩,
        decode_line ⟨b, content, hfirst', heol⟩, hfirst, hfirst']
      simp only [headersFrom_congr hlines.symm hne']

/-- The grammar of frames. For all bytes:

* they decode to nothing exactly if they are heart-beats;
* they decode to a frame exactly if they can be laid out to hold it: heart-beats, the token of the
  command, the lines of the headers, a blank line and the body, byte for byte;
* in all other cases there is a fault;
* they can be laid out in one way at most.

What comes out depends neither on the heart-beats before the frame nor on how each of the lines of
the head, the blank line included, ends. -/
theorem decode_iff_layout (bs : Bytes) :
    (decode bs = .ok none ↔ ∀ b ∈ bs, isEol b = true)
      ∧ (∀ f, decode bs = .ok (some f) ↔ ∃ l : Layout, l.Holds f ∧ l.bytes = bs)
      ∧ ((∃ b ∈ bs, isEol b = false) → (∀ f l, Layout.Holds l f → l.bytes ≠ bs) →
        ∃ fault, decode bs = .error fault)
      ∧ (∀ l l' : Layout, l.bytes = bs → l'.bytes = bs → l = l')
      ∧ (∀ beats : Bytes, (∀ b ∈ beats, isEol b = true) → decode (beats ++ bs) = decode bs)
      ∧ (∀ lines lines' : List Line, (∀ line ∈ lines.dropLast, line.content ≠ []) →
        lines.map Line.content = lines'.map Line.content →
        decode (lines.flatMap Line.bytes ++ bs) = decode (lines'.flatMap Line.bytes ++ bs)) := by
  refine ⟨decode_eq_none_iff, fun f => decode_eq_some_iff, ?_, ?_, ?_, ?_⟩
  · rintro ⟨b, hb, heol⟩ hno
    cases hbs : decode bs with
    | error fault => exact ⟨fault, rfl⟩
    | ok result =>
      cases result with
      | none =>
        rw [decode_eq_none_iff.mp hbs b hb] at heol
        cases heol
      | some f =>
        obtain ⟨l, hl, hbytes⟩ := decode_eq_some_iff.mp hbs
        exact absurd hbytes (hno f l hl)
  · intro l l' hl hl'
    exact Layout.bytes_injective (hl.trans hl'.symm)
  · exact fun beats hbeats => decode_append hbeats
  · exact fun lines lines' hne hcontents => decode_congr hcontents hne

/-- A frame after a heart-beat, whose lines end in both ways. -/
def mixedEnds : Layout where
  beats := [lf]
  first := ⟨Utf8.encodeText "MESSAGE", .crlf, by decide, by decide⟩
  lines := [⟨Utf8.encodeText "a\\c:b:c", .lf, by decide, by decide⟩]
  blank := .crlf
  body := [cr, lf]
  isEol_of_mem_beats := by simp [isEol]
  begins := ⟨0x4D, Utf8.encodeText "ESSAGE", by decide, by decide⟩
  ne_nil_of_mem_lines := by decide

/-- A head with a line in which there is no colon. -/
def noColon : Layout where
  beats := []
  first := ⟨Utf8.encodeText "MESSAGE", .lf, by decide, by decide⟩
  lines := [⟨Utf8.encodeText "ab", .lf, by decide, by decide⟩]
  blank := .lf
  body := []
  isEol_of_mem_beats := by simp
  begins := ⟨0x4D, Utf8.encodeText "ESSAGE", by decide, by decide⟩
  ne_nil_of_mem_lines := by decide

/-- A frame is read, also with more heart-beats and where its lines end in the other way. A line
without a colon is a fault. -/
theorem decode_iff_layout_of_mixed_ends :
    decode mixedEnds.bytes = .ok (some ⟨.message, [⟨"a:", "b:c"⟩], [cr, lf]⟩)
      ∧ decode ([cr, lf] ++ Utf8.encodeText "MESSAGE\na\\c:b:c\r\n\n\r\n")
        = .ok (some ⟨.message, [⟨"a:", "b:c"⟩], [cr, lf]⟩)
      ∧ ∃ fault, decode noColon.bytes = .error fault := by
  have hheader : HeaderText .message (Utf8.encode ("a\\c".toList ++ ':' :: "b:c".toList))
      ⟨"a:", "b:c"⟩ := by
    have hname : Spelling .message "a\\c".toList "a:" :=
      .escaped (by decide) (.plain (by decide) (.colon .nil))
    have hvalue : Spelling .message "b:c".toList "b:c" :=
      .escaped (by decide) (.plain (by decide) (.plain (by decide) (.plain (by decide) .nil)))
    exact .mk (by decide) hname hvalue
  have hread : decode mixedEnds.bytes = .ok (some ⟨.message, [⟨"a:", "b:c"⟩], [cr, lf]⟩) :=
    ((decode_iff_layout _).2.1 _).mpr ⟨mixedEnds, ⟨rfl, .cons hheader .nil, rfl⟩, rfl⟩
  refine ⟨hread, ?_, ?_⟩
  · -- the line ends are changed under the body, and the heart-beats before all of it
    have hends := (decode_iff_layout [cr, lf]).2.2.2.2.2
      [⟨Utf8.encodeText "MESSAGE", .lf, by decide, by decide⟩,
        ⟨Utf8.encodeText "a\\c:b:c", .crlf, by decide, by decide⟩, .blank .lf]
      (mixedEnds.first :: mixedEnds.lines ++ [.blank mixedEnds.blank]) (by decide) rfl
    have hbeats := (decode_iff_layout (Utf8.encodeText "MESSAGE\na\\c:b:c\r\n\n\r\n")).2.2.2.2.1
      [cr, lf] (by simp [isEol])
    have hbeat := (decode_iff_layout (mixedEnds.first.bytes ++ mixedEnds.tail)).2.2.2.2.1
      mixedEnds.beats mixedEnds.isEol_of_mem_beats
    exact hbeats.trans (hends.trans (hbeat.symm.trans hread))
  · refine (decode_iff_layout noColon.bytes).2.2.1 ⟨0x4D, by decide, by decide⟩ ?_
    intro f l hl hbytes
    obtain rfl := (decode_iff_layout noColon.bytes).2.2.2.1 l noColon hbytes rfl
    obtain ⟨h, hs, hab, -⟩ := List.forall₂_cons_left_iff.mp hl.headers
    exact absurd hab.colon_mem (by decide)

end Frames

end Frame

end StompRelay
