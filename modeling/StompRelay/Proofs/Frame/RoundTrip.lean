import StompRelay.Proofs.Frame.Tidy
/-!
# Frames read back

The bytes of a frame decode to that frame, provided that its headers can be written in lines: they
can under every command that escapes them, and under the commands of a login exactly if nothing in
them would be taken for the end of a name or of a line.

## Main results

* `Frame.decode_content_iff` — a frame reads back exactly if its headers can be written
* `Frame.decode_encode_iff` — the same for the bytes of a frame, and what happens otherwise
-/

namespace StompRelay

namespace Frame

variable {c : Command} {h : Header} {hs : Headers} {line : Line} {lines : List Line} {f : Frame}
  {l : Layout}

/-- A value that is read from a line and is not escaped has no line feed, nor has its name. -/
theorem HeaderText.notMem_of_verbatim (hc : c.Verbatim) (ht : HeaderText c line.content h) :
    ':' ∉ h.name.toList ∧ '\n' ∉ h.name.toList ∧ '\n' ∉ h.value.toList := by
  obtain ⟨content, ending, hlf, hcr⟩ := line
  dsimp only at ht hlf
  cases ht with
  | mk hcolon hname hvalue =>
    obtain rfl := (spelling_iff_of_verbatim hc).mp hname
    obtain rfl := (spelling_iff_of_verbatim hc).mp hvalue
    rw [Utf8.mem_encode_iff (by decide), List.mem_append, List.mem_cons, not_or, not_or] at hlf
    exact ⟨hcolon, hlf.1, hlf.2.2⟩

theorem exists_headerText_of_mem (hh : h ∈ hs)
    (ht : List.Forall₂ (fun line h => HeaderText c (Line.content line) h) lines hs) :
    ∃ line ∈ lines, HeaderText c line.content h := by
  induction ht with
  | nil => cases hh
  | cons ht _ ih =>
    cases hh with
    | head => exact ⟨_, List.mem_cons_self, ht⟩
    | tail _ hh =>
      obtain ⟨line, hline, ht⟩ := ih hh
      exact ⟨line, List.mem_cons_of_mem _ hline, ht⟩

/-- Only headers that can be written verbatim are read from lines as they are written. -/
theorem HeaderText.plain_of_verbatim (hc : c.Verbatim) (ht : HeaderText c line.content h)
    (hend : line.ending = .lf) : h.Plain := by
  obtain ⟨hcolon, hname, hvalue⟩ := ht.notMem_of_verbatim hc
  refine ⟨hcolon, hname, hvalue, fun hlast => line.cr_ne_last hend ?_⟩
  have hwritten := ht.append_lf_of_verbatim hc
  rw [headerLine, List.append_cancel_right_eq, spell_of_verbatim hc, spell_of_verbatim hc]
    at hwritten
  rw [hwritten, Utf8.getLast?_encode_iff (by decide), List.getLast?_append, List.getLast?_cons,
    hlast]
  rfl

/-- Only headers that can be written verbatim are read back under the command of a login. -/
theorem plain_of_holds (hc : f.command.Verbatim) (hl : l.Holds f) (hbytes : l.bytes = f.content) :
    ∀ h ∈ f.headers, h.Plain := by
  intro h hh
  obtain ⟨line, hline, ht⟩ := exists_headerText_of_mem hh hl.headers
  have htidy := (Layout.bytes_eq_content_iff hl).mp hbytes
  refine ht.plain_of_verbatim hc (htidy.lines line ?_).ending
  exact List.mem_append_left _ (List.mem_cons_of_mem _ hline)

/-- The content of a frame decodes to the frame exactly if its headers can be written. -/
theorem decode_content_iff :
    decode f.content = .ok (some f) ↔ ¬f.command.Verbatim ∨ ∀ h ∈ f.headers, h.Plain := by
  rw [decode_eq_some_iff]
  constructor
  · rintro ⟨l, hl, hbytes⟩
    by_cases hc : f.command.Verbatim
    · exact .inr (plain_of_holds hc hl hbytes)
    · exact .inl hc
  · intro hw
    have hline := exists_layout (g := id) fun h hh =>
      exists_line (hw.imp id fun hplain => hplain h hh)
    rwa [List.map_id] at hline

theorem decode_content_ne_none : decode f.content ≠ .ok none := by
  obtain ⟨b, rest, hcontent, heol⟩ := content_begins f
  rw [Ne, decode_eq_none_iff, hcontent]
  intro hall
  rw [hall b List.mem_cons_self] at heol
  cases heol

/-- The content of a frame whose headers cannot be written is no frame, or another one. -/
theorem decode_content_of_not_plain (hw : ¬(¬f.command.Verbatim ∨ ∀ h ∈ f.headers, h.Plain)) :
    (∃ fault, decode f.content = .error fault) ∨ ∃ g, decode f.content = .ok (some g) ∧ g ≠ f := by
  cases hf : decode f.content with
  | error fault => exact .inl ⟨fault, rfl⟩
  | ok result =>
    cases result with
    | none => exact absurd hf decode_content_ne_none
    | some g =>
      refine .inr ⟨g, rfl, ?_⟩
      rintro rfl
      exact hw (decode_content_iff.mp hf)

/-- When the bytes of a frame, without the final NUL, decode to that frame: under a command that
escapes headers always, and under the commands of a login exactly if no name has a colon or a line
feed and no value has a line feed or ends in a carriage return. Otherwise the bytes are no frame, or
another one. -/
theorem decode_encode_iff (f : Frame) :
    (decode f.encode.dropLast = .ok (some f) ↔ ¬f.command.Verbatim ∨ ∀ h ∈ f.headers, h.Plain)
      ∧ (¬(¬f.command.Verbatim ∨ ∀ h ∈ f.headers, h.Plain) →
        (∃ fault, decode f.encode.dropLast = .error fault)
          ∨ ∃ g, decode f.encode.dropLast = .ok (some g) ∧ g ≠ f) := by
  rw [dropLast_encode]
  exact ⟨decode_content_iff, decode_content_of_not_plain⟩

/-- A login with a line feed in a value is not read back; under a command that escapes headers it
is. -/
theorem decode_encode_iff_of_line_feed :
    decode (encode ⟨.send, [⟨"login", "a\nb:c"⟩], []⟩).dropLast
        = .ok (some ⟨.send, [⟨"login", "a\nb:c"⟩], []⟩)
      ∧ ((∃ fault, decode (encode ⟨.connect, [⟨"login", "a\nb:c"⟩], []⟩).dropLast = .error fault)
        ∨ ∃ g, decode (encode ⟨.connect, [⟨"login", "a\nb:c"⟩], []⟩).dropLast = .ok (some g)
          ∧ g ≠ ⟨.connect, [⟨"login", "a\nb:c"⟩], []⟩) :=
  ⟨(decode_encode_iff _).1.mpr (.inl (by decide)), (decode_encode_iff _).2 (by decide)⟩

end Frame

end StompRelay
