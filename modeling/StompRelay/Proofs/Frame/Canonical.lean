import StompRelay.Proofs.Frame.RoundTrip
/-!
# Frames written again

Many byte strings decode to one frame: heart-beats and carriage returns at the ends of lines are
dropped, and under a command that escapes headers a colon or a carriage return in a value may stand
as it is. Writing the frame that was read leaves one of these byte strings. Reading it gives the
frame back, with one exception: under the commands of a login nothing is escaped, so a carriage
return at the end of a value is taken for a part of the end of its line.

## Main definitions

* `Header.dropReturn` — a header without the carriage return at the end of its value
* `Frame.EndsInReturn` — the frames that such a carriage return is lost from
* `Frame.rewrite?` — bytes that are read and written again

## Main results

* `Frame.decode_content_of_decode` — what a frame that was read is read as when it is written again
* `Frame.rewritten_canonical` — the same, that nothing changes when it is written once more, and
  which bytes are left as they were
-/

namespace StompRelay

/-- A header without the carriage return at the end of its value. -/
def Header.dropReturn (h : Header) : Header :=
  if h.value.toList.getLast? = some '\r' then ⟨h.name, String.ofList h.value.toList.dropLast⟩ else h

theorem Header.dropReturn_of_ne {h : Header} (hlast : h.value.toList.getLast? ≠ some '\r') :
    h.dropReturn = h :=
  if_neg hlast

namespace Frame

/-- A frame of a login with a carriage return at the end of a value. -/
def EndsInReturn (f : Frame) : Prop :=
  f.command.Verbatim ∧ ∃ h ∈ f.headers, h.value.toList.getLast? = some '\r'

instance : DecidablePred EndsInReturn := fun f => inferInstanceAs
  (Decidable (f.command.Verbatim ∧ ∃ h ∈ f.headers, h.value.toList.getLast? = some '\r'))

/-- The bytes of the frame that some bytes hold, without the final NUL. -/
def rewrite? (bs : Bytes) : Option Bytes :=
  match decode bs with
  | .ok (some f) => some f.encode.dropLast
  | _ => none

/-! ### Frames read again -/

variable {c : Command} {h : Header} {bs : Bytes} {line : Line} {f : Frame}

/-- Written verbatim, a carriage return at the end of a value belongs to the end of the line. -/
theorem exists_line_dropReturn (hc : c.Verbatim) (ht : HeaderText c line.content h)
    (hlast : h.value.toList.getLast? = some '\r') :
    ∃ line' : Line, line'.content ≠ [] ∧ line'.bytes = headerLine c h
      ∧ HeaderText c line'.content h.dropReturn := by
  obtain ⟨hcolon, hname, hvalue⟩ := ht.notMem_of_verbatim hc
  have htext : HeaderText c (Utf8.encode (h.name.toList ++ ':' :: h.value.toList.dropLast))
      h.dropReturn := by
    rw [Header.dropReturn, if_pos hlast]
    refine .mk hcolon (.verbatim hc) ?_
    rw [spelling_iff_of_verbatim hc, String.toList_ofList]
  have hlf : lf ∉ Utf8.encode (h.name.toList ++ ':' :: h.value.toList.dropLast) := by
    rw [Utf8.mem_encode_iff (by decide), List.mem_append, List.mem_cons, not_or, not_or]
    exact ⟨hname, by decide, fun hmem => hvalue (List.dropLast_subset _ hmem)⟩
  have hwritten : Utf8.encode (h.name.toList ++ ':' :: h.value.toList.dropLast) ++ [cr, lf]
      = headerLine c h := by
    -- the last character of the value and the line feed are one line end
    have hreturn : h.value.toList.dropLast ++ ['\r'] = h.value.toList :=
      List.dropLast_append_getLast? _ hlast
    have hcr : Utf8.encode ['\r'] = [cr] := rfl
    rw [headerLine, spell_of_verbatim hc, spell_of_verbatim hc]
    conv => rhs; rw [← hreturn]
    simp only [Utf8.encode_append, Utf8.encode_cons, hcr, List.append_assoc]
    rfl
  exact ⟨⟨_, .crlf, hlf, fun hend => by cases hend⟩, List.ne_nil_of_mem htext.colon_mem, hwritten,
    htext⟩

/-- A header that was read from a line makes a line again. -/
theorem HeaderText.exists_rewritten (ht : HeaderText c line.content h) :
    ∃ line' : Line, line'.content ≠ [] ∧ line'.bytes = headerLine c h
      ∧ HeaderText c line'.content (if c.Verbatim then h.dropReturn else h) := by
  by_cases hc : c.Verbatim
  · rw [if_pos hc]
    by_cases hlast : h.value.toList.getLast? = some '\r'
    · exact exists_line_dropReturn hc ht hlast
    · obtain ⟨hcolon, hname, hvalue⟩ := ht.notMem_of_verbatim hc
      rw [Header.dropReturn_of_ne hlast]
      exact exists_line (.inr ⟨hcolon, hname, hvalue, hlast⟩)
  · rw [if_neg hc]
    exact exists_line (.inl hc)

/-- A frame that was read is read again, but for the carriage returns at the ends of values that are
not escaped. -/
theorem decode_content_of_decode (h : decode bs = .ok (some f)) :
    decode f.content = .ok (some { f with
      headers := f.headers.map fun h => if f.command.Verbatim then h.dropReturn else h }) := by
  obtain ⟨l, hl, -⟩ := decode_eq_some_iff.mp h
  refine decode_eq_some_iff.mpr (exists_layout fun h hh => ?_)
  obtain ⟨line, -, ht⟩ := exists_headerText_of_mem hh hl.headers
  exact ht.exists_rewritten

theorem map_dropReturn_of_not_endsInReturn (hreturn : ¬f.EndsInReturn) :
    (f.headers.map fun h => if f.command.Verbatim then h.dropReturn else h) = f.headers := by
  refine (List.map_congr_left fun h hh => ?_).trans (List.map_id f.headers)
  by_cases hc : f.command.Verbatim
  · rw [if_pos hc, Header.dropReturn_of_ne fun hlast => hreturn ⟨hc, h, hh, hlast⟩, id_eq]
  · rw [if_neg hc, id_eq]

/-- Bytes that hold a frame, and the bytes that it is written as:

* these are read as the frame again, and written as themselves, unless it is of a login and the
  value of a header ends in a carriage return;
* in that case they are read as the frame with one carriage return less at the end of each such
  value;
* they are the bytes that were read exactly if there are no heart-beats before these, each line of
  the head ends in a line feed alone and, where headers are escaped, there is no carriage return in
  the head and no colon after the first in the line of a header. -/
theorem rewritten_canonical (h : decode bs = .ok (some f)) :
    (¬f.EndsInReturn →
        decode f.encode.dropLast = .ok (some f) ∧ (rewrite? bs).bind rewrite? = rewrite? bs)
      ∧ (f.EndsInReturn → decode f.encode.dropLast
        = .ok (some { f with headers := f.headers.map Header.dropReturn }))
      ∧ ∃ l : Layout, l.Holds f ∧ l.bytes = bs ∧ (bs = f.encode.dropLast ↔ l.Tidy f.command) := by
  have hagain := decode_content_of_decode h
  rw [dropLast_encode]
  refine ⟨fun hreturn => ?_, ?_, ?_⟩
  · rw [map_dropReturn_of_not_endsInReturn hreturn] at hagain
    exact ⟨hagain, by simp [rewrite?, h, hagain]⟩
  · rintro ⟨hc, -⟩
    simpa only [if_pos hc] using hagain
  · obtain ⟨l, hl, rfl⟩ := decode_eq_some_iff.mp h
    exact ⟨l, hl, rfl, Layout.bytes_eq_content_iff hl⟩

/-- A login keeps one of two carriage returns at the end of a line, and loses that one when it is
written again. A colon in a value of another frame is escaped when it is written. -/
theorem rewritten_canonical_of_returns :
    decode (encode ⟨.connect, [⟨"login", "a\r"⟩], []⟩).dropLast
        = .ok (some ⟨.connect, [⟨"login", "a"⟩], []⟩)
      ∧ decode (encode ⟨.send, [⟨"a", "b:c"⟩], []⟩).dropLast
        = .ok (some ⟨.send, [⟨"a", "b:c"⟩], []⟩)
      ∧ ∃ l : Layout, l.bytes = Utf8.encodeText "SEND\na:b:c\n\n" ∧ ¬l.Tidy .send := by
  have hlogin : decode (Utf8.encodeText "CONNECT\nlogin:a\r\r\n\n")
      = .ok (some ⟨.connect, [⟨"login", "a\r"⟩], []⟩) := by decide +kernel
  have hsend : decode (Utf8.encodeText "SEND\na:b:c\n\n")
      = .ok (some ⟨.send, [⟨"a", "b:c"⟩], []⟩) := by decide +kernel
  obtain ⟨l, -, hbytes, htidy⟩ := (rewritten_canonical hsend).2.2
  refine ⟨(rewritten_canonical hlogin).2.1 (by decide),
    ((rewritten_canonical hsend).1 (by decide)).1, l, hbytes, ?_⟩
  rw [← htidy]
  decide

end Frame

end StompRelay
