import Mathlib.Data.List.Basic
import Mathlib.Data.List.TakeWhile
import StompRelay.Frame.Basic
/-!
# How the bytes of a frame are laid out

Before the body of a frame there are heart-beats, the lines of its head and a blank line. Each line
ends in its own way, and a carriage return at the end of a line is taken to belong to that end. So
bytes can be laid out in one way at most.

## Main definitions

* `LineEnd`, `Line` — the ends of lines, and lines with their ends
* `Layout`, `Layout.bytes` — the parts that the bytes of a frame consist of, and those bytes

## Main results

* `Frame.line?_bytes`, `Line.exists_of_line?` — the first line of some bytes is found exactly
* `Layout.bytes_injective` — bytes are laid out in one way at most
-/

namespace StompRelay

open StompRelay.Frame

/-! ### Lines -/

/-- How a line ends. -/
inductive LineEnd where
  | lf
  | crlf
  deriving DecidableEq, Repr

/-- The bytes at the end of a line. -/
def LineEnd.bytes : LineEnd → Bytes
  | lf => [Frame.lf]
  | crlf => [cr, Frame.lf]

theorem LineEnd.isEol_of_mem_bytes {e : LineEnd} : ∀ b ∈ e.bytes, isEol b = true := by
  cases e <;> simp [bytes, isEol]

theorem LineEnd.bytes_injective {e e' : LineEnd} (h : e.bytes = e'.bytes) : e = e' := by
  cases e <;> cases e' <;> first | rfl | cases h

/-- A line of the head of a frame. A carriage return before the line feed belongs to the end of the
line. -/
@[ext] structure Line where
  content : Bytes
  ending : LineEnd
  lf_notMem : lf ∉ content
  cr_ne_last : ending = .lf → content.getLast? ≠ some cr
  deriving DecidableEq

namespace Line

/-- The bytes of a line, with its end. -/
def bytes (line : Line) : Bytes := line.content ++ line.ending.bytes

/-- The line with the given bytes before its line feed. -/
def ofBytes (bs : Bytes) (h : lf ∉ bs) : Line :=
  if hcr : bs.getLast? = some cr then
    ⟨bs.dropLast, .crlf, fun hmem => h (List.dropLast_subset _ hmem), fun hend => by cases hend⟩
  else ⟨bs, .lf, h, fun _ => hcr⟩

variable {line line' : Line} {bs content rest rest' : Bytes}

@[simp] theorem content_ofBytes (h : lf ∉ bs) : (ofBytes bs h).content = dropCr bs := by
  unfold ofBytes dropCr
  split <;> rfl

@[simp] theorem bytes_ofBytes (h : lf ∉ bs) : (ofBytes bs h).bytes = bs ++ [lf] := by
  unfold ofBytes
  split
  · rename_i hcr
    have hbs : bs.dropLast ++ [cr] = bs := List.dropLast_append_getLast? cr hcr
    conv => rhs; rw [← hbs]
    simp [bytes, LineEnd.bytes]
  · rfl

/-- The blank line with the given end. -/
def blank (e : LineEnd) : Line := ⟨[], e, List.not_mem_nil, fun _ => by simp⟩

@[simp] theorem content_blank (e : LineEnd) : (blank e).content = [] := rfl

theorem bytes_blank (e : LineEnd) : (blank e).bytes = e.bytes := rfl

/-- A line without some bytes at its start is a line. -/
theorem exists_of_content_eq_append {before : Bytes} (h : line.content = before ++ content) :
    ∃ line' : Line, line'.content = content ∧ line.bytes = before ++ line'.bytes := by
  have hlf : lf ∉ content := fun hmem => line.lf_notMem (h ▸ List.mem_append_right before hmem)
  have hcr : line.ending = .lf → content.getLast? ≠ some cr := fun hend hlast =>
    line.cr_ne_last hend (by rw [h, List.getLast?_append, hlast, Option.some_or])
  exact ⟨⟨content, line.ending, hlf, hcr⟩, rfl, by rw [bytes, bytes, h, List.append_assoc]⟩

end Line

namespace Frame

variable {line : Line} {bs content rest : Bytes}

/-- The first line of some bytes is what is before the first line feed. -/
theorem line?_append (h : lf ∉ bs) (rest : Bytes) :
    line? (bs ++ lf :: rest) = some (dropCr bs, rest) := by
  have hne : ∀ b ∈ bs, (b != lf) = true := fun b hb => by
    rw [bne_iff_ne]
    rintro rfl
    exact h hb
  rw [line?, List.dropWhile_append_of_pos hne, List.takeWhile_append_of_pos hne]
  simp

/-- Without a line feed no line ends. -/
theorem line?_eq_none (h : lf ∉ bs) : line? bs = none := by
  have hdrop : bs.dropWhile (· != lf) = [] := by
    rw [List.dropWhile_eq_nil_iff]
    intro b hb
    rw [bne_iff_ne]
    rintro rfl
    exact h hb
  rw [line?, hdrop]

/-- A line is found where it is the first. -/
theorem line?_bytes (line : Line) (rest : Bytes) :
    line? (line.bytes ++ rest) = some (line.content, rest) := by
  obtain ⟨content, ending, hlf, hcr⟩ := line
  cases ending with
  | lf =>
    have hdrop : dropCr content = content := if_neg (hcr rfl)
    simp only [Line.bytes, LineEnd.bytes, List.append_assoc, List.singleton_append]
    rw [line?_append hlf, hdrop]
  | crlf =>
    have hlf' : lf ∉ content ++ [cr] := by
      rw [List.mem_append, not_or]
      exact ⟨hlf, by decide⟩
    have hdrop : dropCr (content ++ [cr]) = content := by simp [dropCr]
    have hbytes : content ++ [cr, lf] ++ rest = (content ++ [cr]) ++ lf :: rest := by simp
    simp only [Line.bytes, LineEnd.bytes]
    rw [hbytes, line?_append hlf', hdrop]

/-- What is found first is a line. -/
theorem exists_of_line? (h : line? bs = some (content, rest)) :
    ∃ line : Line, line.content = content ∧ bs = line.bytes ++ rest := by
  by_cases hlf : lf ∈ bs
  · obtain ⟨before, rest', rfl, hbefore⟩ := List.eq_append_cons_of_mem hlf
    rw [line?_append hbefore] at h
    cases h
    exact ⟨.ofBytes before hbefore, by simp, by simp⟩
  · rw [line?_eq_none hlf] at h
    cases h

end Frame

/-- Bytes start with one line at most. -/
theorem Line.bytes_append_inj {line line' : Line} {rest rest' : Bytes}
    (h : line.bytes ++ rest = line'.bytes ++ rest') : line = line' ∧ rest = rest' := by
  have hfirst := line?_bytes line rest
  rw [h, line?_bytes, Option.some.injEq, Prod.mk.injEq] at hfirst
  obtain ⟨hcontent, rfl⟩ := hfirst
  refine ⟨Line.ext hcontent.symm ?_, rfl⟩
  rw [Line.bytes, Line.bytes, hcontent, List.append_cancel_right_eq,
    List.append_cancel_left_eq] at h
  exact LineEnd.bytes_injective h

/-! ### Layouts -/

/-- The parts that the bytes of a frame consist of, without the final NUL. -/
@[ext] structure Layout where
  /-- The heart-beats before the frame. -/
  beats : Bytes
  /-- The line of the command. -/
  first : Line
  /-- The lines of the headers. -/
  lines : List Line
  /-- How the blank line ends. -/
  blank : LineEnd
  body : Bytes
  isEol_of_mem_beats : ∀ b ∈ beats, isEol b = true
  begins : ∃ b rest, first.content = b :: rest ∧ isEol b = false
  ne_nil_of_mem_lines : ∀ line ∈ lines, line.content ≠ []

namespace Layout

/-- The bytes of a head after the line of the command, and of the body. -/
def tail (l : Layout) : Bytes := l.lines.flatMap Line.bytes ++ l.blank.bytes ++ l.body

/-- The bytes that are laid out. -/
def bytes (l : Layout) : Bytes := l.beats ++ l.first.bytes ++ l.tail

variable {l l' : Layout}

/-- Heart-beats are told from what follows them. -/
theorem dropWhile_isEol_bytes (l : Layout) :
    l.bytes.dropWhile isEol = l.first.bytes ++ l.tail := by
  obtain ⟨b, rest, hb, heol⟩ := l.begins
  rw [bytes, List.append_assoc, List.dropWhile_append_of_pos l.isEol_of_mem_beats, Line.bytes, hb]
  simp [heol]

theorem takeWhile_isEol_bytes (l : Layout) : l.bytes.takeWhile isEol = l.beats := by
  obtain ⟨b, rest, hb, heol⟩ := l.begins
  rw [bytes, List.append_assoc, List.takeWhile_append_of_pos l.isEol_of_mem_beats, Line.bytes, hb]
  simp [heol]

/-- The lines up to a blank line, and what follows it, are found again. -/
theorem tail_inj {lines lines' : List Line} {blank blank' : LineEnd} {body body' : Bytes}
    (hne : ∀ line ∈ lines, line.content ≠ []) (hne' : ∀ line ∈ lines', line.content ≠ [])
    (h : lines.flatMap Line.bytes ++ (blank.bytes ++ body)
      = lines'.flatMap Line.bytes ++ (blank'.bytes ++ body')) :
    lines = lines' ∧ blank = blank' ∧ body = body' := by
  -- a line that is not blank is not taken for the blank line
  have ends {line : Line} {rest : Bytes} {e : LineEnd} {rest' : Bytes}
      (h : line.bytes ++ rest = e.bytes ++ rest') : line.content = [] := by
    rw [← Line.bytes_blank] at h
    rw [(Line.bytes_append_inj h).1, Line.content_blank]
  induction lines generalizing lines' with
  | nil =>
    cases lines' with
    | nil =>
      rw [List.flatMap_nil, List.nil_append, List.nil_append, ← Line.bytes_blank,
        ← Line.bytes_blank] at h
      obtain ⟨hblank, hbody⟩ := Line.bytes_append_inj h
      exact ⟨rfl, congrArg Line.ending hblank, hbody⟩
    | cons line' lines' =>
      rw [List.flatMap_cons, List.flatMap_nil, List.nil_append, List.append_assoc] at h
      exact absurd (ends h.symm) (hne' line' List.mem_cons_self)
  | cons line lines ih =>
    rw [List.flatMap_cons, List.append_assoc] at h
    cases lines' with
    | nil =>
      rw [List.flatMap_nil, List.nil_append] at h
      exact absurd (ends h) (hne line List.mem_cons_self)
    | cons line' lines' =>
      rw [List.flatMap_cons, List.append_assoc] at h
      obtain ⟨rfl, hrest⟩ := Line.bytes_append_inj h
      obtain ⟨rfl, hblank, hbody⟩ := ih (fun line hmem => hne line (List.mem_cons_of_mem _ hmem))
        (fun line hmem => hne' line (List.mem_cons_of_mem _ hmem)) hrest
      exact ⟨rfl, hblank, hbody⟩

/-- Bytes are laid out in one way at most. -/
theorem bytes_injective (h : l.bytes = l'.bytes) : l = l' := by
  have hbeats : l.beats = l'.beats := by
    rw [← takeWhile_isEol_bytes, h, takeWhile_isEol_bytes]
  have hrest : l.first.bytes ++ l.tail = l'.first.bytes ++ l'.tail := by
    rw [← dropWhile_isEol_bytes, h, dropWhile_isEol_bytes]
  obtain ⟨hfirst, htail⟩ := Line.bytes_append_inj hrest
  rw [tail, tail, List.append_assoc, List.append_assoc] at htail
  obtain ⟨hlines, hblank, hbody⟩ := tail_inj l.ne_nil_of_mem_lines l'.ne_nil_of_mem_lines htail
  exact Layout.ext hbeats hfirst hlines hblank hbody

end Layout

end StompRelay
