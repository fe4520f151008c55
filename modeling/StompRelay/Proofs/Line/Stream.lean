import StompRelay.Relay.Service
/-!
# The lines of a stream and what they ask for

The bytes of the local bus are taken one by one. What comes of it is told by the whole stream: cut
it at every line feed, and drop a carriage return before each. A line that asks for nothing leaves
no trace as long as it is text. A line that is not text ends the reading, whatever follows it.

## Main definitions

* `BusInput.linesOf` — the lines in the pieces of a stream
* `BusInput.isText`, `BusInput.asked?` — whether a line is text, and what it asks for

## Main results

* `BusInput.lines_eq` — cutting the whole stream gives the lines that are read
* `BusInput.events_eq` — what a stream asks for is what its lines ask for, up to the first that is
  not text
* `BusInput.line_without_event` — what becomes of the lines around one that asks for nothing
-/

namespace StompRelay.BusInput

/-- A line without the carriage return at its end. -/
def dropReturn (line : Bytes) : Bytes := if line.getLast? = some cr then line.dropLast else line

/-- The lines in the pieces of a stream that was cut at its line feeds. The last piece has no end,
so it is a line only if it is not empty, and nothing is dropped from it. -/
def linesOf : List Bytes → List Bytes
  | [] => []
  | [last] => if last.isEmpty then [] else [last]
  | piece :: pieces => dropReturn piece :: linesOf pieces

/-- Whether a line is text. -/
def isText (line : Bytes) : Bool := (Utf8.decode line).isOk

/-- The event that the bytes of a line ask for: none unless they are text that is not blank and
writes one. -/
def asked? (line : Bytes) : Option Event :=
  match Utf8.decode line with
  | .ok cs => event? cs
  | .error _ => none

variable {acc bs line pre post rest : Bytes} {ls : List Bytes}

/-! ### Cutting a stream -/

theorem dropReturn_reverse (acc : Bytes) :
    dropReturn acc.reverse
      = match acc with
        | c :: rest => if c = cr then rest.reverse else acc.reverse
        | [] => [] := by
  cases acc with
  | nil => rfl
  | cons c rest => simp [dropReturn]

/-- A line that ends is followed by the lines of what comes after it. -/
theorem linesFrom_line (hline : lf ∉ line) :
    linesFrom acc (line ++ lf :: rest) = dropReturn (acc.reverse ++ line) :: lines rest := by
  induction line generalizing acc with
  | nil =>
    rw [List.append_nil, dropReturn_reverse]
    rfl
  | cons b line ih =>
    have hb : b ≠ lf := fun h => hline (h ▸ List.mem_cons_self)
    have hrest : lf ∉ line := fun h => hline (List.mem_cons_of_mem _ h)
    simp only [List.cons_append, linesFrom, if_neg hb]
    rw [ih hrest, List.reverse_cons, List.append_assoc, List.singleton_append]

theorem lines_line (hline : lf ∉ line) :
    lines (line ++ lf :: rest) = dropReturn line :: lines rest :=
  linesFrom_line hline

/-- A stream without line feeds is at most one line. -/
theorem linesFrom_of_not_mem (hbs : lf ∉ bs) :
    linesFrom acc bs = if (acc.reverse ++ bs).isEmpty then [] else [acc.reverse ++ bs] := by
  induction bs generalizing acc with
  | nil => simp [linesFrom]
  | cons b bs ih =>
    have hb : b ≠ lf := fun h => hbs (h ▸ List.mem_cons_self)
    have hrest : lf ∉ bs := fun h => hbs (List.mem_cons_of_mem _ h)
    simp only [linesFrom, if_neg hb]
    rw [ih hrest, List.reverse_cons, List.append_assoc, List.singleton_append]

theorem linesOf_cons {piece : Bytes} {pieces : List Bytes} (hne : pieces ≠ []) :
    linesOf (piece :: pieces) = dropReturn piece :: linesOf pieces := by
  cases pieces with
  | nil => exact absurd rfl hne
  | cons => rfl

/-- Cutting the whole stream gives the lines that are read byte by byte. -/
theorem lines_eq (bs : Bytes) : lines bs = linesOf (bs.splitOn lf) := by
  -- what is after the first line feed is shorter than the stream
  induction hn : bs.length using Nat.strongRecOn generalizing bs with
  | ind n ih =>
    by_cases hlf : lf ∈ bs
    · obtain ⟨line, rest, rfl, hline⟩ := List.eq_append_cons_of_mem hlf
      have hrest := ih rest.length (by simp [← hn]; omega) rest rfl
      rw [lines_line hline, List.splitOn_append_cons_self_of_not_mem hline,
        linesOf_cons (List.splitOn_ne_nil _ _), hrest]
    · rw [List.splitOn_eq_singleton hlf, lines, linesFrom_of_not_mem hlf]
      rfl

/-- What follows a line feed is read on its own. -/
theorem linesFrom_append (p : Bytes) :
    linesFrom acc (p ++ lf :: rest) = linesFrom acc (p ++ [lf]) ++ lines rest := by
  induction p generalizing acc with
  | nil => rfl
  | cons b p ih =>
    by_cases hb : b = lf
    · simp only [List.cons_append, linesFrom, if_pos hb, ih]
    · simp only [List.cons_append, linesFrom, if_neg hb, ih]

/-- Ended lines are followed by the lines of what comes after them. -/
theorem lines_append (hpre : pre = [] ∨ ∃ p, pre = p ++ [lf]) :
    lines (pre ++ rest) = lines pre ++ lines rest := by
  obtain rfl | ⟨p, rfl⟩ := hpre
  · rfl
  · rw [List.append_assoc, List.singleton_append]
    exact linesFrom_append p

/-! ### What lines ask for -/

theorem filterMap_readable (ls : List Bytes) :
    (readable ls).filterMap event? = (ls.takeWhile isText).filterMap asked? := by
  induction ls with
  | nil => rfl
  | cons line ls ih =>
    cases hdecode : Utf8.decode line with
    | error f => simp [readable, isText, hdecode, Except.isOk, Except.toBool]
    | ok cs =>
      simp only [readable, hdecode, isText, Except.isOk, Except.toBool, List.takeWhile_cons_of_pos,
        List.filterMap_cons, asked?, ih]

/-- What a stream asks for is what its lines ask for, up to the first line that is not text. -/
theorem events_eq (bs : Bytes) :
    events bs = ((linesOf (bs.splitOn lf)).takeWhile isText).filterMap asked? := by
  rw [events, filterMap_readable, lines_eq]

theorem events_eq_lines (bs : Bytes) :
    events bs = ((lines bs).takeWhile isText).filterMap asked? :=
  filterMap_readable _

/-- A line of text that asks for nothing is passed over. -/
theorem filterMap_takeWhile_of_isText {before after : List Bytes} (htext : isText line = true)
    (hnone : asked? line = none) :
    ((before ++ line :: after).takeWhile isText).filterMap asked?
      = ((before ++ after).takeWhile isText).filterMap asked? := by
  -- either a line before it is no text, and neither stream gets this far, or it is skipped
  induction before with
  | nil => simp [htext, hnone]
  | cons l before ih =>
    by_cases hl : isText l = true
    · simp only [List.cons_append, List.takeWhile_cons_of_pos hl, List.filterMap_cons, ih]
    · simp [hl]

/-- Nothing from a line on that is not text is looked at. -/
theorem takeWhile_of_not_isText {before after : List Bytes} (htext : ¬ isText line = true) :
    (before ++ line :: after).takeWhile isText = before.takeWhile isText := by
  induction before with
  | nil => simp [htext]
  | cons l before ih =>
    by_cases hl : isText l = true
    · simp only [List.cons_append, List.takeWhile_cons_of_pos hl, ih]
    · simp [hl]

/-- The lines around one that has an end. -/
theorem lines_around (hpre : pre = [] ∨ ∃ p, pre = p ++ [lf]) (hline : lf ∉ line) :
    lines (pre ++ (line ++ lf :: post)) = lines pre ++ dropReturn line :: lines post := by
  rw [lines_append hpre, lines_line hline]

/-- What a stream asks for is what its lines ask for in order, up to the first that is not text. So
a line that asks for nothing makes no difference if it is text, neither to what the rest of the
stream asks for nor to the lines that go out. If it is not text, the stream ends before it. -/
theorem line_without_event (c : Config) (dial : Except String Nat) (stream pre line post : Bytes)
    (hpre : pre = [] ∨ ∃ p, pre = p ++ [lf]) (hline : lf ∉ line)
    (hnone : asked? (dropReturn line) = none) :
    events stream = ((linesOf (stream.splitOn lf)).takeWhile isText).filterMap asked?
      ∧ (isText (dropReturn line) = true →
        events (pre ++ (line ++ lf :: post)) = events (pre ++ post)
          ∧ Relay.transcript c dial (pre ++ (line ++ lf :: post))
            = Relay.transcript c dial (pre ++ post))
      ∧ (isText (dropReturn line) = false →
        events (pre ++ (line ++ lf :: post)) = events pre
          ∧ Relay.transcript c dial (pre ++ (line ++ lf :: post))
            = Relay.transcript c dial pre) := by
  -- what goes out depends on the stream only through what it asks for
  have sameTranscript {bs cs : Bytes} (h : events bs = events cs) :
      Relay.transcript c dial bs = Relay.transcript c dial cs := by
    rw [Relay.transcript, Relay.transcript, h]
  refine ⟨events_eq stream, fun htext => ?_, fun htext => ?_⟩
  · -- it is one of the lines that are looked at, and gives nothing
    have passed : events (pre ++ (line ++ lf :: post)) = events (pre ++ post) := by
      rw [events_eq_lines, events_eq_lines, lines_around hpre hline, lines_append hpre,
        filterMap_takeWhile_of_isText htext hnone]
    exact ⟨passed, sameTranscript passed⟩
  · -- it cuts off itself and the lines after it
    have ended : events (pre ++ (line ++ lf :: post)) = events pre := by
      rw [events_eq_lines, events_eq_lines, lines_around hpre hline,
        takeWhile_of_not_isText (by simp [htext])]
    exact ⟨ended, sameTranscript ended⟩

/-- A line that notes that a client has gone. -/
def closedLine (id : SessionId) : Bytes :=
  Utf8.encodeText ("\x7b\"type\":\"closed\",\"session_id\":\"" ++ id ++ "\"\x7d") ++ [lf]

/-- Between two lines that ask for something, a brace alone is text and is passed over; the byte
`FF` stands in no text, and the stream ends before it. -/
theorem line_without_event_of_invalid_byte :
    (closedLine "s1" = [] ∨ ∃ p, closedLine "s1" = p ++ [lf])
      ∧ (lf ∉ [(0x7B : UInt8)] ∧ asked? (dropReturn [0x7B]) = none
        ∧ isText (dropReturn [0x7B]) = true
        ∧ (events (closedLine "s1" ++ ([0x7B] ++ lf :: closedLine "s2"))).map Event.session
          = ["s1", "s2"]
        ∧ Relay.transcript .default (.ok 1) (closedLine "s1" ++ ([0x7B] ++ lf :: closedLine "s2"))
          = Relay.transcript .default (.ok 1) (closedLine "s1" ++ closedLine "s2"))
      ∧ lf ∉ [(0xFF : UInt8)] ∧ asked? (dropReturn [0xFF]) = none
        ∧ isText (dropReturn [0xFF]) = false
        ∧ (events (closedLine "s1" ++ ([0xFF] ++ lf :: closedLine "s2"))).map Event.session = ["s1"]
        ∧ Relay.transcript .default (.ok 1) (closedLine "s1" ++ ([0xFF] ++ lf :: closedLine "s2"))
          = Relay.transcript .default (.ok 1) (closedLine "s1") := by
  have hpre : closedLine "s1" = [] ∨ ∃ p, closedLine "s1" = p ++ [lf] := .inr ⟨_, rfl⟩
  have hbrace : asked? (dropReturn [0x7B]) = none :=
    Option.isNone_iff_eq_none.mp (by decide +kernel)
  have hboth : (events (closedLine "s1" ++ closedLine "s2")).map Event.session = ["s1", "s2"] := by
    decide +kernel
  have hone : (events (closedLine "s1")).map Event.session = ["s1"] := by decide +kernel
  obtain ⟨-, hpassed, -⟩ := line_without_event .default (.ok 1) [] (closedLine "s1") [0x7B]
    (closedLine "s2") hpre (by decide) hbrace
  obtain ⟨-, -, hended⟩ := line_without_event .default (.ok 1) [] (closedLine "s1") [0xFF]
    (closedLine "s2") hpre (by decide) rfl
  obtain ⟨hevents, htranscript⟩ := hpassed rfl
  obtain ⟨hevents', htranscript'⟩ := hended rfl
  refine ⟨hpre, ⟨by decide, hbrace, rfl, ?_, htranscript⟩, by decide, rfl, rfl, ?_, htranscript'⟩
  · rw [hevents, hboth]
  · rw [hevents', hone]

/-- One line that is no text hides the next, though that one asks for something. -/
theorem event_hidden_by_invalid_byte :
    (events ([0xFF, lf]
        ++ Utf8.encodeText "\x7b\"type\":\"closed\",\"session_id\":\"s1\"\x7d")).length = 0
      ∧ ((linesOf (([0xFF, lf]
          ++ Utf8.encodeText "\x7b\"type\":\"closed\",\"session_id\":\"s1\"\x7d").splitOn
            lf)).filterMap asked?).length = 1 := by
  decide +kernel

end StompRelay.BusInput
