import StompRelay.Frame.Fault
/-!
# Escaped headers

In most frames the names and values of headers are escaped, so that a line feed, a carriage return
or a colon in them neither ends the line nor splits it.

## Main definitions

* `Frame.escape`, `Frame.unescape` — the escaped form of a text, and back

## Main results

* `Frame.mem_escape` — the characters of an escaped text
* `Frame.unescape_escape` — an escaped text reads back
-/

namespace StompRelay.Frame

/-- The escaped form of a character. -/
def escapeOne (c : Char) : List Char :=
  if c = '\\' then ['\\', '\\']
  else if c = '\n' then ['\\', 'n']
  else if c = '\r' then ['\\', 'r']
  else if c = ':' then ['\\', 'c']
  else [c]

/-- The escaped form of a text. -/
def escape (cs : List Char) : List Char := cs.flatMap escapeOne

/-- The character that a letter after a backslash stands for. -/
def escaped? (c : Char) : Option Char :=
  if c = '\\' then some '\\'
  else if c = 'n' then some '\n'
  else if c = 'r' then some '\r'
  else if c = 'c' then some ':'
  else none

/-- The text with the given escaped form, after the characters `acc`, latest first. -/
def unescapeFrom (acc : List Char) : List Char → Except Fault (List Char)
  | [] => .ok acc.reverse
  | ['\\'] => .error .danglingEscape
  | '\\' :: c :: rest =>
    match escaped? c with
    | some d => unescapeFrom (d :: acc) rest
    | none => .error (.undefinedEscape c)
  | c :: rest => unescapeFrom (c :: acc) rest

/-- The text with the given escaped form. -/
def unescape (cs : List Char) : Except Fault (List Char) := unescapeFrom [] cs

@[simp] theorem escape_nil : escape [] = [] := rfl

@[simp] theorem escape_cons (c : Char) (cs : List Char) :
    escape (c :: cs) = escapeOne c ++ escape cs := by
  simp [escape]

/-- The characters of an escaped text: backslashes and the letters after them, and characters of the
text that need no escape. -/
theorem mem_escape {d : Char} {cs : List Char} (hd : d ∈ escape cs) :
    d ∈ ['\\', 'n', 'r', 'c'] ∨ d ∈ cs ∧ d ∉ ['\n', '\r', ':'] := by
  have pair {e : Char} (he : e ∈ ['\\', 'n', 'r', 'c']) (hd : d ∈ ['\\', e]) :
      d ∈ ['\\', 'n', 'r', 'c'] := by
    rw [List.mem_cons, List.mem_singleton] at hd
    rcases hd with rfl | rfl
    · exact List.mem_cons_self
    · exact he
  obtain ⟨c, hc, hd⟩ := List.mem_flatMap.mp hd
  unfold escapeOne at hd
  by_cases h₁ : c = '\\'
  · rw [if_pos h₁] at hd
    exact .inl (pair (by decide) hd)
  by_cases h₂ : c = '\n'
  · rw [if_neg h₁, if_pos h₂] at hd
    exact .inl (pair (by decide) hd)
  by_cases h₃ : c = '\r'
  · rw [if_neg h₁, if_neg h₂, if_pos h₃] at hd
    exact .inl (pair (by decide) hd)
  by_cases h₄ : c = ':'
  · rw [if_neg h₁, if_neg h₂, if_neg h₃, if_pos h₄] at hd
    exact .inl (pair (by decide) hd)
  · rw [if_neg h₁, if_neg h₂, if_neg h₃, if_neg h₄, List.mem_singleton] at hd
    subst hd
    exact .inr ⟨hc, by simp [h₂, h₃, h₄]⟩

theorem unescapeFrom_escape (acc cs : List Char) :
    unescapeFrom acc (escape cs) = .ok (acc.reverse ++ cs) := by
  induction cs generalizing acc with
  | nil => simp [unescapeFrom]
  | cons c cs ih =>
    rw [escape_cons]
    by_cases h₁ : c = '\\'
    · subst h₁
      simp [escapeOne, unescapeFrom, escaped?, ih]
    · by_cases h₂ : c = '\n'
      · subst h₂
        simp [escapeOne, unescapeFrom, escaped?, ih]
      · by_cases h₃ : c = '\r'
        · subst h₃
          simp [escapeOne, unescapeFrom, escaped?, ih]
        · by_cases h₄ : c = ':'
          · subst h₄
            simp [escapeOne, unescapeFrom, escaped?, ih]
          · simp [escapeOne, h₁, h₂, h₃, h₄, unescapeFrom, ih]

/-- An escaped text reads back. -/
theorem unescape_escape (cs : List Char) : unescape (escape cs) = .ok cs := by
  simp [unescape, unescapeFrom_escape]

end StompRelay.Frame
