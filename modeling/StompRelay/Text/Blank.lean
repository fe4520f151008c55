/-!
# Blank characters

The characters with the Unicode property `White_Space`, and trimming by them.

## Main definitions

* `Text.isBlank` — the property
* `Text.trim` — a text without the blanks at its two ends
-/

namespace StompRelay.Text

/-- The first and last code points of each range with the property `White_Space`. -/
def blankRanges : List (Nat × Nat) :=
  [(0x09, 0x0D), (0x20, 0x20), (0x85, 0x85), (0xA0, 0xA0), (0x1680, 0x1680), (0x2000, 0x200A),
    (0x2028, 0x2029), (0x202F, 0x202F), (0x205F, 0x205F), (0x3000, 0x3000)]

/-- Has the property `White_Space`. -/
def isBlank (c : Char) : Bool :=
  blankRanges.any fun r => r.1 ≤ c.toNat && c.toNat ≤ r.2

/-- A text without the blanks at its start. -/
def trimLeft (cs : List Char) : List Char := cs.dropWhile isBlank

/-- A text without the blanks at its end. -/
def trimRight (cs : List Char) : List Char := (cs.reverse.dropWhile isBlank).reverse

/-- A text without the blanks at its two ends. -/
def trim (cs : List Char) : List Char := trimRight (trimLeft cs)

end StompRelay.Text
