import StompRelay.Text.Unprintable
/-!
# Quoted text

How a text is shown inside an error message: in double quotes, with everything that would be
invisible or ambiguous escaped.

## Main definitions

* `Text.escapeChar` — the spelling of one character
* `Text.quoted` — a text in quotes
-/

namespace StompRelay.Text

/-- The digit of value `n` in base sixteen, in lower case. -/
def hexDigit (n : Nat) : Char :=
  if n < 10 then Char.ofNat (48 + n) else Char.ofNat (87 + n)

/-- The numeral of `n` in base sixteen with at least one and at most `width` digits. -/
def hexNumeral : (width n : Nat) → List Char
  | 0, _ => []
  | w + 1, n => if n < 16 then [hexDigit n] else hexNumeral w (n / 16) ++ [hexDigit (n % 16)]

/-- The spelling of one character between quotes. -/
def escapeChar (c : Char) : List Char :=
  if c = '"' then ['\\', '"']
  else if c = '\\' then ['\\', '\\']
  else if c = '\x00' then ['\\', '0']
  else if c = '\t' then ['\\', 't']
  else if c = '\n' then ['\\', 'n']
  else if c = '\r' then ['\\', 'r']
  else if c.toNat < 0x20 || isUnprintable c then
    ['\\', 'u', '\x7b'] ++ hexNumeral 6 c.toNat ++ ['\x7d']
  else [c]

/-- A text in double quotes. -/
def quoted (s : String) : String :=
  String.ofList ('"' :: s.toList.flatMap escapeChar ++ ['"'])

example : quoted "a\"b\\ \t\u0301x" = "\"a\\\"b\\\\ \\t\\u\x7b301\x7dx\"" := by decide +kernel

end StompRelay.Text
