import StompRelay.Json.Basic
import StompRelay.Text.Quoted
/-!
# Writing JSON

Values are written without blanks, objects in the order of their keys. Strings escape only quotes,
backslashes and control characters, so a written value holds no character below the space.

## Main definitions

* `Json.writeString`, `Json.Number.write` — the text of strings and numbers
* `Json.write` — the text of a value
* `Json.writeArray`, `Json.writeObject` — containers around written parts
-/

namespace StompRelay.Json

/-- One character inside a written string. -/
def writeChar (c : Char) : List Char :=
  if c = '"' then ['\\', '"']
  else if c = '\\' then ['\\', '\\']
  else if c = '\x08' then ['\\', 'b']
  else if c = '\t' then ['\\', 't']
  else if c = '\n' then ['\\', 'n']
  else if c = '\x0c' then ['\\', 'f']
  else if c = '\r' then ['\\', 'r']
  else if c.toNat < 0x20 then
    ['\\', 'u', '0', '0', Text.hexDigit (c.toNat / 16), Text.hexDigit (c.toNat % 16)]
  else [c]

/-- A string in quotes. -/
def writeString (s : String) : List Char :=
  '"' :: s.toList.flatMap writeChar ++ ['"']

/-- A number. -/
def Number.write : Number → List Char
  | .whole (.ofNat n) => Numeral.write n
  | .whole (.negSucc n) => '-' :: Numeral.write (n + 1)
  | .real x => x.write

/-- Written parts with commas between them. -/
def separated : List (List Char) → List Char
  | [] => []
  | [part] => part
  | part :: rest => part ++ ',' :: separated rest

/-- An array of written items. -/
def writeArray (items : List (List Char)) : List Char := '[' :: separated items ++ [']']

/-- A written member. -/
def writeMember (key : String) (value : List Char) : List Char := writeString key ++ ':' :: value

/-- An object of written members. -/
def writeObject (members : List (List Char)) : List Char :=
  '\x7b' :: separated members ++ ['\x7d']

mutual

/-- The text of a value. -/
def write : Json → List Char
  | .null => ['n', 'u', 'l', 'l']
  | .bool true => ['t', 'r', 'u', 'e']
  | .bool false => ['f', 'a', 'l', 's', 'e']
  | .number n => n.write
  | .string s => writeString s
  | .array items => writeArray (writeItems items)
  | .object members => writeObject (writeMembers members)

/-- The texts of the items of an array. -/
def writeItems : List Json → List (List Char)
  | [] => []
  | v :: rest => write v :: writeItems rest

/-- The texts of the members of an object. -/
def writeMembers : List (String × Json) → List (List Char)
  | [] => []
  | (key, v) :: rest => writeMember key (write v) :: writeMembers rest

end

end StompRelay.Json
