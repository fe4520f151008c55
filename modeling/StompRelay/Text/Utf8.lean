/-!
# UTF-8

Text as bytes and back. Encoding is total; decoding is strict and, when it refuses, says where the
valid part ends and how long the offending sequence is.

## Main definitions

* `Bytes` — a string of bytes
* `Utf8.encodeChar`, `Utf8.encode` — the bytes of a character and of a text
* `Utf8.decode` — the characters of a byte string, or the first `Utf8.Fault`
* `Utf8.Fault.message` — the wording of a fault
* `Utf8.decodeText`, `Utf8.encodeText` — the same for `String`
-/

namespace StompRelay

/-- A string of bytes. -/
abbrev Bytes := List UInt8

namespace Utf8

/-- Where and how a byte string stops being UTF-8. -/
structure Fault where
  /-- Number of bytes before the faulty sequence. -/
  validUpTo : Nat
  /-- Length of the faulty sequence; `none` when the input ends inside a sequence that was
  valid so far. -/
  length : Option Nat
  deriving DecidableEq, Repr

/-- The wording of a fault. -/
def Fault.message : Fault → String
  | ⟨i, some n⟩ => "invalid utf-8 sequence of " ++ toString n ++ " bytes from index " ++ toString i
  | ⟨i, none⟩ => "incomplete utf-8 byte sequence from index " ++ toString i

/-! ### Encoding -/

/-- The bytes of the character with code point `n`. -/
def encodeCode (n : Nat) : Bytes :=
  if n < 0x80 then [UInt8.ofNat n]
  else if n < 0x800 then [UInt8.ofNat (0xC0 + n / 64), UInt8.ofNat (0x80 + n % 64)]
  else if n < 0x10000 then
    [UInt8.ofNat (0xE0 + n / 4096), UInt8.ofNat (0x80 + n / 64 % 64), UInt8.ofNat (0x80 + n % 64)]
  else
    [UInt8.ofNat (0xF0 + n / 262144), UInt8.ofNat (0x80 + n / 4096 % 64),
      UInt8.ofNat (0x80 + n / 64 % 64), UInt8.ofNat (0x80 + n % 64)]

/-- The bytes of one character. -/
def encodeChar (c : Char) : Bytes := encodeCode c.toNat

/-- The bytes of a text. -/
def encode (cs : List Char) : Bytes := cs.flatMap encodeChar

@[simp] theorem encode_nil : encode [] = [] := rfl

@[simp] theorem encode_cons (c : Char) (cs : List Char) :
    encode (c :: cs) = encodeChar c ++ encode cs := by
  simp [encode]

@[simp] theorem encode_append (cs ds : List Char) : encode (cs ++ ds) = encode cs ++ encode ds := by
  simp [encode]

/-- The bytes of a `String`. -/
def encodeText (s : String) : Bytes := encode s.toList

/-! ### Decoding -/

/-- A byte that continues a sequence: `80` to `BF`. -/
def isTail (b : UInt8) : Bool := 0x80 ≤ b && b ≤ 0xBF

/-- The payload of a continuation byte. -/
def tailValue (b : UInt8) : Nat := b.toNat - 0x80

/-- The bounds of the second byte of a three-byte sequence that starts with `a`: they exclude
overlong forms and surrogates. -/
def secondOfThree (a b : UInt8) : Bool :=
  if a = 0xE0 then 0xA0 ≤ b && b ≤ 0xBF
  else if a = 0xED then 0x80 ≤ b && b ≤ 0x9F
  else isTail b

/-- The bounds of the second byte of a four-byte sequence that starts with `a`: they exclude
overlong forms and code points above `10FFFF`. -/
def secondOfFour (a b : UInt8) : Bool :=
  if a = 0xF0 then 0x90 ≤ b && b ≤ 0xBF
  else if a = 0xF4 then 0x80 ≤ b && b ≤ 0x8F
  else isTail b

/-- Decodes the rest of a byte string whose first `i` bytes gave the characters `acc`, latest
first. -/
def decodeFrom (i : Nat) (acc : List Char) : Bytes → Except Fault (List Char)
  | [] => .ok acc.reverse
  | a :: rest =>
    if a < 0x80 then decodeFrom (i + 1) (Char.ofNat a.toNat :: acc) rest
    -- a continuation byte, or the start of an overlong form of two bytes
    else if a < 0xC2 then .error ⟨i, some 1⟩
    else if a < 0xE0 then
      match rest with
      | [] => .error ⟨i, none⟩
      | b :: rest =>
        if isTail b then
          decodeFrom (i + 2) (Char.ofNat ((a.toNat - 0xC0) * 64 + tailValue b) :: acc) rest
        else .error ⟨i, some 1⟩
    else if a < 0xF0 then
      match rest with
      | [] => .error ⟨i, none⟩
      | b :: rest =>
        if secondOfThree a b then
          match rest with
          | [] => .error ⟨i, none⟩
          | c :: rest =>
            if isTail c then
              decodeFrom (i + 3)
                (Char.ofNat ((a.toNat - 0xE0) * 4096 + tailValue b * 64 + tailValue c) :: acc) rest
            else .error ⟨i, some 2⟩
        else .error ⟨i, some 1⟩
    else if a < 0xF5 then
      match rest with
      | [] => .error ⟨i, none⟩
      | b :: rest =>
        if secondOfFour a b then
          match rest with
          | [] => .error ⟨i, none⟩
          | c :: rest =>
            if isTail c then
              match rest with
              | [] => .error ⟨i, none⟩
              | d :: rest =>
                if isTail d then
                  decodeFrom (i + 4)
                    (Char.ofNat ((a.toNat - 0xF0) * 262144 + tailValue b * 4096 + tailValue c * 64
                      + tailValue d) :: acc) rest
                else .error ⟨i, some 3⟩
            else .error ⟨i, some 2⟩
        else .error ⟨i, some 1⟩
    -- `F5` to `FF` start no sequence
    else .error ⟨i, some 1⟩

/-- The characters of a byte string, or the first place where it is not UTF-8. -/
def decode (bs : Bytes) : Except Fault (List Char) := decodeFrom 0 [] bs

/-- The `String` with the given bytes, or the first place where they are not UTF-8. -/
def decodeText (bs : Bytes) : Except Fault String := (decode bs).map String.ofList

end Utf8

end StompRelay
