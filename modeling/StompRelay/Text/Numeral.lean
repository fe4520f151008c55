/-!
# Decimal numerals

Natural numbers written with the digits `0` to `9`.

## Main definitions

* `Numeral.isDigit`, `Numeral.value` — the digits and the number that a run of them writes
* `Numeral.write` — the numeral of a number, without leading zeros
* `Numeral.readBounded` — reads digits after at most one plus sign, up to a bound

## Main results

* `Numeral.value_write` — a written numeral has the value it was written for
-/

namespace StompRelay.Numeral

/-- One of `0` to `9`. -/
def isDigit (c : Char) : Bool := '0' ≤ c && c ≤ '9'

/-- The value of a digit. -/
def digitValue (c : Char) : Nat := c.toNat - '0'.toNat

/-- The number that a run of digits writes; no digits write zero. -/
def value (ds : List Char) : Nat := ds.foldl (fun n d => n * 10 + digitValue d) 0

/-- The digit of value `n`, for `n` below ten. -/
def digit (n : Nat) : Char := Char.ofNat ('0'.toNat + n)

/-- The digits of `n`, least significant first, put before `acc`. -/
def writeOnto (n : Nat) (acc : List Char) : List Char :=
  if _h : n < 10 then digit n :: acc else writeOnto (n / 10) (digit (n % 10) :: acc)
termination_by n

/-- The numeral of `n`, without leading zeros. -/
def write (n : Nat) : List Char := writeOnto n []

/-- Reads one or more digits after at most one plus sign; refuses every other text and numbers
above `bound`. -/
def readBounded (bound : Nat) (cs : List Char) : Option Nat :=
  let ds := match cs with
    | '+' :: ds => ds
    | ds => ds
  if ds.isEmpty || !ds.all isDigit then none
  else if value ds ≤ bound then some (value ds) else none

theorem digitValue_digit {n : Nat} (h : n < 10) : digitValue (digit n) = n := by
  match n, h with
  | 0, _ | 1, _ | 2, _ | 3, _ | 4, _ | 5, _ | 6, _ | 7, _ | 8, _ | 9, _ => rfl

/-- Digits written before `acc` shift the value of what they stand for past it. -/
theorem foldl_writeOnto (n : Nat) (acc : List Char) :
    (writeOnto n acc).foldl (fun n d => n * 10 + digitValue d) 0
      = acc.foldl (fun n d => n * 10 + digitValue d) n := by
  fun_induction writeOnto n acc with
  | case1 n acc h => simp [digitValue_digit h]
  | case2 n acc h ih =>
    rw [ih, List.foldl_cons, digitValue_digit (Nat.mod_lt n (by decide))]
    congr 1
    omega

theorem value_write (n : Nat) : value (write n) = n := by
  simp [value, write, foldl_writeOnto]

end StompRelay.Numeral
