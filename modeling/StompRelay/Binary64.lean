import StompRelay.Text.Numeral
/-!
# Finite binary floating-point numbers with 53 significant bits

A finite number is a sign and a natural significand times a power of two. Reading rounds a decimal
to the nearest such number, a tie to the even significand. Writing chooses the fewest decimal
digits that read back as the same number, and among those the nearest to it.

## Main definitions

* `Binary64` — the numbers
* `Binary64.ofDecimal` — the number nearest to a decimal, or none where that is out of range
* `Binary64.shortest` — the digits to write
* `Binary64.Layout`, `Binary64.write` — where the decimal point goes, and the text
-/

namespace StompRelay

/-- A finite number: `significand * 2 ^ exponent`, negated where `negative` holds. Nonzero numbers
have a significand of 53 bits, or the least exponent `-1074`. -/
structure Binary64 where
  /-- Whether the sign bit is set; zero has both signs. -/
  negative : Bool
  /-- The significand, below `2 ^ 53`. -/
  significand : Nat
  /-- The power of two, from `-1074` to `971`. -/
  exponent : Int
  deriving DecidableEq, Repr

namespace Binary64

/-- A power of a base; one where the exponent is negative, so that a power with any exponent is the
quotient of two of these. -/
def pow (base : Nat) (exponent : Int) : Nat := Nat.pow base exponent.toNat

/-- Zero of the given sign. -/
def zero (negative : Bool) : Binary64 := ⟨negative, 0, -1074⟩

/-! ### Reading -/

/-- `num / den` rounded to the nearest natural number, a tie to the even one. -/
def roundHalfEven (num den : Nat) : Nat :=
  let q := num / den
  let r := num % den
  if 2 * r < den then q
  else if den < 2 * r then q + 1
  else if q % 2 = 0 then q else q + 1

/-- The power of two that leaves `num / den` a quotient of 53 bits, but at least `-1074`. -/
def exponentFor (num den : Nat) : Int :=
  let e : Int := (num.log2 : Int) - den.log2
  max ((if num * pow 2 (-e) < den * pow 2 e then e - 1 else e) - 52) (-1074)

/-- The number nearest to `num / den`, for nonzero `num` and `den`; none above the largest. -/
def ofQuotient (negative : Bool) (num den : Nat) : Option Binary64 :=
  let q := exponentFor num den
  let m := roundHalfEven (num * pow 2 (-q)) (den * pow 2 q)
  let (m, q) := if m = pow 2 53 then (pow 2 52, q + 1) else (m, q)
  if q ≤ 971 then some ⟨negative, m, q⟩ else none

/-- The number nearest to the decimal `digits * 10 ^ power`; none above the largest number.
Decimals far outside the range are decided by their number of digits. -/
def ofDecimal (negative : Bool) (digits : Nat) (power : Int) : Option Binary64 :=
  if digits = 0 then some (zero negative)
  else
    let places : Int := (Numeral.write digits).length + power
    if 310 < places then none
    else if places < -330 then some (zero negative)
    else ofQuotient negative (digits * pow 10 power) (pow 10 (-power))

/-! ### The digits to write -/

/-- A natural number of units `10 ^ power`. -/
structure Decimal where
  /-- How many units. -/
  digits : Nat
  /-- The power of ten of a unit. -/
  power : Int
  deriving DecidableEq, Repr

/-- Compares `d` units of `10 ^ power` with `x` units of `2 ^ (exponent - 2)`. -/
def compareUnits (exponent power : Int) (d x : Nat) : Ordering :=
  compare (d * pow 10 power * pow 2 (2 - exponent)) (x * pow 2 (exponent - 2) * pow 10 (-power))

/-- The natural part of the number divided by `10 ^ power`. -/
def floorUnits (x : Binary64) (power : Int) : Nat :=
  x.significand * pow 2 x.exponent * pow 10 (-power) / (pow 10 power * pow 2 (-x.exponent))

/-- Whether `d` units of `10 ^ power` round to the magnitude of `x`. The bounds are the midpoints
to the two neighbouring numbers; they belong to `x` when its significand is even. -/
def readsBack (x : Binary64) (power : Int) (d : Nat) : Bool :=
  let m := x.significand
  -- below a power of two the neighbour is half as far
  let low := if m = pow 2 52 ∧ -1074 < x.exponent then 4 * m - 1 else 4 * m - 2
  let high := 4 * m + 2
  let above := compareUnits x.exponent power d low
  let below := compareUnits x.exponent power d high
  if m % 2 = 0 then above != .lt && below != .gt else above == .gt && below == .lt

/-- Of `d` and `d + 1` units of `10 ^ power`, around the magnitude of `x`, the nearer one; of two
equally near ones the even one. -/
def nearer (x : Binary64) (power : Int) (d : Nat) : Nat :=
  match compareUnits x.exponent power (2 * d + 1) (8 * x.significand) with
  | .gt => d
  | .lt => d + 1
  | .eq => if d % 2 = 0 then d else d + 1

/-- The decimal with units `10 ^ power` that reads back as `x` and is nearest to it, if any. -/
def onGrid (x : Binary64) (power : Int) : Option Decimal :=
  let d := x.floorUnits power
  match x.readsBack power d, x.readsBack power (d + 1) with
  | true, true => some ⟨x.nearer power d, power⟩
  | true, false => some ⟨d, power⟩
  | false, true => some ⟨d + 1, power⟩
  | false, false => none

/-- The power of ten of the first significant digit of a nonzero number. -/
def leadingPower (x : Binary64) : Int :=
  let estimate := Int.fdiv (((x.significand.log2 : Int) + x.exponent) * 30103) 100000
  if x.floorUnits (estimate + 1) = 0 then estimate else estimate + 1

/-- A decimal without trailing zeros, for nonzero digits. -/
def Decimal.strip (digits : Nat) (power : Int) : Decimal :=
  if h : digits ≠ 0 ∧ digits % 10 = 0 then Decimal.strip (digits / 10) (power + 1)
  else ⟨digits, power⟩
termination_by digits
decreasing_by omega

/-- The first of the grids with `count`, `count + 1`, … digits, `left` of them, that has a decimal
reading back as `x`. -/
def shortestFrom (x : Binary64) (lead : Int) (count : Nat) : (left : Nat) → Decimal
  | 0 => ⟨0, 0⟩
  | left + 1 =>
    match x.onGrid (lead + 1 - count) with
    | some d => Decimal.strip d.digits d.power
    | none => shortestFrom x lead (count + 1) left

/-- The fewest digits that read back as the magnitude of a nonzero number; of the decimals with so
many digits, the nearest. Seventeen digits always suffice. -/
def shortest (x : Binary64) : Decimal := shortestFrom x x.leadingPower 1 17

/-! ### Layout -/

/-- How a number is laid out as text. -/
structure Layout where
  /-- The decimal point is written in place while it stands after at most this many digits. -/
  maxWhole : Int
  /-- The decimal point is written in place while fewer than this many zeros follow it. -/
  maxZeros : Int
  /-- The sign written before a positive power of ten. -/
  positivePower : List Char

/-- A number from `1e-5` up to `1e16` has its decimal point in place and at least one digit after
it; any other number has one digit before the point, and a signed power of ten. -/
def Layout.standard : Layout := ⟨16, 5, ['+']⟩

/-- The text of nonzero digits times a power of ten. -/
def Decimal.write (layout : Layout) (d : Decimal) : List Char :=
  let ds := Numeral.write d.digits
  let count : Int := ds.length
  let point := count + d.power
  if 0 ≤ d.power ∧ point ≤ layout.maxWhole then
    ds ++ List.replicate d.power.toNat '0' ++ ['.', '0']
  else if 0 < point ∧ point ≤ layout.maxWhole then
    ds.take point.toNat ++ '.' :: ds.drop point.toNat
  else if -layout.maxZeros < point ∧ point ≤ 0 then
    '0' :: '.' :: (List.replicate (-point).toNat '0' ++ ds)
  else
    let power := point - 1
    let fraction := match ds.drop 1 with
      | [] => []
      | rest => '.' :: rest
    ds.take 1 ++ fraction ++ 'e' ::
      ((if 0 ≤ power then layout.positivePower else ['-']) ++ Numeral.write power.natAbs)

/-- The text of a number. -/
def write (x : Binary64) : List Char :=
  (if x.negative then ['-'] else []) ++
    (if x.significand = 0 then ['0', '.', '0'] else x.shortest.write .standard)

end Binary64

end StompRelay
