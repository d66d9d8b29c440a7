set_option autoImplicit false

/-!
The decimal with the fewest digits that stands for a binary number of 64 bits: of all
decimals that are rounded to the number one with the fewest digits, and of those the nearest
one. A tie goes to the even digit.
-/

namespace Lalr

/-- The number `digits · 10 ^ exponent`. -/
structure Decimal where
  digits : Nat
  exponent : Int
deriving DecidableEq, Repr, Inhabited

/-- A number and the range of numbers that are rounded to it, as fractions with one
denominator. The ends of the range belong to it if it is closed. -/
structure RoundingRange where
  lower : Nat
  value : Nat
  upper : Nat
  denominator : Nat
  closed : Bool
deriving DecidableEq, Repr, Inhabited

namespace RoundingRange

/-- The range of all numbers divided by `10 ^ exponent`. -/
def inUnitsOf (range : RoundingRange) (exponent : Int) : RoundingRange :=
  if 0 ≤ exponent then
    { range with denominator := range.denominator * Nat.pow 10 exponent.toNat }
  else
    let factor := Nat.pow 10 (-exponent).toNat
    { range with
      lower := range.lower * factor
      value := range.value * factor
      upper := range.upper * factor }

/-- The range around `significand · 2 ^ exponent`: it reaches half of the last place to both
sides, below a power of two only half as far down. Its ends are rounded to the number if the
significand is even. -/
def ofBinary (significand : Nat) (exponent : Int) (narrowBelow : Bool) : RoundingRange :=
  let quarters := exponent - 2
  let factor := 1 <<< quarters.toNat
  { lower := (4 * significand - if narrowBelow then 1 else 2) * factor
    value := 4 * significand * factor
    upper := (4 * significand + 2) * factor
    denominator := 1 <<< (-quarters).toNat
    closed := significand % 2 = 0 }

/-- The range around the magnitude of a finite binary number. -/
def ofFloat (number : Float) : RoundingRange :=
  let bits := number.toBits.toNat
  let fraction := bits % 0x10000000000000
  let exponent := bits / 0x10000000000000 % 0x800
  if exponent = 0 then ofBinary fraction (-1074) false
  else ofBinary (0x10000000000000 + fraction) (exponent - 1075) (fraction = 0 && exponent ≠ 1)

/-- Whether a whole number is in the range. -/
def contains (range : RoundingRange) (whole : Nat) : Bool :=
  let scaled := whole * range.denominator
  if range.closed then range.lower ≤ scaled && scaled ≤ range.upper
  else range.lower < scaled && scaled < range.upper

/-- The whole number of the range that is nearest to its number, the even one of two. -/
def nearestWhole? (range : RoundingRange) : Option Nat :=
  let below := range.value / range.denominator
  let excess := 2 * (range.value % range.denominator)
  let belowFirst := excess < range.denominator || (excess = range.denominator && below % 2 = 0)
  ((if belowFirst then [below, below + 1] else [below + 1, below]).find? range.contains)

/-- The exponent of the first digit of the number, which must not be far below the least
binary number of 64 bits. -/
def leadingExponent (range : RoundingRange) : Int :=
  let places := 324
  let digits := Nat.toDigits 10 (range.value * Nat.pow 10 places / range.denominator)
  (digits.length : Int) - 1 - places

/-- The decimal with the fewest digits in the range. Seventeen digits tell all binary
numbers of 64 bits apart. -/
def shortest (range : RoundingRange) : Decimal :=
  let first := range.leadingExponent + 1
  ((List.range 18).findSome? fun (places : Nat) =>
    let exponent := first - places
    (range.inUnitsOf exponent).nearestWhole?.map fun digits => ⟨digits, exponent⟩).getD ⟨0, 0⟩

end RoundingRange

/-- The shortest decimal for the magnitude of a finite number that is not zero. -/
def Decimal.ofFloat (number : Float) : Decimal :=
  (RoundingRange.ofFloat number).shortest

end Lalr
