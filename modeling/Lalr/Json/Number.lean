import Lalr.Decimal.Shortest
import Lalr.Text.Digits

set_option autoImplicit false

/-!
Numbers in JSON texts. Integers that fit into 64 bits are kept as they are; all others are
binary numbers of 64 bits and are written with the fewest digits.
-/

namespace Lalr.Json

open Lalr.Text

/-! ## Writing -/

/-- A decimal with its point in place. There is at least one digit on both sides of the
point. -/
def positional (digits : List Char) (leading : Int) : List Char :=
  let zeros : Nat → List Char := fun count => List.replicate count '0'
  if leading < 0 then '0' :: '.' :: zeros (-leading - 1).toNat ++ digits
  else
    let size := leading.toNat + 1
    let fraction := digits.drop size
    digits.take size ++ zeros (size - digits.length) ++ '.' ::
      (if fraction.isEmpty then ['0'] else fraction)

/-- A decimal with one digit before its point and the exponent of that digit. -/
def scientific (digits : List Char) (leading : Int) : List Char :=
  let fraction := digits.drop 1
  digits.take 1 ++ (if fraction.isEmpty then [] else '.' :: fraction) ++
    ['e', if leading < 0 then '-' else '+'] ++ Nat.toDigits 10 leading.natAbs

/-- Decimals are positional while the exponent of their first digit is in this range. -/
def positionalExponents : Int × Int :=
  (-5, 15)

/-- The text of a decimal other than zero. -/
def decimalText (decimal : Decimal) : List Char :=
  let digits := Nat.toDigits 10 decimal.digits
  let leading := decimal.exponent + digits.length - 1
  if positionalExponents.1 ≤ leading ∧ leading ≤ positionalExponents.2 then
    positional digits leading
  else scientific digits leading

/-- The text of a finite binary number. A zero keeps its sign. -/
def floatText (number : Float) : String :=
  let magnitude := if number == 0 then ['0', '.', '0'] else decimalText (.ofFloat number)
  String.ofList (if number.toBits < 0x8000000000000000 then magnitude else '-' :: magnitude)

/-! ## Reading -/

/-- A number as it is written: its sign, the digits before the point, those behind it, and
the exponent. -/
structure Numeral where
  negative : Bool
  whole : List Char
  fraction : Option (List Char) := none
  exponent : Option Int := none
deriving DecidableEq, Repr, Inhabited

/-- Appends digits to a number as long as it fits into 64 bits; the digits that are left
come with it. -/
def appendDigits (number : Nat) : List Char → Nat × List Char
  | [] => (number, [])
  | digit :: digits =>
      let next := 10 * number + digitValue digit
      if next < UInt64.size then appendDigits next digits else (number, digit :: digits)

/-- A power of ten of which the exponent is at most 308. -/
def powerOfTen (exponent : Nat) : Float :=
  Float.ofScientific 1 false exponent

/-- Divides by a power of ten, at most by `10 ^ 308` at a time. -/
def scaleDown (number : Float) (places : Nat) : Float :=
  if _ : places ≤ 308 then number / powerOfTen places
  else if number == 0 then number
  else scaleDown (number / powerOfTen 308) (places - 308)
termination_by places
decreasing_by omega

/-- A number times a power of ten, if it is finite. -/
def scale? (number : Float) (exponent : Int) : Option Float :=
  if exponent < 0 then some (scaleDown number exponent.natAbs)
  else if exponent ≤ 308 then
    let scaled := number * powerOfTen exponent.toNat
    if scaled.isInf then none else some scaled
  else if number == 0 then some number
  else none

namespace Numeral

/-- The digits that fit into 64 bits as a number, and the exponent of its last digit. Digits
of the fraction that do not fit count for nothing. -/
def significand (numeral : Numeral) : Nat × Int :=
  let (leading, dropped) := appendDigits 0 numeral.whole
  let fraction := numeral.fraction.getD []
  let (leading, ignored) := appendDigits leading fraction
  (leading, dropped.length - (fraction.length - ignored.length))

/-- The binary number for a numeral: the leading digits are rounded, then scaled by a power
of ten and rounded again. There is none beyond the range. -/
def toFloat? (numeral : Numeral) : Option Float := do
  let (leading, exponent) := numeral.significand
  let magnitude ← scale? leading.toUInt64.toFloat (exponent + numeral.exponent.getD 0)
  pure (if numeral.negative then -magnitude else magnitude)

/-- The integer that a numeral without fraction and exponent writes, if it fits into 64
bits. A negative zero is no integer. -/
def toInt? (numeral : Numeral) : Option Int :=
  let number := ofDigits 10 numeral.whole
  if numeral.fraction.isSome || numeral.exponent.isSome then none
  else if numeral.negative then
    if 0 < number ∧ number ≤ 0x8000000000000000 then some (-number) else none
  else if number < UInt64.size then some number
  else none

end Numeral

end Lalr.Json
