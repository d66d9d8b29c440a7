set_option autoImplicit false

/-!
Digits and the numbers that they write.
-/

namespace Lalr.Text

/-- The value of a hexadecimal digit; decimal and octal digits are among them. -/
def digitValue? (c : Char) : Option Nat :=
  if '0' ≤ c && c ≤ '9' then some (c.toNat - 48)
  else if 'a' ≤ c && c ≤ 'f' then some (c.toNat - 87)
  else if 'A' ≤ c && c ≤ 'F' then some (c.toNat - 55)
  else none

/-- Whether a character is a hexadecimal digit. -/
def isHexDigit (c : Char) : Bool :=
  (digitValue? c).isSome

/-- The value of a digit; what is no digit counts as zero. -/
def digitValue (c : Char) : Nat :=
  (digitValue? c).getD 0

/-- The number that digits write, the first one weighing most. -/
def ofDigits (base : Nat) (digits : List Char) : Nat :=
  digits.foldl (fun number digit => base * number + digitValue digit) 0

/-- The character of a code point, if it has one: surrogates and what lies beyond the last
plane have none. -/
def charOf? (code : Nat) : Option Char :=
  if code.isValidChar then some (Char.ofNat code) else none

/-- The character of a code point written in hexadecimal digits, of which there is at least
one. -/
def hexChar? (digits : List Char) : Option Char :=
  if digits.isEmpty || !digits.all isHexDigit then none else charOf? (ofDigits 16 digits)

end Lalr.Text
