import Lalr.Text.Ranges

set_option autoImplicit false

/-!
Tables of character sets. A set is written as its ranges in hexadecimal: `41-5A AA` stands
for two ranges, and `100-12E/2` for every second code point of one.
-/

namespace Lalr.Text

namespace CharRanges

/-- The value of a digit in a table. -/
def tableDigit (c : Char) : Nat :=
  if c.toNat < 0x3A then c.toNat - 0x30 else c.toNat - 0x37

/-- What has been read of a table: the ranges before the current entry, last one first, the
numbers of the entry before the current one, and the current number. -/
structure TableReader where
  ranges : CharRanges
  numbers : List Nat
  number : Nat

/-- The ranges that an entry with given numbers adds, last one first. -/
def TableReader.entry : List Nat → CharRanges
  | [step, last, first] =>
      ((List.range ((last - first) / step + 1)).map fun index =>
        (first + index * step, first + index * step)).reverse
  | [last, first] => [(first, last)]
  | [code] => [(code, code)]
  | _ => []

/-- The ranges with those of the current entry. -/
def TableReader.finish (reader : TableReader) : CharRanges :=
  TableReader.entry (reader.number :: reader.numbers) ++ reader.ranges

/-- Reads one more character of a table. -/
def TableReader.step (reader : TableReader) (c : Char) : TableReader :=
  if c = ' ' then ⟨reader.finish, [], 0⟩
  else if c = '-' || c = '/' then ⟨reader.ranges, reader.number :: reader.numbers, 0⟩
  else ⟨reader.ranges, reader.numbers, 16 * reader.number + tableDigit c⟩

/-- The ranges of a line of a table. -/
def ofHexLine (line : String) : CharRanges :=
  (line.toList.foldl TableReader.step ⟨[], [], 0⟩).finish.reverse

/-- The ranges of a table. -/
def ofHex (lines : List String) : CharRanges :=
  join (lines.flatMap ofHexLine)

end CharRanges

namespace Property

/-- A set of characters with the names that it goes by. -/
structure NamedSet where
  /-- In normal form: small letters, without blanks, hyphens and low lines. -/
  names : List String
  /-- The lines of its table. -/
  lines : List String
deriving DecidableEq, Repr

/-- The characters of a named set. -/
def NamedSet.ranges (set : NamedSet) : CharRanges :=
  .ofHex set.lines

/-- The set of a table that goes by a given name. -/
def NamedSet.find? (name : String) (table : List NamedSet) : Option CharRanges :=
  (table.find? fun set => set.names.contains name).map NamedSet.ranges

end Property

end Lalr.Text
