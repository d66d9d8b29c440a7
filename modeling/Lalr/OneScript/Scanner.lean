import Lalr.Scanner
import Lalr.Text.CaseFold
import Lalr.Text.Word

set_option autoImplicit false

/-!
The scanner of OneScript: the markers of regions, strings that go on over several
lines, and dates. It remembers how many regions are open, so that the end of a region
is only recognised inside one.
-/

namespace Lalr.OneScript

open Lalr.Text

/-! ## Regions -/

/-- The number of open regions; anything but a stored number of four bytes means none. -/
def regionDepth (state : ScannerState) : UInt32 :=
  match state.bytes with
  | [a, b, c, d] =>
      a.toUInt32 ||| (b.toUInt32 <<< 8) ||| (c.toUInt32 <<< 16) ||| (d.toUInt32 <<< 24)
  | _ => 0

/-- Remembers a number of open regions; none takes no bytes. -/
def ofRegionDepth (depth : UInt32) : ScannerState :=
  if depth = 0 then .empty
  else ⟨[depth.toUInt8, (depth >>> 8).toUInt8, (depth >>> 16).toUInt8, (depth >>> 24).toUInt8]⟩

/-- One more open region; the greatest number is kept. -/
def deeper (depth : UInt32) : UInt32 :=
  if depth = 0xFFFFFFFF then depth else depth + 1

/-- The two markers of a region. -/
inductive RegionMarker where
  | opening
  | closing
deriving DecidableEq, Repr

/-- The words of the markers. -/
def regionWords : List (String × RegionMarker) :=
  [("Область", .opening), ("Region", .opening), ("КонецОбласти", .closing),
    ("EndRegion", .closing)]

/-- The marker at the start of a text and the text behind it. -/
def regionMarker? (text : List Char) : Option (RegionMarker × List Char) :=
  regionWords.findSome? fun (word, marker) =>
    (stripWord? word.toList text).map fun rest => (marker, rest)

/-- A character that ends a line. -/
def endsLine (c : Char) : Bool :=
  c == '\r' || c == '\n'

/-- Reads a region marker behind its number sign. The outcome depends on the rest of
the line. -/
def scanRegion (text : List Char) (valid : ValidExternals) (state : ScannerState) :
    ScanOutcome :=
  let line := utf8Length (text.takeWhile fun c => !endsLine c)
  let examined := min (line + 1) (utf8Length text)
  let isGap : Char → Bool := fun c => c == ' ' || c == '\t'
  let word := (text.drop 1).dropWhile isGap
  match regionMarker? word with
  | none => .decline examined
  | some (marker, rest) =>
      if rest.head?.any continuesWord then .decline examined
      else
        let length := utf8Length text - utf8Length rest
        let depth := regionDepth state
        match marker with
        | .opening =>
            if valid.contains 0 then .token 0 length (ofRegionDepth (deeper depth)) examined
            else .decline examined
        | .closing =>
            if valid.contains 1 && depth != 0 then
              .token 1 length (ofRegionDepth (depth - 1)) examined
            else .decline examined

/-! ## Strings -/

/-- Where a string is read: inside it, between its lines, or in a comment between its
lines. -/
inductive StringPlace where
  | inside
  | betweenLines
  | inComment
deriving DecidableEq, Repr

/-- Whether a literal was recognised, with its length, and the bytes examined. -/
structure LiteralScan where
  length : Option Nat
  examined : Nat
deriving DecidableEq, Repr

/-- Reads the rest of a string from byte `offset` on. A doubled quote stands for one; a
line break is followed by blank and comment lines up to a bar, where the string goes
on. -/
def scanStringFrom : StringPlace → Nat → List Char → LiteralScan
  | _, offset, [] => ⟨none, offset⟩
  | .inside, offset, '"' :: '"' :: rest => scanStringFrom .inside (offset + 2) rest
  | .inside, offset, c :: rest =>
      if c = '"' then ⟨some (offset + 1), if rest.isEmpty then offset + 1 else offset + 2⟩
      else if endsLine c then scanStringFrom .betweenLines (offset + 1) rest
      else scanStringFrom .inside (offset + c.utf8Size) rest
  | .betweenLines, offset, c :: rest =>
      if c = ' ' || c = '\t' || endsLine c then scanStringFrom .betweenLines (offset + 1) rest
      else if c = '|' then scanStringFrom .inside (offset + 1) rest
      else if c = '/' && rest.head? == some '/' then scanStringFrom .inComment (offset + 1) rest
      else ⟨none, offset + 1⟩
  | .inComment, offset, c :: rest =>
      if c = '\n' then scanStringFrom .betweenLines (offset + 1) rest
      else scanStringFrom .inComment (offset + c.utf8Size) rest

/-- Reads a string from its opening quote on. -/
def scanString (text : List Char) : LiteralScan :=
  scanStringFrom .inside 1 (text.drop 1)

/-! ## Dates -/

/-- The value of decimal digits. -/
def decimal (digits : List Nat) : Nat :=
  digits.foldl (fun value digit => 10 * value + digit) 0

/-- Years divisible by 4 are leap years, except for centuries not divisible by 400. -/
def isLeapYear (year : Nat) : Bool :=
  (year % 4 == 0 && year % 100 != 0) || year % 400 == 0

/-- The number of days of a month. -/
def daysInMonth (year month : Nat) : Nat :=
  if [1, 3, 5, 7, 8, 10, 12].contains month then 31
  else if [4, 6, 9, 11].contains month then 30
  else if month = 2 then if isLeapYear year then 29 else 28
  else 0

/-- The digits of a date with or without a time, with or without seconds. All zeros
stand for the empty date. -/
def isValidDate (digits : List Nat) : Bool :=
  let part : Nat → Nat → Nat := fun start count => decimal ((digits.drop start).take count)
  let count := digits.length
  if count ≠ 8 ∧ count ≠ 12 ∧ count ≠ 14 then false
  else if digits.all (· == 0) then true
  else
    part 0 4 != 0 && part 6 2 != 0 && part 6 2 ≤ daysInMonth (part 0 4) (part 4 2) &&
      (count < 12 || (part 8 2 ≤ 23 && part 10 2 ≤ 59)) && (count < 14 || part 12 2 ≤ 59)

/-- Reads a date from its opening quote on. Characters other than digits separate its
parts in any way; it must be closed on its line. -/
def scanDate (text : List Char) : LiteralScan :=
  let isEnd : Char → Bool := fun c => c == '\'' || endsLine c
  let body := text.drop 1
  let content := body.takeWhile fun c => !isEnd c
  let length := utf8Length content + 2
  match (body.dropWhile fun c => !isEnd c).head? with
  | none => ⟨none, utf8Length text⟩
  | some close =>
      let digits := (content.filter Char.isDigit).map fun c => c.toNat - 48
      if close = '\'' && isValidDate digits then ⟨some length, length⟩ else ⟨none, length⟩

/-! ## The scanner -/

/-- A literal leaves the open regions as they are. -/
def LiteralScan.outcome (scan : LiteralScan) (index : Nat) (state : ScannerState) :
    ScanOutcome :=
  match scan.length with
  | some length => .token index length state scan.examined
  | none => .decline scan.examined

/-- Recognises an external token at the start of a text. -/
def scan (text : List Char) (valid : ValidExternals) (state : ScannerState) : ScanOutcome :=
  match text with
  | [] => .decline 0
  | c :: _ =>
      if c = '#' && (valid.contains 0 || valid.contains 1) then scanRegion text valid state
      else if c = '"' && valid.contains 2 then (scanString text).outcome 2 state
      else if c = '\'' && valid.contains 3 then (scanDate text).outcome 3 state
      else .decline 1

/-- The scanner of the four external tokens of OneScript. -/
def scanner : Scanner :=
  ⟨"OneScriptScanner", 4, scan⟩

end Lalr.OneScript
