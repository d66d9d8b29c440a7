import Lalr.Text.Digits
import Lalr.Toml.Basic

set_option autoImplicit false

/-!
The pieces that TOML documents are made of: blanks, comments, texts, numbers and dates.
Every reader returns what it read and the rest of the text, or nothing.
-/

namespace Lalr.Toml

open Lalr.Text

/-- Reads something from the start of a text. -/
abbrev Reader (α : Type) := List Char → Option (α × List Char)

/-! ## Blanks and comments -/

/-- Blank characters within a line. -/
def isInlineBlank (c : Char) : Bool :=
  c = ' ' || c = '\t'

/-- Characters of comments: all but control characters, tabulators excepted. -/
def isPrintable (c : Char) : Bool :=
  c = '\t' || (' ' ≤ c && c ≠ '\x7f')

/-- Skips blanks within a line. -/
def skipInline (text : List Char) : List Char :=
  text.dropWhile isInlineBlank

/-- Skips a comment, if there is one. -/
def skipComment : List Char → List Char
  | '#' :: rest => rest.dropWhile isPrintable
  | text => text

/-- Skips to the next line, or to the end of the text, when only blanks and a comment
come before. -/
def endLine? (text : List Char) : Option (List Char) :=
  match skipComment (skipInline text) with
  | [] => some []
  | '\n' :: rest => some rest
  | _ => none

/-- Skips blanks, line ends and comments. -/
def skipBlank : Nat → List Char → List Char
  | 0, text => text
  | fuel + 1, text =>
      match skipComment (skipInline text) with
      | '\n' :: rest => skipBlank fuel rest
      | rest => rest

/-- Joins the two characters of a line end into one. -/
def joinLineEnds : List Char → List Char
  | '\r' :: '\n' :: rest => '\n' :: joinLineEnds rest
  | c :: rest => c :: joinLineEnds rest
  | [] => []

/-! ## Texts -/

/-- The character that a letter after a backslash stands for. -/
def escapedChar? : Char → Option Char
  | 'b' => some '\x08'
  | 't' => some '\t'
  | 'n' => some '\n'
  | 'f' => some '\x0c'
  | 'r' => some '\r'
  | '"' => some '"'
  | '\\' => some '\\'
  | _ => none

/-- Reads what follows a backslash. -/
def escape : Reader Char
  | 'u' :: rest => do pure (← hexCharOf 4 rest, rest.drop 4)
  | 'U' :: rest => do pure (← hexCharOf 8 rest, rest.drop 8)
  | c :: rest => do pure (← escapedChar? c, rest)
  | [] => none
where
  /-- The character of the first digits. -/
  hexCharOf (count : Nat) (text : List Char) : Option Char :=
    if count ≤ text.length then hexChar? (text.take count) else none

/-- Reads a text up to the closing quotation mark. -/
def basicText : Nat → Reader (List Char)
  | 0, _ => none
  | fuel + 1, text =>
      match text with
      | '"' :: rest => some ([], rest)
      | '\\' :: rest => do
          let (c, rest) ← escape rest
          let (chars, rest) ← basicText fuel rest
          pure (c :: chars, rest)
      | c :: rest =>
          if isPrintable c then do
            let (chars, rest) ← basicText fuel rest
            pure (c :: chars, rest)
          else none
      | [] => none

/-- Reads a text without escapes up to the closing apostrophe. -/
def literalText (text : List Char) : Option (List Char × List Char) :=
  let chars := text.takeWhile fun c => isPrintable c && c ≠ '\x27'
  match text.drop chars.length with
  | '\x27' :: rest => some (chars, rest)
  | _ => none

/-- Reads the run of a quotation mark at the start of a text of several lines. A run of
three ends the text; up to two more before it belong to the text. -/
def quoteRun (quote : Char) (text : List Char) : List Char × Bool × List Char :=
  let run := (text.takeWhile (· = quote)).length
  if run < 3 then (List.replicate run quote, false, text.drop run)
  else
    let kept := min (run - 3) 2
    (List.replicate kept quote, true, text.drop (kept + 3))

/-- Reads a text of several lines up to three quotation marks. A backslash at the end of
a line joins it with the next character that is not blank. -/
def longBasicText : Nat → Reader (List Char)
  | 0, _ => none
  | fuel + 1, text =>
      match text with
      | '"' :: _ =>
          match quoteRun '"' text with
          | (quotes, true, rest) => some (quotes, rest)
          | (quotes, false, rest) => do
              let (chars, rest) ← longBasicText fuel rest
              pure (quotes ++ chars, rest)
      | '\\' :: rest =>
          match skipInline rest with
          | '\n' :: next => longBasicText fuel (next.dropWhile fun c => isInlineBlank c || c = '\n')
          | _ => do
              let (c, rest) ← escape rest
              let (chars, rest) ← longBasicText fuel rest
              pure (c :: chars, rest)
      | c :: rest =>
          if isPrintable c || c = '\n' then do
            let (chars, rest) ← longBasicText fuel rest
            pure (c :: chars, rest)
          else none
      | [] => none

/-- Reads a text of several lines without escapes up to three apostrophes. -/
def longLiteralText : Nat → Reader (List Char)
  | 0, _ => none
  | fuel + 1, text =>
      match text with
      | '\x27' :: _ =>
          match quoteRun '\x27' text with
          | (quotes, true, rest) => some (quotes, rest)
          | (quotes, false, rest) => do
              let (chars, rest) ← longLiteralText fuel rest
              pure (quotes ++ chars, rest)
      | c :: rest =>
          if isPrintable c || c = '\n' then do
            let (chars, rest) ← longLiteralText fuel rest
            pure (c :: chars, rest)
          else none
      | [] => none

/-- A line end right behind the opening marks does not count. -/
def skipFirstLineEnd : List Char → List Char
  | '\n' :: rest => rest
  | text => text

/-- Reads a text in any of the four notations. -/
def anyText (text : List Char) : Option (String × List Char) :=
  let result :=
    match text with
    | '"' :: '"' :: '"' :: rest => longBasicText text.length (skipFirstLineEnd rest)
    | '\x27' :: '\x27' :: '\x27' :: rest => longLiteralText text.length (skipFirstLineEnd rest)
    | '"' :: rest => basicText text.length rest
    | '\x27' :: rest => literalText rest
    | _ => none
  result.map fun (chars, rest) => (String.ofList chars, rest)

/-! ## Keys -/

/-- Characters of keys without quotation marks. -/
def isKeyChar (c : Char) : Bool :=
  c.isAlphanum || c = '_' || c = '-'

/-- Reads one part of a key. -/
def keyPart (text : List Char) : Option (String × List Char) :=
  match text with
  | '"' :: rest => (basicText text.length rest).map fun (chars, rest) => (String.ofList chars, rest)
  | '\x27' :: rest => (literalText rest).map fun (chars, rest) => (String.ofList chars, rest)
  | _ =>
      let chars := text.takeWhile isKeyChar
      if chars.isEmpty then none else some (String.ofList chars, text.drop chars.length)

/-- Reads parts of a key with dots between them. -/
def keyParts : Nat → Reader (List String)
  | 0, _ => none
  | fuel + 1, text => do
      let (part, rest) ← keyPart (skipInline text)
      match skipInline rest with
      | '.' :: rest => do
          let (parts, rest) ← keyParts fuel rest
          pure (part :: parts, rest)
      | rest => pure ([part], rest)

/-- How deep values may be nested, and how many parts a key may have, is less than
this. -/
def nestingLimit : Nat := 80

/-- Reads a key: the parts before the last one, and the last one. -/
def key (text : List Char) : Option ((List String × String) × List Char) := do
  let (parts, rest) ← keyParts (text.length + 1) text
  if parts.length < nestingLimit then
    pure ((parts.dropLast, ← parts.getLast?), rest)
  else none

/-! ## Numbers -/

/-- Reads digits; single underscores may stand between them. -/
def digitRun (isDigit : Char → Bool) : Nat → Reader (List Char)
  | 0, _ => none
  | fuel + 1, text =>
      match text with
      | c :: rest =>
          if isDigit c then
            let next :=
              match rest with
              | '_' :: d :: more => if isDigit d then some (d :: more) else none
              | d :: more => if isDigit d then some (d :: more) else none
              | [] => none
            match next with
            | none => some ([c], rest)
            | some next =>
                (digitRun isDigit fuel next).map fun (digits, rest) => (c :: digits, rest)
          else none
      | [] => none

/-- Reads decimal digits. -/
def decimalDigits (text : List Char) : Option (List Char × List Char) :=
  digitRun Char.isDigit text.length text

/-- Reads a sign, if there is one; whether it is a minus. -/
def sign : List Char → Bool × List Char
  | '+' :: rest => (false, rest)
  | '-' :: rest => (true, rest)
  | text => (false, text)

/-- Reads the digits of a whole number: a zero stands alone. -/
def wholeDigits (text : List Char) : Option (List Char × List Char) :=
  match text with
  | '0' :: rest => some (['0'], rest)
  | _ => decimalDigits text

/-- Reads a whole number of 64 bits with sign. -/
def wholeNumber (text : List Char) : Option (Int × List Char) := do
  let (value, rest) ←
    match text with
    | '0' :: 'x' :: rest => prefixed 16 isHexDigit rest
    | '0' :: 'o' :: rest => prefixed 8 (fun c => '0' ≤ c && c ≤ '7') rest
    | '0' :: 'b' :: rest => prefixed 2 (fun c => c = '0' || c = '1') rest
    | _ => do
        let (negative, rest) := sign text
        let (digits, rest) ← wholeDigits rest
        let number : Int := ofDigits 10 digits
        pure (if negative then -number else number, rest)
  if Int64.minValue.toInt ≤ value ∧ value ≤ Int64.maxValue.toInt then some (value, rest) else none
where
  /-- Reads the digits behind the letter of a base. -/
  prefixed (base : Nat) (isDigit : Char → Bool) (text : List Char) : Option (Int × List Char) := do
    let (digits, rest) ← digitRun isDigit text.length text
    pure ((ofDigits base digits : Nat), rest)

/-- Reads an exponent. -/
def exponent (text : List Char) : Option (Int × List Char) := do
  let rest ← match text with
    | 'e' :: rest => some rest
    | 'E' :: rest => some rest
    | _ => none
  let (negative, rest) := sign rest
  let (digits, rest) ← decimalDigits rest
  let number : Int := ofDigits 10 digits
  pure (if negative then -number else number, rest)

/-- Whether `digits · 10 ^ exponent` is beyond the largest binary number of 64 bits by at
least half of its last place. Far too large and small exponents are settled by the number of
digits. -/
def isBeyondRange (digits : Nat) (exponent : Int) : Bool :=
  let length : Int := (Nat.toDigits 10 digits).length
  if digits = 0 || length + exponent ≤ 308 then false
  else if 309 < length + exponent then true
  else
    let limit := Nat.pow 2 1024 - Nat.pow 2 970
    if 0 ≤ exponent then limit ≤ digits * Nat.pow 10 exponent.toNat
    else limit * Nat.pow 10 (-exponent).toNat ≤ digits

/-- Skips a number with a fraction, an exponent or both, or one of the names of special
numbers. Positive numbers beyond the range are none. -/
def skipFloat? (text : List Char) : Option (List Char) :=
  let (negative, unsigned) := sign text
  match unsigned with
  | 'i' :: 'n' :: 'f' :: rest => some rest
  | 'n' :: 'a' :: 'n' :: rest => some rest
  | _ => do
      let (whole, rest) ← wholeDigits unsigned
      let fraction :=
        match rest with
        | '.' :: rest => decimalDigits rest
        | _ => none
      let (places, rest) := fraction.getD ([], rest)
      let power := exponent rest
      if fraction.isNone && power.isNone then none
      else
        let (power, rest) := power.getD (0, rest)
        if !negative && isBeyondRange (ofDigits 10 (whole ++ places)) (power - places.length) then
          none
        else pure rest

/-! ## Dates -/

/-- Reads a number of exactly `count` decimal digits within bounds. -/
def fixedNumber (count low high : Nat) (text : List Char) : Option (Nat × List Char) :=
  let digits := text.take count
  let number := ofDigits 10 digits
  if digits.length = count && digits.all Char.isDigit && low ≤ number && number ≤ high then
    some (number, text.drop count)
  else none

/-- Skips a character. -/
def skipChar? (c : Char) : List Char → Option (List Char)
  | first :: rest => if first = c then some rest else none
  | [] => none

/-- The number of days of a month. -/
def daysOfMonth (year month : Nat) : Nat :=
  match month with
  | 2 => if year % 4 = 0 && (year % 100 ≠ 0 || year % 400 = 0) then 29 else 28
  | 4 => 30
  | 6 => 30
  | 9 => 30
  | 11 => 30
  | _ => 31

/-- Skips a day. -/
def skipDay? (text : List Char) : Option (List Char) := do
  let (year, rest) ← fixedNumber 4 0 9999 text
  let (month, rest) ← fixedNumber 2 1 12 (← skipChar? '-' rest)
  let (_, rest) ← fixedNumber 2 1 (daysOfMonth year month) (← skipChar? '-' rest)
  pure rest

/-- Skips a time of day. -/
def skipTime? (text : List Char) : Option (List Char) := do
  let (_, rest) ← fixedNumber 2 0 23 text
  let (_, rest) ← fixedNumber 2 0 59 (← skipChar? ':' rest)
  let (_, rest) ← fixedNumber 2 0 60 (← skipChar? ':' rest)
  match rest with
  | '.' :: c :: rest => if c.isDigit then pure (rest.dropWhile Char.isDigit) else none
  | '.' :: [] => none
  | rest => pure rest

/-- Skips the distance from universal time, if there is one. -/
def skipZone (text : List Char) : List Char :=
  let distance (rest : List Char) : Option (List Char) := do
    let (_, rest) ← fixedNumber 2 0 23 rest
    let (_, rest) ← fixedNumber 2 0 59 (← skipChar? ':' rest)
    pure rest
  match text with
  | 'Z' :: rest => rest
  | 'z' :: rest => rest
  | '+' :: rest => (distance rest).getD text
  | '-' :: rest => (distance rest).getD text
  | text => text

/-- Skips a day with or without a time, or a time alone. -/
def skipDate? (text : List Char) : Option (List Char) :=
  match skipDay? text with
  | none => skipTime? text
  | some rest =>
      match rest with
      | c :: more =>
          if c = 'T' || c = 't' || c = ' ' then
            some (((skipTime? more).map skipZone).getD rest)
          else some rest
      | [] => some []

end Lalr.Toml
