import Lalr.Json.Basic
import Lalr.Json.Number

set_option autoImplicit false

/-!
Reading JSON texts. The members of an object come in ascending order of their names; of
several with one name the last counts. Where something is repeated, `size` bounds how often:
it is the number of characters of the whole text, each repetition takes at least one.
-/

namespace Lalr.Json

open Lalr.Text

/-- Reads something from the start of a text and gives the rest of the text with it. -/
abbrev Reader (α : Type) := List Char → Option (α × List Char)

/-- Blank characters between the parts of a text. -/
def isBlankChar (c : Char) : Bool :=
  c = ' ' || c = '\t' || c = '\n' || c = '\r'

/-- Skips blanks. -/
def skipBlanks (text : List Char) : List Char :=
  text.dropWhile isBlankChar

/-! ## Texts -/

/-- The character that a letter after a backslash stands for. -/
def escapedLetter? : Char → Option Char
  | '"' => some '"'
  | '\\' => some '\\'
  | '/' => some '/'
  | 'b' => some '\x08'
  | 'f' => some '\x0c'
  | 'n' => some '\n'
  | 'r' => some '\r'
  | 't' => some '\t'
  | _ => none

/-- Reads four hexadecimal digits. -/
def unit : Reader Nat
  | a :: b :: c :: d :: rest =>
      if [a, b, c, d].all isHexDigit then some (ofDigits 16 [a, b, c, d], rest) else none
  | _ => none

/-- Reads the character of one number of four hexadecimal digits, or of two surrogates. -/
def unitChar : Reader Char := fun text => do
  let (high, rest) ← unit text
  if 0xD800 ≤ high ∧ high < 0xDC00 then
    match rest with
    | '\\' :: 'u' :: rest => do
        let (low, rest) ← unit rest
        if 0xDC00 ≤ low ∧ low < 0xE000 then
          pure (← charOf? (0x10000 + 0x400 * (high - 0xD800) + (low - 0xDC00)), rest)
        else none
    | _ => none
  else pure (← charOf? high, rest)

/-- Reads what follows a backslash. -/
def escapedChar : Reader Char
  | 'u' :: rest => unitChar rest
  | c :: rest => (escapedLetter? c).map fun c => (c, rest)
  | [] => none

/-- Reads characters up to the closing quotation mark, behind those that were read before,
the last one first. -/
def quotedChars : Nat → List Char → Reader String
  | 0, _, _ => none
  | size + 1, before, text =>
      match text with
      | '"' :: rest => some (String.ofList before.reverse, rest)
      | '\\' :: rest => do
          let (c, rest) ← escapedChar rest
          quotedChars size (c :: before) rest
      | c :: rest => if c < ' ' then none else quotedChars size (c :: before) rest
      | [] => none

/-! ## Numbers -/

/-- Reads at least one digit. -/
def digits (text : List Char) : Option (List Char × List Char) :=
  let found := text.takeWhile Char.isDigit
  if found.isEmpty then none else some (found, text.drop found.length)

/-- Reads the digits before the point; a zero stands alone. -/
def wholeDigits (text : List Char) : Option (List Char × List Char) := do
  let (found, rest) ← digits text
  if found.head? = some '0' ∧ 1 < found.length then none else pure (found, rest)

/-- Reads the digits behind the point, if there is one. -/
def fractionDigits (text : List Char) : Option (Option (List Char) × List Char) :=
  match text with
  | '.' :: rest => (digits rest).map fun (found, rest) => (some found, rest)
  | _ => some (none, text)

/-- Reads the digits of an exponent with their sign. -/
def signedDigits (text : List Char) : Option (Int × List Char) :=
  match text with
  | '-' :: rest => (digits rest).map fun (found, rest) => (-(ofDigits 10 found : Int), rest)
  | '+' :: rest => (digits rest).map fun (found, rest) => ((ofDigits 10 found : Int), rest)
  | _ => (digits text).map fun (found, rest) => ((ofDigits 10 found : Int), rest)

/-- Reads an exponent, if there is one. -/
def exponent (text : List Char) : Option (Option Int × List Char) :=
  match text with
  | 'e' :: rest => (signedDigits rest).map fun (value, rest) => (some value, rest)
  | 'E' :: rest => (signedDigits rest).map fun (value, rest) => (some value, rest)
  | _ => some (none, text)

/-- Reads a numeral. -/
def numeral (text : List Char) : Option (Numeral × List Char) := do
  let (negative, text) :=
    match text with
    | '-' :: rest => (true, rest)
    | _ => (false, text)
  let (whole, rest) ← wholeDigits text
  let (fraction, rest) ← fractionDigits rest
  let (exponent, rest) ← exponent rest
  pure (⟨negative, whole, fraction, exponent⟩, rest)

/-- The value of a numeral: an integer if it can be kept as one. -/
def ofNumeral? (numeral : Numeral) : Option Json :=
  match numeral.toInt? with
  | some value => some (.number value)
  | none => numeral.toFloat?.map .float

/-! ## Values -/

/-- Puts a member into its place among members in ascending order, instead of one with its
name. -/
def insertMember (name : String) (value : Json) :
    List (String × Json) → List (String × Json)
  | [] => [(name, value)]
  | (first, old) :: members =>
      if first < name then (first, old) :: insertMember name value members
      else if first = name then (name, value) :: members
      else (name, value) :: (first, old) :: members

/-- Reads items up to the closing bracket, of which there is at least one, behind those that
were read before, the last one first. -/
def moreItems (item : Reader Json) : Nat → List Json → Reader (List Json)
  | 0, _, _ => none
  | size + 1, before, text => do
      let (value, rest) ← item text
      match skipBlanks rest with
      | ',' :: rest => moreItems item size (value :: before) rest
      | ']' :: rest => pure ((value :: before).reverse, rest)
      | _ => none

/-- Reads the items of an array behind its opening bracket. -/
def items (item : Reader Json) (size : Nat) (text : List Char) :
    Option (List Json × List Char) :=
  match skipBlanks text with
  | ']' :: rest => some ([], rest)
  | text => moreItems item size [] text

/-- Reads a name, a colon and a value. -/
def member (item : Reader Json) (size : Nat) (text : List Char) :
    Option ((String × Json) × List Char) := do
  match skipBlanks text with
  | '"' :: rest => do
      let (name, rest) ← quotedChars size [] rest
      match skipBlanks rest with
      | ':' :: rest => do
          let (value, rest) ← item rest
          pure ((name, value), rest)
      | _ => none
  | _ => none

/-- Reads members up to the closing brace, of which there is at least one, and adds them to
those that were read before. -/
def moreMembers (item : Reader Json) : Nat → List (String × Json) → Reader (List (String × Json))
  | 0, _, _ => none
  | size + 1, before, text => do
      let ((name, value), rest) ← member item (size + 1) text
      let members := insertMember name value before
      match skipBlanks rest with
      | ',' :: rest => moreMembers item size members rest
      | '\x7d' :: rest => pure (members, rest)
      | _ => none

/-- Reads the members of an object behind its opening brace. -/
def members (item : Reader Json) (size : Nat) (text : List Char) :
    Option (List (String × Json) × List Char) :=
  match skipBlanks text with
  | '\x7d' :: rest => some ([], rest)
  | text => moreMembers item size [] text

/-- Reads a value with at most `depth` levels of arrays and objects. -/
def value (size : Nat) : Nat → Reader Json := fun depth text =>
  match skipBlanks text with
  | '[' :: rest =>
      match depth with
      | 0 => none
      | depth + 1 =>
          (items (value size depth) size rest).map fun (items, rest) => (.array items, rest)
  | '\x7b' :: rest =>
      match depth with
      | 0 => none
      | depth + 1 =>
          (members (value size depth) size rest).map fun (members, rest) =>
            (.object members, rest)
  | '"' :: rest => (quotedChars size [] rest).map fun (text, rest) => (.string text, rest)
  | 't' :: 'r' :: 'u' :: 'e' :: rest => some (.bool true, rest)
  | 'f' :: 'a' :: 'l' :: 's' :: 'e' :: rest => some (.bool false, rest)
  | 'n' :: 'u' :: 'l' :: 'l' :: rest => some (.null, rest)
  | text => do
      let (numeral, rest) ← numeral text
      pure (← ofNumeral? numeral, rest)

/-- How deep arrays and objects may be nested. -/
def nestingLimit : Nat := 127

/-- Reads a whole text as a value. -/
def parse? (text : List Char) : Option Json := do
  let (result, rest) ← value text.length nestingLimit text
  if (skipBlanks rest).isEmpty then some result else none

end Lalr.Json
