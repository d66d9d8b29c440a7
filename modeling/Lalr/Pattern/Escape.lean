import Lalr.Pattern.Basic
import Lalr.Pattern.Flags
import Lalr.Text.CaseFold
import Lalr.Text.Digits
import Lalr.Text.Property

set_option autoImplicit false

/-!
What a backslash and the characters behind it stand for in a pattern.
-/

namespace Lalr.Pattern

open Lalr.Text

/-- The meaning of an escape, or of a plain character. -/
inductive Escape where
  | char (c : Char)
  | set (chars : CharRanges)
  | assertion (condition : Assertion)
deriving DecidableEq, Repr

/-- The set with every character that equals a member but for its case, where case is to be
ignored. -/
def Flags.fold (flags : Flags) (chars : CharRanges) : CharRanges :=
  if !flags.ignoreCase then chars
  else if flags.ascii then chars.foldAscii
  else chars.foldCase

/-- The set or its complement. Among ASCII characters there is no complement. -/
def Flags.negate? (flags : Flags) (negated : Bool) (chars : CharRanges) : Option CharRanges :=
  if !negated then some chars
  else if flags.ascii then none
  else some chars.complement

/-- The pattern of a single character. -/
def Flags.char (flags : Flags) (c : Char) : Pattern :=
  ofSet (flags.fold (.single c.toNat))

/-- Characters that mean themselves behind a backslash: all of ASCII but letters, digits and
angle brackets. -/
def isEscapable (c : Char) : Bool :=
  c.toNat < 0x80 && !c.isAlphanum && c != '<' && c != '>'

/-- The character that a letter behind a backslash names. -/
def controlEscape? : Char → Option Char
  | 'a' => some '\x07'
  | 'f' => some '\x0c'
  | 'n' => some '\n'
  | 'r' => some '\r'
  | 't' => some '\t'
  | 'v' => some '\x0b'
  | _ => none

/-- The class that a letter behind a backslash names. -/
def classEscape? (flags : Flags) : Char → Option CharRanges
  | 'd' | 'D' => some (if flags.ascii then Property.asciiDigit else Property.decimalNumber)
  | 's' | 'S' => some (if flags.ascii then Property.asciiSpace else whiteSpace)
  | 'w' | 'W' => some (if flags.ascii then Property.asciiWord else Property.word)
  | _ => none

/-- Reads a given number of digits. -/
def hexDigits? (flags : Flags) : Nat → List Char → Option (List Char × List Char)
  | 0, text => some ([], text)
  | _, [] => none
  | count + 1, c :: rest =>
      if isHexDigit c then
        (hexDigits? flags count (flags.skip rest)).map fun found => (c :: found.1, found.2)
      else none

/-- Reads a code point with a fixed number of digits, or in braces. Two digits stand for a
byte where only ASCII is known, and a byte beyond ASCII is no character. -/
def hexEscape? (flags : Flags) (count : Nat) (text : List Char) : Option (Char × List Char) := do
  match flags.skip text with
  | '\x7b' :: rest =>
      let (digits, rest) := flags.collect isHexDigit false rest
      match rest with
      | '\x7d' :: rest => pure (← hexChar? digits, flags.skip rest)
      | _ => none
  | text =>
      let (digits, rest) ← hexDigits? flags count text
      let c ← hexChar? digits
      if count = 2 && flags.ascii && 0x80 ≤ c.toNat then none else pure (c, rest)

/-- What is before and behind a separator in a text. -/
def splitAt? (separator : List Char) : List Char → Option (List Char × List Char)
  | [] => none
  | c :: rest =>
      if separator.isPrefixOf (c :: rest) then some ([], (c :: rest).drop separator.length)
      else (splitAt? separator rest).map fun parts => (c :: parts.1, parts.2)

/-- The set of characters that a property in braces describes, by its name or by a name and a
value. -/
def propertySet? (name : List Char) : Option CharRanges :=
  match ((splitAt? ['!', '='] name).or (splitAt? [':'] name)).or (splitAt? ['='] name) with
  | some (name, value) => Property.valued? name value
  | none => Property.named? name

/-- Reads a property: one letter, or a name in braces. -/
def propertyEscape? (flags : Flags) (negated : Bool) (text : List Char) :
    Option (CharRanges × List Char) := do
  let (name, rest) ←
    match flags.skip text with
    | '\x7b' :: rest =>
        let (name, rest) := flags.collect (· != '\x7d') false rest
        match rest with
        | '\x7d' :: rest => some (name, rest)
        | _ => none
    | c :: rest => if c = '\\' then none else some ([c], flags.skip rest)
    | [] => none
  if flags.ascii then none
  else
    let chars ← flags.negate? negated (flags.fold (← propertySet? name))
    pure (chars, rest)

/-- Reads what is behind the `b` of a word boundary. A brace opens the name of a special
boundary if a letter or a hyphen follows it. -/
def boundary? (flags : Flags) (text : List Char) : Option (Assertion × List Char) :=
  let plain := some (.wordBoundary flags.ascii, text)
  match text with
  | '\x7b' :: rest =>
      let isNameChar := fun (c : Char) => c.isAlpha || c = '-'
      let (name, after) := flags.collect isNameChar false rest
      match name, after with
      | [], [] => none
      | [], _ => plain
      | name, '\x7d' :: after =>
          match String.ofList name with
          | "start" => some (.wordStart flags.ascii, after)
          | "end" => some (.wordEnd flags.ascii, after)
          | "start-half" => some (.wordStartHalf flags.ascii, after)
          | "end-half" => some (.wordEndHalf flags.ascii, after)
          | _ => none
      | _, _ => none
  | _ => plain

/-- Reads the rest of an escape. -/
def escape? (flags : Flags) : List Char → Option (Escape × List Char)
  | [] => none
  | 'p' :: rest => (propertyEscape? flags false rest).map fun found => (.set found.1, found.2)
  | 'P' :: rest => (propertyEscape? flags true rest).map fun found => (.set found.1, found.2)
  | 'x' :: rest => (hexEscape? flags 2 rest).map fun found => (.char found.1, found.2)
  | 'u' :: rest => (hexEscape? flags 4 rest).map fun found => (.char found.1, found.2)
  | 'U' :: rest => (hexEscape? flags 8 rest).map fun found => (.char found.1, found.2)
  | 'b' :: rest => (boundary? flags rest).map fun found => (.assertion found.1, found.2)
  | 'B' :: rest => some (.assertion (.insideWord flags.ascii), rest)
  | '<' :: rest => some (.assertion (.wordStart flags.ascii), rest)
  | '>' :: rest => some (.assertion (.wordEnd flags.ascii), rest)
  | 'A' :: rest => some (.assertion .textStart, rest)
  | 'z' :: rest => some (.assertion .textEnd, rest)
  | c :: rest =>
      if isEscapable c then some (.char c, rest)
      else
        match classEscape? flags c, controlEscape? c with
        | some chars, _ => (flags.negate? c.isUpper chars).map fun chars => (.set chars, rest)
        | none, some control => some (.char control, rest)
        | none, none => none

end Lalr.Pattern
