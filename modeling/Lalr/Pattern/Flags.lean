import Lalr.Text.Blank

set_option autoImplicit false

/-!
Flags that change how the text of a pattern is read. In a verbose pattern white space means
nothing and a number sign starts a comment that ends with its line.
-/

namespace Lalr.Pattern

open Lalr.Text

/-- The flags that hold at a place of a pattern. -/
structure Flags where
  ignoreCase : Bool := false
  /-- Anchors match at every line. -/
  multiLine : Bool := false
  /-- The dot matches a line feed too. -/
  dotAll : Bool := false
  /-- Repetitions are lazy unless marked. -/
  swapGreed : Bool := false
  /-- Classes know ASCII only. -/
  ascii : Bool := false
  /-- A carriage return ends a line too. -/
  carriage : Bool := false
  verbose : Bool := false
deriving DecidableEq, Repr

/-- The letters that switch flags. -/
inductive Flag where
  | ignoreCase
  | multiLine
  | dotAll
  | swapGreed
  | unicode
  | carriage
  | verbose
deriving DecidableEq, Repr

/-- The flag of a letter. -/
def Flag.ofChar? : Char → Option Flag
  | 'i' => some .ignoreCase
  | 'm' => some .multiLine
  | 's' => some .dotAll
  | 'U' => some .swapGreed
  | 'u' => some .unicode
  | 'R' => some .carriage
  | 'x' => some .verbose
  | _ => none

namespace Flags

/-- Switches a flag on or off. -/
def switch (flags : Flags) (flag : Flag) (on : Bool) : Flags :=
  match flag with
  | .ignoreCase => { flags with ignoreCase := on }
  | .multiLine => { flags with multiLine := on }
  | .dotAll => { flags with dotAll := on }
  | .swapGreed => { flags with swapGreed := on }
  | .unicode => { flags with ascii := !on }
  | .carriage => { flags with carriage := on }
  | .verbose => { flags with verbose := on }

/-- Switches several flags in order. -/
def switchAll (flags : Flags) (items : List (Flag × Bool)) : Flags :=
  items.foldl (fun flags item => flags.switch item.1 item.2) flags

/-- Drops white space and comments; `comment` tells whether the text starts in one. -/
def skipBlank : Bool → List Char → List Char
  | _, [] => []
  | true, c :: rest => skipBlank (c != '\n') rest
  | false, c :: rest =>
      if isWhiteSpace c then skipBlank false rest
      else if c = '#' then skipBlank true rest
      else c :: rest

/-- The text from its first character with a meaning on. -/
def skip (flags : Flags) (text : List Char) : List Char :=
  if flags.verbose then skipBlank false text else text

/-- Reads characters while they are of a kind, with whatever has no meaning between and
behind them; `comment` tells whether the text starts in a comment. -/
def collect (flags : Flags) (kind : Char → Bool) : Bool → List Char → List Char × List Char
  | _, [] => ([], [])
  | true, c :: rest => flags.collect kind (c != '\n') rest
  | false, c :: rest =>
      if flags.verbose && isWhiteSpace c then flags.collect kind false rest
      else if flags.verbose && c = '#' then flags.collect kind true rest
      else if kind c then
        let (found, rest) := flags.collect kind false rest
        (c :: found, rest)
      else ([], c :: rest)

/-- The first character of a text that is neither white space nor the first number sign. -/
def peekBlank : Bool → List Char → Option Char
  | _, [] => none
  | marked, c :: rest =>
      if isWhiteSpace c then peekBlank marked rest
      else if !marked && c = '#' then peekBlank true rest
      else some c

/-- The character that decides what the hyphen in front of a text means. A comment hides
nothing but its number sign. -/
def peek (flags : Flags) (text : List Char) : Option Char :=
  if flags.verbose then (peekBlank false text).or text.head? else text.head?

end Flags

/-- Reads flags up to a colon or a closing bracket: letters that switch on, and behind a single
hyphen at least one that switches off. No letter may occur twice. -/
def flagItems? (on : Bool) (items : List (Flag × Bool)) :
    List Char → Option (List (Flag × Bool) × Char × List Char)
  | [] => none
  | c :: rest =>
      if c = ':' || c = ')' then some (items.reverse, c, rest)
      else if c = '-' then
        match rest with
        | next :: _ =>
            if on && next != ':' && next != ')' then flagItems? false items rest else none
        | [] => none
      else
        match Flag.ofChar? c with
        | none => none
        | some flag =>
            if items.any fun item => item.1 = flag then none
            else flagItems? on ((flag, on) :: items) rest

end Lalr.Pattern
