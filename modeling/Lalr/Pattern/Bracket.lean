import Lalr.Pattern.Escape

set_option autoImplicit false

/-!
Sets of characters in square brackets. Brackets may be nested, and two sets may be combined
by an operator; operators group to the left.
-/

namespace Lalr.Pattern

open Lalr.Text

/-- How deep the text of a pattern may be nested. -/
def nestingLimit : Nat := 250

/-- Operators between sets. -/
inductive SetOperator where
  | intersection
  | difference
  | symmetricDifference
deriving DecidableEq, Repr

/-- A set as read, and how deep its text is nested. -/
structure Operand where
  chars : CharRanges
  depth : Nat
deriving DecidableEq, Repr

/-- Combines two sets; where case is ignored, that of their members is too. -/
def SetOperator.apply (flags : Flags) (operator : SetOperator) (left right : Operand) : Operand :=
  let one := flags.fold left.chars
  let other := flags.fold right.chars
  let chars :=
    match operator with
    | .intersection => one.intersection other
    | .difference => one.difference other
    | .symmetricDifference => one.symmetricDifference other
  ⟨chars, max left.depth right.depth + 1⟩

/-- Combines a set with what was read before it. -/
def SetOperator.join (flags : Flags) : Option (Operand × SetOperator) → Operand → Operand
  | none, right => right
  | some (left, operator), right => operator.apply flags left right

/-- The members of a set read so far, with the depth of the deepest of them. -/
structure Members where
  chars : CharRanges
  count : Nat
  depth : Nat
deriving DecidableEq, Repr

namespace Members

/-- Without members. -/
def none : Members := ⟨[], 0, 0⟩

/-- Adds a member. -/
def add (members : Members) (chars : CharRanges) (depth : Nat) : Members :=
  ⟨members.chars.union chars, members.count + 1, max members.depth depth⟩

/-- The members as one set. Several members are nested one level deeper. -/
def operand (members : Members) : Operand :=
  ⟨members.chars, if members.count < 2 then members.depth else members.depth + 1⟩

end Members

/-- The ASCII class with a given name. -/
def asciiClass? : String → Option CharRanges
  | "alnum" => some [(0x30, 0x39), (0x41, 0x5A), (0x61, 0x7A)]
  | "alpha" => some [(0x41, 0x5A), (0x61, 0x7A)]
  | "ascii" => some [(0, 0x7F)]
  | "blank" => some [(0x9, 0x9), (0x20, 0x20)]
  | "cntrl" => some [(0, 0x1F), (0x7F, 0x7F)]
  | "digit" => some Property.asciiDigit
  | "graph" => some [(0x21, 0x7E)]
  | "lower" => some [(0x61, 0x7A)]
  | "print" => some [(0x20, 0x7E)]
  | "punct" => some [(0x21, 0x2F), (0x3A, 0x40), (0x5B, 0x60), (0x7B, 0x7E)]
  | "space" => some Property.asciiSpace
  | "upper" => some [(0x41, 0x5A)]
  | "word" => some Property.asciiWord
  | "xdigit" => some [(0x30, 0x39), (0x41, 0x46), (0x61, 0x66)]
  | _ => none

/-- Reads a named ASCII class behind the bracket that opens it; `none` if there is no such
class, so that the bracket opens a nested set. -/
def namedClass? (text : List Char) : Option ((Bool × CharRanges) × List Char) :=
  match text with
  | ':' :: rest =>
      let (negated, rest) :=
        match rest with
        | '^' :: rest => (true, rest)
        | rest => (false, rest)
      match rest.dropWhile (· != ':') with
      | ':' :: ']' :: after =>
          (asciiClass? (String.ofList (rest.takeWhile (· != ':')))).map fun chars =>
            ((negated, chars), after)
      | _ => none
  | _ => none

/-- Reads one member: a plain character, or an escape. -/
def classItem? (flags : Flags) : List Char → Option (Escape × List Char)
  | [] => none
  | '\\' :: rest => escape? flags rest
  | c :: rest => some (.char c, rest)

/-- The code point of a character that may be a member. -/
def memberCode? (flags : Flags) (c : Char) : Option Nat :=
  if flags.ascii && 0x80 ≤ c.toNat then none else some c.toNat

/-- The set of a single member. -/
def memberSet? (flags : Flags) : Escape → Option CharRanges
  | .char c => (memberCode? flags c).map CharRanges.single
  | .set chars => some chars
  | .assertion _ => none

/-- The set of the characters from one to another. -/
def rangeSet? (flags : Flags) : Escape → Escape → Option CharRanges
  | .char first, .char last => do
      let first ← memberCode? flags first
      let last ← memberCode? flags last
      if first ≤ last then some [(first, last)] else none
  | _, _ => none

/-- Reads a member, or a range between two characters. A hyphen in front of the closing
bracket or of another hyphen opens no range. -/
def classRange? (flags : Flags) (text : List Char) : Option (CharRanges × List Char) := do
  let (first, rest) ← classItem? flags text
  match flags.skip rest with
  | [] => none
  | '-' :: after =>
      let next := flags.peek after
      if next = some ']' || next = some '-' then pure (← memberSet? flags first, '-' :: after)
      else
        let (last, after) ← classItem? flags (flags.skip after)
        pure (← rangeSet? flags first last, after)
  | rest => pure (← memberSet? flags first, rest)

/-- Reads what opens a set: a circumflex that negates it, and hyphens, or a closing bracket as
the first character, that stand for themselves. -/
def openSet (flags : Flags) (text : List Char) : Bool × Members × List Char :=
  let (negated, text) :=
    match flags.skip text with
    | '^' :: rest => (true, flags.skip rest)
    | text => (false, text)
  let (hyphens, rest) := flags.collect (· == '-') false text
  let members := hyphens.foldl (fun members c => members.add (.single c.toNat) 0) Members.none
  match hyphens, rest with
  | [], ']' :: rest => (negated, members.add (.single ']'.toNat) 0, flags.skip rest)
  | _, rest => (negated, members, rest)

/-- Reads members up to the closing bracket. `before` holds the set to the left of an
operator, `members` what has been read since. Each call passes a character, so the length
of the text is enough of a budget. -/
def classMembers? : Nat → Nat → Flags → Option (Operand × SetOperator) → Members → List Char →
    Option (Operand × List Char)
  | 0, _, _, _, _, _ => none
  | budget + 1, nesting, flags, before, members, text =>
      if nestingLimit < nesting then none
      else
        let combine := fun operator rest =>
          classMembers? budget nesting flags
            (some (SetOperator.join flags before members.operand, operator)) Members.none rest
        match flags.skip text with
        | [] => none
        | ']' :: rest => some (SetOperator.join flags before members.operand, rest)
        | '[' :: rest =>
            match namedClass? rest with
            | some ((negated, chars), rest) => do
                let chars ← flags.negate? negated (flags.fold chars)
                classMembers? budget nesting flags before (members.add chars 0) rest
            | none => do
                let (negated, start, rest) := openSet flags rest
                let (inner, rest) ← classMembers? budget (nesting + 1) flags none start rest
                let chars ← flags.negate? negated (flags.fold inner.chars)
                classMembers? budget nesting flags before (members.add chars (inner.depth + 1))
                  rest
        | '&' :: '&' :: rest => combine .intersection rest
        | '-' :: '-' :: rest => combine .difference rest
        | '~' :: '~' :: rest => combine .symmetricDifference rest
        | text => do
            let (chars, rest) ← classRange? flags text
            classMembers? budget nesting flags before (members.add chars 0) rest

/-- Reads a set behind its opening bracket, at a given depth of nesting. -/
def bracket? (nesting : Nat) (flags : Flags) (text : List Char) :
    Option (Operand × List Char) := do
  let (negated, start, rest) := openSet flags text
  let (operand, rest) ← classMembers? (rest.length + 1) nesting flags none start rest
  let chars ← flags.negate? negated (flags.fold operand.chars)
  pure (⟨chars, operand.depth + 1⟩, rest)

end Lalr.Pattern
