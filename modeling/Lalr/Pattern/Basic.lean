import Lalr.Text.Ranges
import Lalr.Text.Utf8

set_option autoImplicit false

/-!
Patterns of tokens. A pattern is built by operations that bring it into a normal form:
sequences and choices are nested to the right and hold no empty parts, neighbouring
literals are one, and alternatives share what all of them begin with. The order of
alternatives counts, since the first way to match is the one that is taken.
-/

namespace Lalr

open Lalr.Text

/-- Conditions on a place that consume nothing. Those on words know only ASCII characters
of words where `ascii` is set. -/
inductive Assertion where
  | textStart
  | textEnd
  | lineStart
  | lineEnd
  /-- As `lineStart`, where a carriage return ends a line too. -/
  | lineStartCarriage
  | lineEndCarriage
  | wordBoundary (ascii : Bool)
  | insideWord (ascii : Bool)
  | wordStart (ascii : Bool)
  | wordEnd (ascii : Bool)
  /-- Only what is before the place counts. -/
  | wordStartHalf (ascii : Bool)
  /-- Only what is behind the place counts. -/
  | wordEndHalf (ascii : Bool)
deriving DecidableEq, Repr

/-- A pattern. A repetition that is greedy prefers another round, a lazy one prefers to stop.
Groups that capture are told apart by their index. -/
inductive Pattern where
  | empty
  | literal (text : List Char)
  | set (chars : CharRanges)
  | assertion (condition : Assertion)
  | capture (index : Nat) (body : Pattern)
  | sequence (first rest : Pattern)
  | choice (first rest : Pattern)
  | repeated (low : Nat) (high : Option Nat) (greedy : Bool) (body : Pattern)
deriving DecidableEq, Repr

namespace Pattern

/-- Whether a pattern consumes nothing whatever it matches. -/
def alwaysEmpty : Pattern → Bool
  | empty => true
  | literal text => text.isEmpty
  | set _ => false
  | assertion _ => true
  | capture _ body => body.alwaysEmpty
  | sequence first rest => first.alwaysEmpty && rest.alwaysEmpty
  | choice first rest => first.alwaysEmpty && rest.alwaysEmpty
  | repeated _ high _ body => high.isSome && body.alwaysEmpty

/-- Whether a pattern consumes something whatever it matches. -/
def neverEmpty : Pattern → Bool
  | empty => false
  | literal text => !text.isEmpty
  | set chars => !chars.isEmpty
  | assertion _ => false
  | capture _ body => body.neverEmpty
  | sequence first rest => first.neverEmpty || rest.neverEmpty
  | choice first rest => first.neverEmpty && rest.neverEmpty
  | repeated low _ _ body => 0 < low && body.neverEmpty

/-- Whether a pattern matches only at the start of a text. -/
def isAnchored : Pattern → Bool
  | assertion condition => condition = .textStart
  | capture _ body => body.isAnchored
  | sequence first rest => first.isAnchored || (first.alwaysEmpty && rest.isAnchored)
  | choice first rest => first.isAnchored && rest.isAnchored
  | repeated low _ _ body => 0 < low && body.isAnchored
  | _ => false

/-- The pattern of a set of characters; a single character is a literal. -/
def ofSet (chars : CharRanges) : Pattern :=
  match chars with
  | [(first, last)] => if first = last then literal [Char.ofNat first] else set chars
  | _ => set chars

/-- The characters that a pattern matches, if it is a set or a single character. -/
def toSet? : Pattern → Option CharRanges
  | literal [c] => some (.single c.toNat)
  | set chars => some chars
  | _ => none

/-- The parts of a sequence. -/
def parts : Pattern → List Pattern
  | empty => []
  | sequence first rest => first :: rest.parts
  | pattern => [pattern]

/-- The sequence with given parts. -/
def ofParts : List Pattern → Pattern
  | [] => empty
  | [part] => part
  | part :: rest => sequence part (ofParts rest)

/-- Joins neighbouring literals. -/
def joinLiterals : List Pattern → List Pattern
  | [] => []
  | part :: rest =>
      match part, joinLiterals rest with
      | literal text, literal more :: others => literal (text ++ more) :: others
      | part, others => part :: others

/-- One pattern after the other. -/
def concat (patterns : List Pattern) : Pattern :=
  ofParts (joinLiterals (patterns.flatMap parts))

/-- The alternatives of a choice. -/
def alternatives : Pattern → List Pattern
  | choice first rest => first :: rest.alternatives
  | pattern => [pattern]

/-- The choice between given alternatives; without any, nothing matches. -/
def ofAlternatives : List Pattern → Pattern
  | [] => set []
  | [alternative] => alternative
  | alternative :: rest => choice alternative (ofAlternatives rest)

/-- The longest list that both lists begin with. -/
def commonStart : List Pattern → List Pattern → List Pattern
  | left :: lefts, right :: rights => if left = right then left :: commonStart lefts rights else []
  | _, _ => []

/-- The parts that all of several sequences begin with; an alternative that is no sequence
of at least two parts shares none. -/
def sharedParts : List Pattern → List Pattern
  | [] => []
  | [pattern] => if pattern.parts.length < 2 then [] else pattern.parts
  | pattern :: rest =>
      if pattern.parts.length < 2 then [] else commonStart pattern.parts (sharedParts rest)

/-- The choice between alternatives, where at most `limit` times what all of them begin with
is taken out. -/
def chooseWithin : Nat → List Pattern → Pattern
  | limit, patterns =>
      let all := patterns.flatMap alternatives
      if all.length < 2 then ofAlternatives all
      else
        match all.mapM toSet? with
        | some sets => ofSet (.unions sets)
        | none =>
            match limit, sharedParts all with
            | 0, _ => ofAlternatives all
            | _, [] => ofAlternatives all
            | limit + 1, shared =>
                let rests := all.map fun pattern => concat (pattern.parts.drop shared.length)
                concat (shared ++ [chooseWithin limit rests])

/-- The choice between alternatives. Taking out a shared part shortens each of them, so the
parts of the first bound how often that happens. -/
def choose (patterns : List Pattern) : Pattern :=
  chooseWithin ((patterns.flatMap alternatives).headD empty).parts.length patterns

/-- A pattern repeated at least `low` and at most `high` times, or without an upper bound.
Repeating what consumes nothing more than once changes nothing. -/
def repetition (low : Nat) (high : Option Nat) (greedy : Bool) (body : Pattern) : Pattern :=
  let (low, high) :=
    if body.alwaysEmpty then (min low 1, some (high.elim 1 (min · 1))) else (low, high)
  if high = some 0 then empty
  else if low = 1 && high = some 1 then body
  else repeated low high greedy body

end Pattern

end Lalr
