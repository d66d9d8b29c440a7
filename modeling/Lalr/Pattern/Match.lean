import Lalr.Pattern.Program
import Lalr.Text.Property

set_option autoImplicit false

/-!
Matching a text with an automaton. At each place of the text there is a list of threads, the
preferred one first; of threads at the same instruction only the first is kept, since the
others could only repeat what it does.
-/

namespace Lalr

open Lalr.Text

/-- A place reached while matching: the bytes consumed so far, the character before it and
the text from there on. Nothing precedes the start. -/
structure MatchPlace where
  consumed : Nat
  previous : Option Char
  rest : List Char
deriving DecidableEq, Repr

/-- The place behind the next character. -/
def MatchPlace.step (place : MatchPlace) (c : Char) (rest : List Char) : MatchPlace :=
  ⟨place.consumed + c.utf8Size, some c, rest⟩

/-- Whether a character is there and belongs to a word. -/
def isWordAt (ascii : Bool) (c : Option Char) : Bool :=
  c.any fun c => if ascii then Property.asciiWord.contains c else Property.word.contains c

/-- Whether a condition holds at a place. -/
def Assertion.holds (condition : Assertion) (place : MatchPlace) : Bool :=
  let before := place.previous
  let after := place.rest.head?
  match condition with
  | .textStart => before.isNone
  | .textEnd => after.isNone
  | .lineStart => before.isNone || before == some '\n'
  | .lineEnd => after.isNone || after == some '\n'
  | .lineStartCarriage =>
      before.isNone || before == some '\n' || (before == some '\r' && after != some '\n')
  | .lineEndCarriage =>
      after.isNone || after == some '\r' || (after == some '\n' && before != some '\r')
  | .wordBoundary ascii => isWordAt ascii before != isWordAt ascii after
  | .insideWord ascii => isWordAt ascii before == isWordAt ascii after
  | .wordStart ascii => !isWordAt ascii before && isWordAt ascii after
  | .wordEnd ascii => isWordAt ascii before && !isWordAt ascii after
  | .wordStartHalf ascii => !isWordAt ascii before
  | .wordEndHalf ascii => !isWordAt ascii after

/-- A thread that waits for a character: the characters it takes and where it goes on. -/
abbrev Thread := CharRanges × Nat

/-- The threads found so far for a place. -/
structure Sweep where
  /-- For each instruction whether a thread has been there. -/
  visited : Array Bool
  /-- The last one found first. -/
  threads : List Thread
  /-- Whether a thread has accepted; threads behind it do not count. -/
  accepted : Bool

namespace Program

variable (program : Program)

/-- Follows pending addresses to the instructions that consume. Every instruction is followed
once and adds at most two addresses, which bounds the number of steps. -/
def follow (place : MatchPlace) : Nat → List Nat → Sweep → Sweep
  | 0, _, sweep => sweep
  | _, [], sweep => sweep
  | budget + 1, address :: pending, ⟨visited, threads, accepted⟩ =>
      if visited.getD address true then follow place budget pending ⟨visited, threads, accepted⟩
      else
        let visited := visited.setIfInBounds address true
        match program.code[address]? with
        | none => follow place budget pending ⟨visited, threads, accepted⟩
        | some .accept => ⟨visited, threads, true⟩
        | some (.consume chars next) =>
            follow place budget pending ⟨visited, (chars, next) :: threads, accepted⟩
        | some (.check condition next) =>
            if condition.holds place then
              follow place budget (next :: pending) ⟨visited, threads, accepted⟩
            else follow place budget pending ⟨visited, threads, accepted⟩
        | some (.fork first second) =>
            follow place budget (first :: second :: pending) ⟨visited, threads, accepted⟩

/-- Follows a single address. -/
def enter (place : MatchPlace) (address : Nat) (sweep : Sweep) : Sweep :=
  program.follow place (2 * program.code.size + 2) [address] sweep

/-- No threads yet. -/
def noThreads : Sweep :=
  ⟨Array.replicate program.code.size false, [], false⟩

/-- Moves threads over a character, the preferred one first. -/
def advance (place : MatchPlace) (c : Char) : List Thread → Sweep → Sweep
  | [], sweep => sweep
  | (chars, next) :: threads, sweep =>
      if sweep.accepted then sweep
      else if chars.contains c then
        advance place c threads (program.enter place next sweep)
      else advance place c threads sweep

/-- Runs threads to the end of the text; `best` is the last place that was accepted. -/
def run (threads : List Thread) (best : Option MatchPlace) (place : MatchPlace) :
    List Char → Option MatchPlace
  | [] => best
  | c :: rest =>
      match threads with
      | [] => best
      | threads =>
          let place := place.step c rest
          let sweep := program.advance place c threads program.noThreads
          run sweep.threads.reverse (if sweep.accepted then some place else best) place rest

/-- The preferred match in a text: the number of bytes up to its end and the text behind. -/
def match? (text : List Char) : Option (Nat × List Char) :=
  let place : MatchPlace := ⟨0, none, text⟩
  let sweep := program.enter place program.start program.noThreads
  let best := if sweep.accepted then some place else none
  (program.run sweep.threads.reverse best place text).map fun place =>
    (place.consumed, place.rest)

/-- Whether an automaton matches the empty text. -/
def matchesEmpty : Bool :=
  (program.match? []).isSome

end Program

end Lalr
