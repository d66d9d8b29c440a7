import Lalr.Pattern.Basic

set_option autoImplicit false

/-!
The automaton of a pattern, as a program: its instructions either consume a character, check
the place, or try two ways in order. All ways are followed side by side, so matching takes
time proportional to the lengths of the program and the text. A pattern whose automaton would take
more than ten mebibytes is refused, so counted repetitions cannot grow without limit. Room is
counted in bytes: 32 for a state, 8 for each range that leaves it, and 4 for each way out of
a choice; characters are read byte by byte.
-/

namespace Lalr

open Lalr.Text

/-- A step of an automaton, with the addresses where it goes on. -/
inductive Instruction where
  | accept
  | consume (chars : CharRanges) (next : Nat)
  | check (condition : Assertion) (next : Nat)
  /-- The first way is preferred. -/
  | fork (first second : Nat)
deriving DecidableEq, Repr

/-- An automaton with the address of its first step. -/
structure Program where
  code : Array Instruction
  start : Nat
deriving DecidableEq, Repr

/-- Writes the instructions of an automaton, those that come last first. -/
abbrev Assembler := StateM (Array Instruction)

namespace Assembler

/-- Adds an instruction and answers its address. -/
def emit (instruction : Instruction) : Assembler Nat :=
  modifyGet fun code => (code.size, code.push instruction)

/-- Adds a fork that enters a repeated part or leaves it. -/
def fork (greedy : Bool) (enter leave : Nat) : Assembler Nat :=
  emit (if greedy then .fork enter leave else .fork leave enter)

/-- Repeats a part at least once; answers the start of the part and the fork behind it. -/
def loop (greedy : Bool) (part : Nat → Assembler Nat) (next : Nat) : Assembler (Nat × Nat) := do
  let fork ← emit .accept
  let start ← part fork
  let jump := if greedy then Instruction.fork start next else .fork next start
  modify fun code => code.setIfInBounds fork jump
  pure (start, fork)

/-- Writes a part a number of times, each in front of the one before. -/
def chain (part : Nat → Assembler Nat) : Nat → Nat → Assembler Nat
  | 0, next => pure next
  | count + 1, next => do
      let next ← part next
      chain part count next

end Assembler

open Assembler in
/-- Writes the automaton of a pattern in front of an address and answers where it starts. A
repeated part that can match the empty text is entered again only behind itself, so that its
rounds are tried in the order of preference. -/
def Pattern.assemble : Pattern → Nat → Assembler Nat
  | .empty, next => pure next
  | .literal text, next =>
      text.reverse.foldlM (fun next c => emit (.consume (.single c.toNat) next)) next
  | .set chars, next => emit (.consume chars next)
  | .assertion condition, next => emit (.check condition next)
  | .capture _ body, next => body.assemble next
  | .sequence first rest, next => do
      let next ← rest.assemble next
      first.assemble next
  | .choice first rest, next => do
      let second ← rest.assemble next
      let first ← first.assemble next
      emit (.fork first second)
  | .repeated low none greedy body, next => do
      let (start, again) ← loop greedy (fun next => body.assemble next) next
      if low = 0 then if body.neverEmpty then pure again else fork greedy start next
      else chain (fun next => body.assemble next) (low - 1) start
  | .repeated low (some high) greedy body, next => do
      let attempt := fun more => do
        let start ← body.assemble more
        fork greedy start next
      let start ← chain attempt (high - low) next
      chain (fun next => body.assemble next) low start

/-- The automaton of a pattern. One that may match anywhere first skips as few characters as
it can. -/
def Pattern.toProgram (pattern : Pattern) : Program :=
  let whole :=
    if pattern.isAnchored then pattern
    else .sequence (.repeated 0 none false (.set [(0, CharRanges.lastCode)])) pattern
  let assembled := (do whole.assemble (← Assembler.emit .accept)).run #[]
  ⟨assembled.2, assembled.1⟩

/-! ## The room that an automaton takes -/

/-- The bytes that may stand at one place of an encoded character, both ends included. -/
abbrev ByteRange := Nat × Nat

namespace Text.CharRanges

/-- The bytes of a code point in UTF-8. -/
def utf8Bytes (code : Nat) : List Nat :=
  if code < 0x80 then [code]
  else if code < 0x800 then [0xC0 + code / 0x40, 0x80 + code % 0x40]
  else if code < 0x10000 then
    [0xE0 + code / 0x1000, 0x80 + code / 0x40 % 0x40, 0x80 + code % 0x40]
  else
    [0xF0 + code / 0x40000, 0x80 + code / 0x1000 % 0x40, 0x80 + code / 0x40 % 0x40,
      0x80 + code % 0x40]

/-- Cuts a range where the block of `size` code points around one of its ends is not wholly
inside, unless the range lies within a single block. -/
def cutBlocks (size first last : Nat) : CharRanges :=
  if first / size = last / size then [(first, last)]
  else
    let inner := (first + size - 1) / size * size
    let outer := (last + 1) / size * size
    (if first < inner then [(first, inner - 1)] else []) ++
      (if inner < outer then [(inner, outer - 1)] else []) ++
      (if outer ≤ last then [(outer, last)] else [])

/-- Cuts a range of characters with encodings of one length until the encodings of each part
are all those with bytes in given ranges. -/
def cutSequences (range : Nat × Nat) : CharRanges :=
  if range.2 < 0x80 then [range]
  else
    [0x40, 0x1000, 0x40000].foldl
      (fun ranges size => ranges.flatMap fun part => cutBlocks size part.1 part.2) [range]

/-- The ranges of characters whose encodings have one length; surrogates have none. -/
def encodable : CharRanges :=
  [(0, 0x7F), (0x80, 0x7FF), (0x800, 0xD7FF), (0xE000, 0xFFFF), (0x10000, 0x10FFFF)]

/-- The encodings of a set, as sequences of byte ranges in ascending order. -/
def byteSequences (ranges : CharRanges) : List (List ByteRange) :=
  ((ranges.intersection encodable).flatMap cutSequences).map fun range =>
    (utf8Bytes range.1).zip (utf8Bytes range.2)

/-- The length of what two lists begin with together. -/
def sharedLength : List ByteRange → List ByteRange → Nat
  | left :: lefts, right :: rights => if left = right then sharedLength lefts rights + 1 else 0
  | _, _ => 0

/-- The number of byte ranges in a tree of sequences in order, where sequences share what they
begin with. -/
def treeSize (before : List ByteRange) : List (List ByteRange) → Nat
  | [] => 0
  | sequence :: rest =>
      sequence.length - sharedLength before sequence + treeSize sequence rest

/-- The room that a set of characters takes. -/
def weight (ranges : CharRanges) : Nat :=
  if ranges.isAscii then if ranges.length = 1 then 64 else 64 + 8 * ranges.length
  else
    let sequences := byteSequences ranges
    64 + 4 * sequences.length + 32 * treeSize [] sequences

end Text.CharRanges

namespace Pattern

/-- Whether a pattern is a choice. -/
def isChoice : Pattern → Bool
  | choice _ _ => true
  | _ => false

/-- The room that a pattern takes. Each part of a counted repetition counts as often as it is
repeated. -/
def weight : Pattern → Nat
  | empty => 32
  | literal text => 32 * utf8Length text
  | set chars => CharRanges.weight chars
  | assertion _ => 32
  | capture _ body => 64 + body.weight
  | sequence first rest => first.weight + rest.weight
  | choice first rest => first.weight + rest.weight + if rest.isChoice then 4 else 72
  | repeated low high _ body =>
      let room := body.weight
      match high with
      | none =>
          if low = 0 then if body.neverEmpty then room + 40 else room + 112
          else low * room + 40
      | some high =>
          if low = high then low * room
          else if low = 0 && high = 1 then room + 72
          else (if low = 0 then 32 else low * room) + 32 + (high - low) * (room + 40)

/-- The room that is left for an automaton, without its start and its end. -/
def weightLimit : Nat :=
  10 * 1024 * 1024 - 128

/-- Whether the automaton of a pattern is small enough. -/
def isSmall (pattern : Pattern) : Bool :=
  pattern.weight ≤ weightLimit

end Pattern

end Lalr
