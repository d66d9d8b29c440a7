import Lalr.Pattern.Bracket
import Lalr.Pattern.Program
import Lalr.Text.Word

set_option autoImplicit false

/-!
Reading patterns from their text. The reader is a recursive descent over the characters: a
group is read in one go, with its finished alternatives and the items of the current one
kept aside.
-/

namespace Lalr.Pattern

open Lalr.Text

/-- An item of a pattern as read: how deep its text is nested, and whether it may be repeated,
which flags cannot. -/
structure Piece where
  pattern : Pattern
  depth : Nat
  repeatable : Bool
deriving DecidableEq, Repr

namespace Piece

/-- An item that is nested no further. -/
def flat (pattern : Pattern) : Piece :=
  ⟨pattern, 0, true⟩

/-- Several items as one, one level deeper unless there is just one. -/
def gather (join : List Pattern → Pattern) : List Piece → Piece
  | [] => flat .empty
  | [piece] => piece
  | pieces =>
      let depth := pieces.foldl (fun depth piece => max depth piece.depth) 0
      ⟨join (pieces.map Piece.pattern), depth + 1, true⟩

/-- An item one level deeper. -/
def wrap (piece : Piece) (change : Pattern → Pattern) : Piece :=
  ⟨change piece.pattern, piece.depth + 1, true⟩

end Piece

/-- What is known at a place of a pattern: the flags, the number of captures so far and their
names. -/
structure Scope where
  flags : Flags
  captures : Nat
  names : List (List Char)
deriving DecidableEq, Repr

/-- What has been read of a group: its finished alternatives and the items of the current one,
both with the last one first. -/
structure Progress where
  scope : Scope
  finished : List Piece
  items : List Piece
deriving DecidableEq, Repr

namespace Progress

/-- A group of which nothing has been read. -/
def start (scope : Scope) : Progress :=
  ⟨scope, [], []⟩

/-- The alternative that the current items make up. -/
def alternative (progress : Progress) : Piece :=
  Piece.gather Pattern.concat progress.items.reverse

/-- The whole group. -/
def whole (progress : Progress) : Piece :=
  Piece.gather Pattern.choose (progress.alternative :: progress.finished).reverse

/-- Adds an item. -/
def push (progress : Progress) (piece : Piece) : Progress :=
  { progress with items := piece :: progress.items }

/-- Begins the next alternative. -/
def next (progress : Progress) : Progress :=
  ⟨progress.scope, progress.alternative :: progress.finished, []⟩

/-- Repeats the last item, which must be there. -/
def repeatLast? (progress : Progress) (low : Nat) (high : Option Nat) (marked : Bool) :
    Option Progress :=
  match progress.items with
  | [] => none
  | piece :: items =>
      if piece.repeatable && piece.depth < nestingLimit then
        let greedy := marked == progress.scope.flags.swapGreed
        some { progress with items := piece.wrap (Pattern.repetition low high greedy) :: items }
      else none

end Progress

/-! ## Repetitions -/

/-- Reads a decimal number below 2 to the 32, with white space around it. -/
def number? (flags : Flags) (text : List Char) : Option (Nat × List Char) :=
  let (digits, rest) := flags.collect Char.isDigit false (text.dropWhile isWhiteSpace)
  let value := ofDigits 10 digits
  if digits.isEmpty || UInt32.size ≤ value then none
  else some (value, rest.dropWhile isWhiteSpace)

/-- Reads the bounds of a counted repetition behind its opening brace. -/
def bounds? (flags : Flags) (text : List Char) : Option (Nat × Option Nat × List Char) := do
  let (low, rest) ← number? flags (flags.skip text)
  match rest with
  | '\x7d' :: rest => some (low, some low, rest)
  | ',' :: rest =>
      match flags.skip rest with
      | '\x7d' :: rest => some (low, none, rest)
      | rest =>
          let (high, rest) ← number? flags rest
          match rest with
          | '\x7d' :: rest => if low ≤ high then some (low, some high, rest) else none
          | _ => none
  | _ => none

/-- A question mark behind a repetition marks it. -/
def repetitionMark : List Char → Bool × List Char
  | '?' :: rest => (true, rest)
  | rest => (false, rest)

/-! ## Groups -/

/-- What an opening round bracket introduces: flags for the rest of the enclosing group, or a
group with its own flags that captures or not. -/
inductive Opening where
  | switches (flags : Flags)
  | group (flags : Flags)
  | capture (name : Option (List Char))
deriving DecidableEq, Repr

/-- Characters of the name of a group. -/
def isNameChar (first : Bool) (c : Char) : Bool :=
  c = '_' || if first then isAlphabetic c else c = '.' || c = '[' || c = ']' || isAlphanumeric c

/-- Reads the name of a group, which no earlier group may have. -/
def groupName? (names : List (List Char)) (text : List Char) :
    Option (Opening × List Char) :=
  let name := text.takeWhile (· != '>')
  match name, text.dropWhile (· != '>') with
  | first :: others, _ :: rest =>
      if isNameChar true first && others.all (isNameChar false) && !names.contains name then
        some (.capture (some name), rest)
      else none
  | _, _ => none

/-- Reads what follows an opening round bracket. -/
def opening? (scope : Scope) (text : List Char) : Option (Opening × List Char) :=
  match scope.flags.skip text with
  | '?' :: '=' :: _ => none
  | '?' :: '!' :: _ => none
  | '?' :: '<' :: '=' :: _ => none
  | '?' :: '<' :: '!' :: _ => none
  | '?' :: 'P' :: '<' :: rest => groupName? scope.names rest
  | '?' :: '<' :: rest => groupName? scope.names rest
  | '?' :: rest => do
      let (items, last, rest) ← flagItems? true [] rest
      let flags := scope.flags.switchAll items
      if last = ':' then some (.group flags, rest)
      else if items.isEmpty then none
      else some (.switches flags, rest)
  | text => some (.capture none, text)

/-- The item that a plain character or an escape stands for. -/
def escapePiece (flags : Flags) : Escape → Piece
  | .char c => .flat (flags.char c)
  | .set chars => .flat (Pattern.ofSet chars)
  | .assertion condition => .flat (.assertion condition)

/-- The characters that a dot matches; where only ASCII is known there is no dot. -/
def dot? (flags : Flags) : Option CharRanges :=
  if flags.ascii then none
  else if flags.dotAll then some [(0, CharRanges.lastCode)]
  else if flags.carriage then some (CharRanges.complement [(0xA, 0xA), (0xD, 0xD)])
  else some (CharRanges.complement [(0xA, 0xA)])

/-- The condition of a circumflex. -/
def lineStart (flags : Flags) : Assertion :=
  if !flags.multiLine then .textStart
  else if flags.carriage then .lineStartCarriage
  else .lineStart

/-- The condition of a dollar sign. -/
def lineEnd (flags : Flags) : Assertion :=
  if !flags.multiLine then .textEnd
  else if flags.carriage then .lineEndCarriage
  else .lineEnd

/-- Reads a group up to its closing bracket or the end of the text, at a given depth of
nesting. Each call passes a character, so the length of the text is enough of a budget. -/
def group? : Nat → Nat → Progress → List Char → Option (Piece × Scope × List Char)
  | 0, _, _, _ => none
  | budget + 1, nesting, progress, text =>
      let scope := progress.scope
      let flags := scope.flags
      let item : Piece → List Char → Option (Piece × Scope × List Char) :=
        fun piece rest => group? budget nesting (progress.push piece) rest
      let counted : Nat → Option Nat → List Char → Option (Piece × Scope × List Char) :=
        fun low high rest => do
          let (marked, rest) := repetitionMark rest
          group? budget nesting (← progress.repeatLast? low high marked) rest
      if nestingLimit < nesting then none
      else
        match flags.skip text with
        | [] => some (progress.whole, scope, [])
        | ')' :: rest => some (progress.whole, scope, ')' :: rest)
        | '|' :: rest => group? budget nesting progress.next rest
        | '*' :: rest => counted 0 none rest
        | '+' :: rest => counted 1 none rest
        | '?' :: rest => counted 0 (some 1) rest
        | '\x7b' :: rest => do
            let (low, high, rest) ← bounds? flags rest
            counted low high (flags.skip rest)
        | '(' :: rest => do
            let (opening, rest) ← opening? scope rest
            match opening with
            | .switches flags =>
                let progress := progress.push ⟨.empty, 0, false⟩
                group? budget nesting { progress with scope := { scope with flags := flags } } rest
            | .group inner =>
                let start := Progress.start { scope with flags := inner }
                let (body, after, rest) ← group? budget (nesting + 1) start rest
                match rest with
                | ')' :: rest =>
                    let progress := progress.push (body.wrap id)
                    group? budget nesting
                      { progress with scope := { after with flags := flags } } rest
                | _ => none
            | .capture name =>
                let index := scope.captures + 1
                let start := Progress.start ⟨flags, index, name.toList ++ scope.names⟩
                let (body, after, rest) ← group? budget (nesting + 1) start rest
                match rest with
                | ')' :: rest =>
                    let progress := progress.push (body.wrap (Pattern.capture index))
                    group? budget nesting
                      { progress with scope := { after with flags := flags } } rest
                | _ => none
        | '[' :: rest => do
            let (operand, rest) ← bracket? (nesting + 1) flags rest
            item ⟨Pattern.ofSet operand.chars, operand.depth, true⟩ rest
        | '\\' :: rest => do
            let (escape, rest) ← escape? flags rest
            item (escapePiece flags escape) rest
        | '.' :: rest => do
            item (.flat (Pattern.ofSet (← dot? flags))) rest
        | '^' :: rest => item (.flat (.assertion (lineStart flags))) rest
        | '$' :: rest => item (.flat (.assertion (lineEnd flags))) rest
        | c :: rest => item (.flat (flags.char c)) rest

/-- Reads a whole pattern; `none` if the text is not one. -/
def parse? (text : List Char) : Option Pattern :=
  match group? (text.length + 1) 0 (Progress.start ⟨{}, 0, []⟩) text with
  | some (piece, _, []) => if piece.depth ≤ nestingLimit then some piece.pattern else none
  | _ => none

/-- The automaton of a text that is to match at the start of what is left to read; `none` if
the text is no pattern or its automaton would be too large. -/
def compile? (text : String) : Option Program := do
  let pattern ← parse? ("^(?:".toList ++ text.toList ++ [')'])
  if pattern.isSmall then some pattern.toProgram else none

/-- Characters with a meaning of their own in patterns. -/
def metaCharacters : List Char :=
  ['\\', '.', '+', '*', '?', '(', ')', '|', '[', ']', '\x7b', '\x7d', '^', '$', '#', '&', '-', '~']

/-- The pattern text that matches exactly the given text. -/
def quote (text : String) : String :=
  String.ofList <| text.toList.flatMap fun c =>
    if metaCharacters.contains c then ['\\', c] else [c]

end Lalr.Pattern
