import Lalr.Parser.Config
import Lalr.Parser.Lexeme
import Lalr.Tree.Edit

set_option autoImplicit false

/-!
The state of a parse: a stack of subtrees with the states of the automaton, the token
to be dealt with, and the place up to which the text has been read.
-/

namespace Lalr

open Lalr.Text

/-- A subtree on the stack. -/
structure StackEntry where
  /-- The state behind the subtree; extras keep the state below them. -/
  state : StateId
  subtree : Subtree
  /-- The offset of the blank space before the subtree. -/
  start : Nat
  /-- The length of the subtree, so that it is measured only once. -/
  length : Nat
  length_eq : length = subtree.length
deriving Repr

namespace StackEntry

/-- A subtree measured as it is put on the stack. -/
def ofSubtree (state : StateId) (subtree : Subtree) (start : Nat) : StackEntry :=
  ⟨state, subtree, start, subtree.length, rfl⟩

/-- The length of the subtrees of several entries. -/
def totalLength : List StackEntry → Nat
  | [] => 0
  | entry :: entries => entry.length + totalLength entries

theorem totalLength_eq (entries : List StackEntry) :
    totalLength entries = Subtree.lengths (entries.map StackEntry.subtree) := by
  induction entries with
  | nil => rfl
  | cons entry entries ih =>
      simp only [totalLength, List.map_cons, Subtree.lengths, ih, entry.length_eq]

/-- A node made of the subtrees of several entries, measured by their lengths. -/
def ofEntries (state : StateId) (head : NodeHead) (entries : List StackEntry) (start : Nat) :
    StackEntry :=
  ⟨state, .node head (entries.map StackEntry.subtree), start, totalLength entries, by
    rw [totalLength_eq, Subtree.length]⟩

/-- Where the subtree ends. -/
def finish (entry : StackEntry) : Nat :=
  entry.start + entry.length

/-- Extras do not count for the automaton. -/
def isExtra (entry : StackEntry) : Bool :=
  entry.subtree.isExtra

end StackEntry

/-- What stays the same during a parse. -/
structure ParseInput where
  language : Language
  text : List Char
  config : ParseConfig
  /-- The subtrees of an old tree that may be taken over. -/
  reuse : ReuseIndex

/-- What changes during a parse. -/
structure ParseState where
  /-- The top of the stack comes first. -/
  stack : List StackEntry
  lookahead : Option Lexeme
  /-- Tokens read ahead of the lookahead during recovery. -/
  pending : List Lexeme
  /-- The end of everything read. -/
  cursor : Cursor
  scannerState : ScannerState
  /-- The start of the token before which a missing one was put in last. -/
  missingInsertedAt : Option Nat
  stats : ParseStats
deriving Repr

namespace ParseState

/-- The start of a parse. -/
def initial (text : List Char) : ParseState :=
  ⟨[], none, [], Cursor.start text, .empty, none, {}⟩

variable (state : ParseState)

/-- The state on top of the stack. -/
def topState : StateId :=
  (state.stack.head?.map StackEntry.state).getD 0

/-- Where the stack ends. -/
def stackEnd : Nat :=
  (state.stack.head?.map StackEntry.finish).getD 0

/-- The states of the entries that are not extras, the top first; the initial state is
the last. -/
def structuralStates : List StateId :=
  (state.stack.filter fun entry => !entry.isExtra).map StackEntry.state ++ [0]

/-- Pushes a subtree behind the stack. -/
def push (next : StateId) (subtree : Subtree) : ParseState :=
  { state with stack := .ofSubtree next subtree state.stackEnd :: state.stack }

/-- Pushes several subtrees with the same state. -/
def pushAll (next : StateId) (subtrees : List Subtree) : ParseState :=
  subtrees.foldl (fun state subtree => state.push next subtree) state

/-- Pushes the extras before a token. -/
def pushExtras (next : StateId) (lexeme : Lexeme) : ParseState :=
  state.pushAll next (lexeme.extras.map .leaf)

/-- Takes note that a lexeme has been read. -/
def advancePast (lexeme : Lexeme) (cursor : Cursor) : ParseState :=
  { state with cursor := cursor, scannerState := lexeme.scannerAfter }

/-- Reads a lexeme at the end of everything read. -/
def readLexeme (input : ParseInput) (mode : ValidExternals) :
    Except Fault (Lexeme × ParseState) := do
  let (lexeme, cursor) ← lex input.language state.cursor mode state.scannerState
  pure (lexeme, state.advancePast lexeme cursor)

/-- The next lexeme: one read ahead, or else a fresh one. -/
def nextLexeme (input : ParseInput) : Except Fault (Lexeme × ParseState) :=
  match state.pending with
  | lexeme :: pending => .ok (lexeme, { state with pending := pending })
  | [] => state.readLexeme input (input.language.lexMode state.topState)

/-- Reads a lexeme ahead of the lookahead. -/
def lexAhead (input : ParseInput) : Except Fault ParseState := do
  let (lexeme, state) ← state.readLexeme input (input.language.lexMode state.topState)
  pure { state with pending := state.pending ++ [{ lexeme with fresh := false }] }

end ParseState

/-- The symbol a lexeme stands for in a state. A keyword is read as a word where no
keyword is acceptable; a token right behind the one before it becomes its immediate
twin where the twin has an action. -/
def resolveSymbol (language : Language) (state : StateId) (lexeme : Lexeme) : SymbolId :=
  let symbol :=
    match lexeme.word with
    | some word => if language.acceptsKeywords state then lexeme.raw else word
    | none => lexeme.raw
  if lexeme.isAdjacent then
    match language.lexer.twin? symbol with
    | some twin => if language.action state twin = .error then symbol else twin
    | none => symbol
  else symbol

end Lalr
