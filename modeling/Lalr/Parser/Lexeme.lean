import Lalr.Language
import Lalr.Text.Blank
import Lalr.Tree.Subtree

set_option autoImplicit false

/-!
Lexemes: a token together with the extras before it and everything needed to check
later whether it would be read again in the same way. The scanner is asked first; what
it declines is matched against the literals and patterns of the language.
-/

namespace Lalr

open Lalr.Text

/-- A token with the extras before it. Offsets are absolute. -/
structure Lexeme where
  /-- Where reading began, before the extras. -/
  start : Nat
  extras : List Leaf
  /-- Where the blank space before the token begins. -/
  tokenStart : Nat
  raw : SymbolId
  /-- The word token that a keyword can be read as. -/
  word : Option SymbolId
  padding : Nat
  size : Nat
  /-- The end of what the token depends on. -/
  examinedEnd : Nat
  mode : ValidExternals
  scannerBefore : ScannerState
  scannerAfter : ScannerState
  /-- Read when it was needed, not ahead of it during recovery. -/
  fresh : Bool
  missing : Bool
  /-- The symbol that the token stands for in the current state. -/
  symbol : Option SymbolId
deriving DecidableEq, Repr

namespace Lexeme

variable (lexeme : Lexeme)

/-- Where the token itself starts. -/
def contentStart : Nat :=
  lexeme.tokenStart + lexeme.padding

/-- Where the token ends. -/
def finish : Nat :=
  lexeme.contentStart + lexeme.size

/-- Whether nothing lies between the token and the one before it. -/
def isAdjacent : Bool :=
  lexeme.extras.isEmpty && lexeme.padding == 0

/-- Whether the token is an ordinary one, read in the normal course of a parse. -/
def isOrdinary : Bool :=
  lexeme.fresh && !lexeme.missing && lexeme.raw != errorSymbol

/-- A token of zero width. -/
def ofMissing (symbol : SymbolId) (position : Nat) (mode : ValidExternals) : Lexeme :=
  { start := position
    extras := []
    tokenStart := position
    raw := symbol
    word := none
    padding := 0
    size := 0
    examinedEnd := position
    mode := mode
    scannerBefore := .empty
    scannerAfter := .empty
    fresh := false
    missing := true
    symbol := some symbol }

/-- The leaf of the token, accepted as a symbol in a state. -/
def toLeaf (symbol : SymbolId) (state : StateId) : Leaf :=
  { symbol := symbol
    raw := lexeme.raw
    padding := lexeme.padding
    size := lexeme.size
    state := state
    lookaheadBytes := lexeme.examinedEnd - lexeme.finish
    mode := lexeme.mode
    scannerBefore := lexeme.scannerBefore
    scannerAfter := lexeme.scannerAfter
    extra := false
    missing := lexeme.missing
    fragile := !lexeme.missing && !lexeme.fresh }

end Lexeme

/-- Why a parse cannot go on: a place outside of the text was to be read, extras of no
length were met, or the limit of steps was reached. -/
inductive Fault where
  | outsideText (offset : Nat)
  | endlessExtras (offset : Nat)
  | stepLimit
deriving DecidableEq, Repr

/-- How far past a token the literals and patterns may have looked. -/
def regularLookahead : Nat := 8

/-- A token found at a place, before extras and keywords are told apart. -/
structure FoundToken where
  symbol : SymbolId
  size : Nat
  examinedEnd : Nat
  scannerAfter : ScannerState
  /-- The place behind the token. -/
  next : Cursor
deriving DecidableEq, Repr

/-- The token that literals and patterns find at a place, or else a single character
that nothing matches. -/
def regularToken (lexer : Lexer) (place : Cursor) (examinedEnd : Nat) (state : ScannerState) :
    FoundToken :=
  match lexer.matchToken? place.rest with
  | some found =>
      let finish := place.offset + found.length
      let margin := min regularLookahead (utf8Length (found.rest.take regularLookahead))
      ⟨found.symbol, found.length, max examinedEnd (finish + margin), state,
        ⟨finish, found.rest⟩⟩
  | none =>
      match place.rest with
      | [] => ⟨errorSymbol, 1, max examinedEnd (place.offset + 1), state, ⟨place.offset + 1, []⟩⟩
      | c :: rest =>
          let finish := place.offset + c.utf8Size
          ⟨errorSymbol, c.utf8Size, max examinedEnd finish, state, ⟨finish, rest⟩⟩

/-- The token at a place behind blank space. A token of the scanner counts if it is one
that the language declares and has a length. -/
def tokenAt (language : Language) (place : Cursor) (mode : ValidExternals)
    (examinedEnd : Nat) (state : ScannerState) : Except Fault FoundToken :=
  if place.rest.isEmpty then .ok ⟨endSymbol, 0, examinedEnd, state, place⟩
  else if mode.isEmpty then .ok (regularToken language.lexer place examinedEnd state)
  else
    let outcome := language.scanner.scan place.rest mode state
    let examinedEnd := max examinedEnd (place.offset + outcome.examined)
    match outcome with
    | .decline _ => .ok (regularToken language.lexer place examinedEnd state)
    | .token index length next _ =>
        match language.lexer.externals[index]? with
        | none => .ok (regularToken language.lexer place examinedEnd state)
        | some symbol =>
            if length = 0 then .ok (regularToken language.lexer place examinedEnd state)
            else
              match place.advance? length with
              | none => .error (.outsideText (place.offset + length))
              | some behind => .ok ⟨symbol, length, examinedEnd, next, behind⟩

/-- Reads a lexeme from `cursor` on, having passed the extras in `extras`, the last one
first. Every extra takes at least one character, which bounds their number. -/
def lexFrom (language : Language) (start : Nat) (mode : ValidExternals) :
    Nat → List Leaf → Nat → Cursor → ScannerState → Except Fault (Lexeme × Cursor)
  | 0, _, _, cursor, _ => .error (.endlessExtras cursor.offset)
  | limit + 1, extras, examinedEnd, cursor, state => do
      let place := cursor.skipWhile isBlank
      let padding := place.offset - cursor.offset
      let found ← tokenAt language place mode examinedEnd state
      if found.symbol != endSymbol && language.lexer.isExtra found.symbol then
        let leaf : Leaf :=
          { symbol := found.symbol
            raw := found.symbol
            padding := padding
            size := found.size
            state := 0
            lookaheadBytes := 0
            mode := mode
            scannerBefore := state
            scannerAfter := found.scannerAfter
            extra := true
            missing := false
            fragile := false }
        lexFrom language start mode limit (leaf :: extras) found.examinedEnd found.next
          found.scannerAfter
      else
        let keyword :=
          if language.lexer.word = some found.symbol then
            match splitBytes? found.size place.rest with
            | some (word, _) => language.lexer.keyword? word
            | none => none
          else none
        let lexeme : Lexeme :=
          { start := start
            extras := extras.reverse
            tokenStart := cursor.offset
            raw := keyword.getD found.symbol
            word := keyword.map fun _ => found.symbol
            padding := padding
            size := found.size
            examinedEnd := max found.examinedEnd (place.offset + found.size)
            mode := mode
            scannerBefore := state
            scannerAfter := found.scannerAfter
            fresh := true
            missing := false
            symbol := none }
        pure (lexeme, found.next)

/-- Reads the next lexeme and the place behind it. -/
def lex (language : Language) (cursor : Cursor) (mode : ValidExternals)
    (state : ScannerState) : Except Fault (Lexeme × Cursor) :=
  lexFrom language cursor.offset mode (cursor.rest.length + 1) [] cursor.offset cursor state

end Lalr
