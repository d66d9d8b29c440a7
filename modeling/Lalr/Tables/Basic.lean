set_option autoImplicit false

/-!
Parse tables: everything a parser needs to know about a language, in the form that
is stored and loaded. Numbers have the width they have in storage.
-/

namespace Lalr

/-- Numbers a terminal, a nonterminal or a node kind. -/
abbrev SymbolId := UInt16

/-- Numbers a state of the automaton. -/
abbrev StateId := UInt32

/-- Numbers a production. -/
abbrev ProductionId := UInt32

/-- Numbers a field name. -/
abbrev FieldId := UInt16

/-- The version of the layout of the tables. -/
def layoutVersion : UInt32 := 3

/-- The terminal that stands for the end of the input. -/
def endSymbol : SymbolId := 0

/-- The kind of error nodes; no table contains it. -/
def errorSymbol : SymbolId := 65535

/-- What a symbol is. -/
inductive SymbolKind where
  | terminal
  | nonterminal
  /-- A rule made for a repetition; always hidden. -/
  | auxiliary
  /-- A node kind that only aliases produce. -/
  | aliasOnly
deriving DecidableEq, Repr, Inhabited

/-- A symbol. Symbols that are reported as the same node kind share the canonical
one. -/
structure SymbolInfo where
  name : String
  kind : SymbolKind
  named : Bool
  visible : Bool
  extra : Bool
  external : Bool
  canonical : SymbolId
deriving DecidableEq, Repr, Inhabited

/-- What the parser does in a state at a symbol. -/
inductive Action where
  | error
  | shift (state : StateId)
  | reduce (production : ProductionId)
  | goto (state : StateId)
  | accept
deriving DecidableEq, Repr, Inhabited

/-- A production as the parser uses it; fields and aliases belong to its symbols
one by one. -/
structure ProductionInfo where
  lhs : SymbolId
  rhs : List SymbolId
  fields : List (Option FieldId)
  /-- The place of the aliases among the alias sequences. -/
  aliasSequence : Option UInt32
  precedence : Int32
  dynamicPrecedence : Int32
deriving DecidableEq, Repr, Inhabited

/-- The external tokens that are acceptable in a state, as a set of bits. -/
structure ValidExternals where
  bits : UInt64
deriving DecidableEq, Repr, Inhabited

namespace ValidExternals

/-- No external token. -/
def none : ValidExternals := ⟨0⟩

/-- The bit of an external token; there are 64 of them. -/
def bit (index : Nat) : UInt64 :=
  if index < 64 then 1 <<< index.toUInt64 else 0

/-- The first `count` external tokens. -/
def all (count : Nat) : ValidExternals :=
  if 64 ≤ count then ⟨0xFFFFFFFFFFFFFFFF⟩ else ⟨bit count - 1⟩

/-- Whether an external token is in the set. -/
def contains (set : ValidExternals) (index : Nat) : Bool :=
  set.bits &&& bit index != 0

/-- The set with an external token added; there is none beyond the 64th. -/
def insert (set : ValidExternals) (index : Nat) : ValidExternals :=
  ⟨set.bits ||| bit index⟩

/-- Whether the set holds no token. -/
def isEmpty (set : ValidExternals) : Bool :=
  set.bits == 0

end ValidExternals

/-- What the lexer needs to know, whatever the state. -/
structure LexicalTable where
  /-- Literal tokens by ascending text. -/
  literals : List (String × SymbolId) := []
  /-- Tokens given by patterns, by ascending symbol. -/
  patterns : List (String × SymbolId) := []
  /-- Lower-case spellings of the keywords, by ascending text. -/
  keywords : List (String × SymbolId) := []
  word : Option SymbolId := none
  extras : List SymbolId := []
  /-- Tokens with their immediate twins. -/
  immediateTwins : List (SymbolId × SymbolId) := []
  /-- The symbol of each external token, in the order of the scanner. -/
  externals : List SymbolId := []
deriving DecidableEq, Repr, Inhabited

/-- The tables of a language. The actions are a matrix with a row for each state
and a column for each terminal and nonterminal. -/
structure LanguageTables where
  version : UInt32
  name : String
  symbols : Array SymbolInfo
  terminalCount : UInt64
  /-- Terminals and nonterminals; further symbols are node kinds only. -/
  tableSymbolCount : UInt64
  fields : Array String
  productions : Array ProductionInfo
  aliasSequences : Array (List (Option SymbolId))
  stateCount : UInt64
  actions : Array Action
  lexModes : Array ValidExternals
  lexical : LexicalTable
deriving DecidableEq, Repr, Inhabited

namespace LanguageTables

/-- The action of a state at a symbol. -/
def action (tables : LanguageTables) (state : StateId) (symbol : SymbolId) : Action :=
  if symbol.toNat < tables.tableSymbolCount.toNat then
    (tables.actions[state.toNat * tables.tableSymbolCount.toNat + symbol.toNat]?).getD .error
  else .error

/-- The state after a nonterminal. -/
def goto? (tables : LanguageTables) (state : StateId) (symbol : SymbolId) : Option StateId :=
  match tables.action state symbol with
  | .goto next => some next
  | _ => none

/-- Terminals have the lowest numbers. -/
def isTerminal (tables : LanguageTables) (symbol : SymbolId) : Bool :=
  symbol.toNat < tables.terminalCount.toNat

/-- The row of a state: its actions in the order of the symbols. -/
def row (tables : LanguageTables) (state : Nat) : List Action :=
  let width := tables.tableSymbolCount.toNat
  (tables.actions.extract (state * width) (state * width + width)).toList

/-- Sizes of the tables. -/
structure Stats where
  symbols : Nat
  terminals : Nat
  productions : Nat
  states : Nat
  fields : Nat
  aliasSequences : Nat
deriving DecidableEq, Repr

/-- How large the tables are. -/
def stats (tables : LanguageTables) : Stats :=
  { symbols := tables.symbols.size
    terminals := tables.terminalCount.toNat
    productions := tables.productions.size
    states := tables.stateCount.toNat
    fields := tables.fields.size
    aliasSequences := tables.aliasSequences.size }

end LanguageTables

end Lalr
