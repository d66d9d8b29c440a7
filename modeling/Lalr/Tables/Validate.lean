import Lalr.Tables.Error

set_option autoImplicit false

/-!
Checks of the invariants that a parser relies on: the order of symbols, the length of
lists that belong together, and the range of every number that refers to something.
-/

namespace Lalr

/-- Refuses tables where a condition does not hold. -/
def require (condition : Bool) (defect : TableDefect) : Except LanguageError Unit :=
  if condition then .ok () else .error (.inconsistent defect)

/-- The product of two counts, if it fits a word. -/
def productOf (left right : UInt64) : Except LanguageError Nat :=
  let product := left.toNat * right.toNat
  if product < UInt64.size then .ok product else .error (.fault (.overflow left right))

namespace LanguageTables

variable (tables : LanguageTables)

/-- Whether a symbol of this kind may have this number: terminals come first, then
nonterminals, then the kinds of aliases. -/
def isInOrder (kind : SymbolKind) (id : Nat) : Bool :=
  let terminal := id < tables.terminalCount.toNat
  let inTable := id < tables.tableSymbolCount.toNat
  match kind with
  | .terminal => terminal
  | .nonterminal => !terminal && inTable
  | .auxiliary => !terminal && inTable
  | .aliasOnly => !inTable

/-- Whether a canonical kind stands for itself. -/
def isCanonical (symbol : SymbolId) : Bool :=
  (tables.symbols[symbol.toNat]?).any fun info => info.canonical == symbol

/-- Checks one symbol. -/
def checkSymbol (id : Nat) (info : SymbolInfo) : Except LanguageError Unit := do
  require (tables.isInOrder info.kind id) (.symbolOrder id info.name)
  require (tables.isCanonical info.canonical) (.noCanonicalKind info.name)

/-- Checks one production. -/
def checkProduction (index : Nat) (production : ProductionInfo) : Except LanguageError Unit := do
  let lhs := production.lhs.toNat
  let width := tables.tableSymbolCount.toNat
  let aliasesFit :=
    match production.aliasSequence with
    | none => true
    | some sequence =>
        (tables.aliasSequences[sequence.toNat]?).any fun aliases =>
          aliases.length == production.rhs.length
  require (tables.terminalCount.toNat ≤ lhs && lhs < width) (.production index .leftHandSide)
  require (production.fields.length == production.rhs.length) (.production index .fieldCount)
  require aliasesFit (.production index .aliasSequence)
  require (production.rhs.all fun symbol => symbol.toNat < width)
    (.production index .unknownSymbol)
  require
    (production.fields.all fun field =>
      field.all fun id => id.toNat < tables.fields.size)
    (.production index .unknownField)

/-- Whether an action may stand in the column of a symbol and refers to something. -/
def isValidAction (symbol : Nat) (action : Action) : Bool :=
  let terminal := symbol < tables.terminalCount.toNat
  match action with
  | .error => true
  | .shift state => terminal && state.toNat < tables.stateCount.toNat
  | .goto state => !terminal && state.toNat < tables.stateCount.toNat
  | .reduce production => terminal && production.toNat < tables.productions.size
  | .accept => symbol == endSymbol.toNat

/-- The state and the symbol of a cell of the action table. -/
def placeOfCell (index : Nat) : Except LanguageError (Nat × Nat) :=
  let width := tables.tableSymbolCount.toNat
  if width = 0 then .error (.fault (.zeroDivisor index)) else .ok (index / width, index % width)

/-- Checks one cell of the action table. -/
def checkAction (index : Nat) (action : Action) : Except LanguageError Unit := do
  let (state, symbol) ← tables.placeOfCell index
  require (tables.isValidAction symbol action) (.invalidAction action state symbol)

/-- The symbols the lexer refers to. -/
def lexicalSymbols : List SymbolId :=
  let lexical := tables.lexical
  (lexical.literals ++ lexical.patterns ++ lexical.keywords).map Prod.snd ++
    lexical.word.toList ++ lexical.extras ++ lexical.externals ++
    lexical.immediateTwins.flatMap fun (base, twin) => [base, twin]

/-- Checks a symbol of the lexer: a terminal, and not the end of the input. -/
def checkLexicalSymbol (symbol : SymbolId) : Except LanguageError Unit :=
  require (tables.isTerminal symbol && symbol != endSymbol) (.lexicalSymbol symbol.toNat)

/-- Checks everything; the first contradiction is reported. -/
def validate : Except LanguageError Unit := do
  if tables.version ≠ layoutVersion then .error (.versionMismatch tables.version)
  require (tables.symbols.size ≤ errorSymbol.toNat) (.tooManySymbols tables.symbols.size)
  require
    (tables.terminalCount != 0 && tables.tableSymbolCount.toNat ≤ tables.symbols.size)
    .symbolCounts
  let cells ← productOf tables.stateCount tables.tableSymbolCount
  require (tables.actions.size == cells && tables.lexModes.size == tables.stateCount.toNat)
    .actionCount
  tables.symbols.toList.zipIdx.forM fun (info, id) => tables.checkSymbol id info
  tables.productions.toList.zipIdx.forM fun (production, index) =>
    tables.checkProduction index production
  tables.actions.toList.zipIdx.forM fun (action, index) => tables.checkAction index action
  tables.lexicalSymbols.forM tables.checkLexicalSymbol

end LanguageTables

end Lalr
