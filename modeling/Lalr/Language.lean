import Lalr.Generate
import Lalr.Lexer
import Lalr.Scanner
import Lalr.Tables.Artifact
import Lalr.Tables.Validate
import Lalr.Text.Printable

set_option autoImplicit false

/-!
Languages: validated tables together with the lexer prepared for them and the scanner
of their external tokens.
-/

namespace Lalr

/-- Everything a parser needs for one language. -/
structure Language where
  tables : LanguageTables
  scanner : Scanner
  lexer : Lexer
  startSymbol : SymbolId

namespace LanguageTables

/-- The nonterminal whose state after the first one accepts at the end of the input. -/
def startSymbol? (tables : LanguageTables) : Option SymbolId :=
  let count := tables.tableSymbolCount.toNat - tables.terminalCount.toNat
  ((List.range' tables.terminalCount.toNat count).map Nat.toUInt16).find? fun symbol =>
    (tables.goto? 0 symbol).any fun next => tables.action next endSymbol == .accept

end LanguageTables

namespace Language

/-- Makes a language of tables and a scanner. -/
def ofTables (tables : LanguageTables) (scanner : Scanner) : Except LanguageError Language := do
  tables.validate
  require (scanner.tokenCount == tables.lexical.externals.length)
    (.scannerTokens scanner.tokenCount tables.lexical.externals.length)
  let lexer ← Lexer.compile tables.lexical
  match tables.startSymbol? with
  | none => .error (.inconsistent .noStartSymbol)
  | some start => pure ⟨tables, scanner, lexer, start⟩

/-- Loads a language from an artifact. -/
def ofBytes (bytes : List UInt8) (scanner : Scanner) : Except LanguageError Language := do
  ofTables (← LanguageTables.ofBytes bytes) scanner

variable (language : Language)

/-- The name of a language. -/
def name : String :=
  language.tables.name

/-- What is known of a symbol. -/
def symbolInfo? (symbol : SymbolId) : Option SymbolInfo :=
  language.tables.symbols[symbol.toNat]?

/-- The name of a node kind; unknown ones have none. -/
def symbolName (symbol : SymbolId) : String :=
  if symbol = errorSymbol then "ERROR"
  else ((language.symbolInfo? symbol).map SymbolInfo.name).getD ""

/-- The node kind that a symbol is reported as. -/
def canonicalSymbol (symbol : SymbolId) : SymbolId :=
  ((language.symbolInfo? symbol).map SymbolInfo.canonical).getD symbol

/-- The visible node kind with a name. -/
def symbolForName? (name : String) (named : Bool) : Option SymbolId :=
  if name = "ERROR" && named then some errorSymbol
  else (language.tables.symbols.find? (·.hasKind (name, named))).map SymbolInfo.canonical

/-- The name of a field. -/
def fieldName? (field : FieldId) : Option String :=
  language.tables.fields[field.toNat]?

/-- The field with a name. -/
def fieldForName? (name : String) : Option FieldId :=
  (language.tables.fields.toList.idxOf? name).map Nat.toUInt16

/-- What to do in a state at a symbol. -/
def action (state : StateId) (symbol : SymbolId) : Action :=
  language.tables.action state symbol

/-- The state after a nonterminal. -/
def goto? (state : StateId) (symbol : SymbolId) : Option StateId :=
  language.tables.goto? state symbol

/-- The external tokens acceptable in a state. -/
def lexMode (state : StateId) : ValidExternals :=
  language.tables.lexModes.getD state.toNat .none

/-- A production. -/
def production? (production : ProductionId) : Option ProductionInfo :=
  language.tables.productions[production.toNat]?

/-- The alias of a symbol of a production, by its place among the symbols. -/
def aliasAt? (production : ProductionId) (place : Nat) : Option SymbolId := do
  let info ← language.production? production
  let sequence ← info.aliasSequence
  let aliases ← language.tables.aliasSequences[sequence.toNat]?
  (aliases[place]?).join

/-- Whether some keyword is acceptable in a state. -/
def acceptsKeywords (state : StateId) : Bool :=
  language.lexer.keywordSymbols.any fun keyword => language.action state keyword != .error

/-- A language as it is shown for inspection. -/
def render : String :=
  "Language \x7b name: " ++ Text.debugQuoted language.name ++ ", version: " ++
    toString language.tables.version.toNat ++ ", symbols: " ++
    toString language.tables.symbols.size ++ ", states: " ++
    toString language.tables.stateCount.toNat ++ ", scanner: " ++ language.scanner.name ++ " \x7d"

end Language

/-! ## From a grammar straight to a language -/

/-- Why a grammar and a scanner make no language. -/
inductive BuildError where
  | generate (failure : GenerateError)
  | language (failure : LanguageError)

/-- The wording of an error. -/
def BuildError.message : BuildError → String
  | .generate failure => failure.message
  | .language failure => failure.message

/-- Makes a language of the tables of a grammar and a scanner. -/
def Language.ofGrammar (grammar : Grammar) (scanner : Scanner) : Except BuildError Language := do
  let tables ← (LanguageTables.generate grammar).mapError .generate
  (Language.ofTables tables scanner).mapError .language

end Lalr
