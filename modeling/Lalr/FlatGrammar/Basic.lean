import Lalr.Grammar.Rule
import Lalr.Tables.Basic

set_option autoImplicit false

/-!
Flat grammars: numbered symbols and productions without choices or repetitions.
Precedence, fields and aliases belong to the single steps of a production.
-/

namespace Lalr

/-- One symbol on the right-hand side of a production, with what is said of it. -/
structure Step where
  symbol : Nat
  precedence : Int32
  associativity : Option Associativity
  field : Option Nat
  /-- The alias, a node kind. -/
  shownAs : Option Nat
deriving DecidableEq, Repr, Inhabited

/-- A flat production. -/
structure Production where
  lhs : Nat
  steps : List Step
  dynamicPrecedence : Int32
deriving DecidableEq, Repr, Inhabited

namespace Production

/-- The symbols of the right-hand side. -/
def rhs (production : Production) : List Nat :=
  production.steps.map Step.symbol

/-- The precedence of a production is that of its last step. -/
def precedence (production : Production) : Int32 :=
  (production.steps.getLast?.map Step.precedence).getD 0

/-- The associativity of a production is that of its last step. -/
def associativity (production : Production) : Option Associativity :=
  production.steps.getLast?.bind Step.associativity

end Production

/-- A grammar with numbered symbols. Terminals have the lowest numbers, then come
the nonterminals; the kinds that only aliases produce follow. -/
structure FlatGrammar where
  name : String
  symbols : Array SymbolInfo
  terminalCount : Nat
  tableSymbolCount : Nat
  /-- In the order of their left-hand sides. -/
  productions : Array Production
  start : Nat
  fields : List String
  lexical : LexicalTable
  conflicts : List (List String)
  /-- The rule that each nonterminal belongs to. -/
  origins : Array String
deriving Repr, Inhabited

namespace FlatGrammar

/-- Whether a symbol is a terminal. -/
def isTerminal (grammar : FlatGrammar) (symbol : Nat) : Bool :=
  symbol < grammar.terminalCount

/-- The number of nonterminals. -/
def nonterminalCount (grammar : FlatGrammar) : Nat :=
  grammar.tableSymbolCount - grammar.terminalCount

/-- The numbers of the productions of a nonterminal, in order. -/
def productionsOf (grammar : FlatGrammar) (symbol : Nat) : List Nat :=
  (List.range grammar.productions.size).filter fun index =>
    (grammar.productions[index]?).any fun production => production.lhs == symbol

/-- The rule a nonterminal belongs to. -/
def origin (grammar : FlatGrammar) (symbol : Nat) : String :=
  grammar.origins.getD (symbol - grammar.terminalCount) ""

/-- The name of a symbol. -/
def symbolName (grammar : FlatGrammar) (symbol : Nat) : String :=
  ((grammar.symbols[symbol]?).map SymbolInfo.name).getD ""

/-- A symbol as items show it: anonymous terminals are quoted. -/
def renderSymbol (grammar : FlatGrammar) (symbol : Nat) : String :=
  match grammar.symbols[symbol]? with
  | none => ""
  | some info =>
      if info.named || info.kind != .terminal then info.name else "\"" ++ info.name ++ "\""

/-- A production with a dot before one of its steps or behind the last. -/
def renderItem (grammar : FlatGrammar) (index dot : Nat) : String :=
  match grammar.productions[index]? with
  | none => ""
  | some production =>
      let symbols := production.rhs.map fun symbol => " " ++ grammar.renderSymbol symbol
      grammar.origin production.lhs ++ " →" ++ String.join (symbols.take dot) ++ " •" ++
        String.join (symbols.drop dot)

end FlatGrammar

end Lalr
