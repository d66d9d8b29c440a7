import Lalr.Automaton.ActionTable
import Lalr.FlatGrammar.Numbering

set_option autoImplicit false

/-!
From a grammar to parse tables: the grammar is checked and flattened, the automaton
is built and its conflicts are settled, and everything is put together in storage
form.
-/

namespace Lalr

/-- Why no tables can be made for a grammar. -/
inductive GenerateError where
  | grammar (mistake : GrammarError)
  | unreachableRules (rules : List String)
  | unresolvedConflicts (conflicts : List Conflict)
deriving DecidableEq, Repr

/-- A text whose continuation lines are indented by two more spaces. -/
def indentLines (text : String) : String :=
  String.ofList (text.toList.flatMap fun c => if c = '\n' then ['\n', ' ', ' '] else [c])

namespace GenerateError

/-- The wording of an error. -/
def message : GenerateError → String
  | .grammar mistake => mistake.message
  | .unreachableRules rules => "unreachable rules: " ++ ", ".intercalate rules
  | .unresolvedConflicts conflicts =>
      toString conflicts.length ++ " unresolved conflict(s)" ++
        String.join (conflicts.map fun conflict => "\n  " ++ indentLines conflict.message) ++
        "\nadd precedence, associativity or a conflict entry naming these rules"

/-- The rules an error is about. -/
def ruleNames : GenerateError → List String
  | .grammar _ => []
  | .unreachableRules rules => rules
  | .unresolvedConflicts conflicts =>
      ((conflicts.flatMap Conflict.rules).mergeSort fun first second => first ≤ second).eraseDups

end GenerateError

namespace FlatGrammar

/-- The numbered symbols and flat productions of a grammar. -/
def ofGrammar (grammar : Grammar) : Except GenerateError FlatGrammar := do
  let mistake {α : Type} : Except GrammarError α → Except GenerateError α :=
    Except.mapError .grammar
  mistake grammar.check
  match grammar.unreachableRules with
  | [] =>
      let draft ← mistake (FlatDraft.ofGrammar grammar)
      mistake (draft.number grammar)
  | rules => .error (.unreachableRules rules)

end FlatGrammar

namespace Production

/-- The aliases of the steps, if there is one. -/
def aliases? (production : Production) : Option (List (Option SymbolId)) :=
  let aliases := production.steps.map fun step => step.shownAs.map Nat.toUInt16
  if aliases.any Option.isSome then some aliases else none

end Production

namespace LanguageTables

/-- The external tokens that have an action in a row of the table. -/
def lexModeOfRow (externals : List SymbolId) (row : Array Action) : ValidExternals :=
  externals.zipIdx.foldl (fun mode (symbol, index) =>
    if row.getD symbol.toNat .error = .error then mode else mode.insert index) .none

/-- Puts the tables together. Equal alias sequences are stored once, in the order of
their first use. -/
def assemble (grammar : FlatGrammar) (stateCount : Nat) (actions : Array Action) :
    LanguageTables :=
  let sequences := (grammar.productions.toList.filterMap Production.aliases?).eraseDups
  let width := grammar.tableSymbolCount
  { version := layoutVersion
    name := grammar.name
    symbols := grammar.symbols
    terminalCount := grammar.terminalCount.toUInt64
    tableSymbolCount := width.toUInt64
    fields := grammar.fields.toArray
    productions := grammar.productions.map fun production =>
      { lhs := production.lhs.toUInt16
        rhs := production.rhs.map Nat.toUInt16
        fields := production.steps.map fun step => step.field.map Nat.toUInt16
        aliasSequence := production.aliases?.map fun aliases =>
          (sequences.idxOf aliases).toUInt32
        precedence := production.precedence
        dynamicPrecedence := production.dynamicPrecedence }
    aliasSequences := sequences.toArray
    stateCount := stateCount.toUInt64
    actions := actions
    lexModes := ((List.range stateCount).map fun state =>
      lexModeOfRow grammar.lexical.externals
        (actions.extract (state * width) (state * width + width))).toArray
    lexical := grammar.lexical }

/-- The tables of a flat grammar. -/
def ofFlatGrammar (grammar : FlatGrammar) : Except GenerateError LanguageTables :=
  let automaton := Automaton.ofGrammar grammar
  match actionTable grammar automaton with
  | .ok actions => .ok (assemble grammar automaton.states.size actions)
  | .error conflicts => .error (.unresolvedConflicts conflicts)

/-- The tables of a grammar. -/
def generate (grammar : Grammar) : Except GenerateError LanguageTables := do
  ofFlatGrammar (← FlatGrammar.ofGrammar grammar)

end LanguageTables

end Lalr
