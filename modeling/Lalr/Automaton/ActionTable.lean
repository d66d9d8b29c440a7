import Lalr.Automaton.Lookahead
import Lalr.Grammar.Error

set_option autoImplicit false

/-!
The action table: what to do in each state at each symbol. Where several actions compete for a
terminal, precedence decides first, then associativity, then dynamic precedence, then the grammar's
conflict entries; what is left is reported.
-/

namespace Lalr

/-! ## Conflicts -/

/-- What competes in a conflict. -/
inductive ConflictKind where
  | shiftReduce
  | reduceReduce
deriving DecidableEq, Repr

/-- A conflict that nothing settles. -/
structure Conflict where
  kind : ConflictKind
  state : Nat
  /-- The name of the terminal the actions compete for. -/
  lookahead : String
  /-- The rules involved, in ascending order. -/
  rules : List String
  /-- The items of the competing actions. -/
  items : List String
deriving DecidableEq, Repr

/-- An action that competes for a terminal. -/
inductive Candidate where
  | shift (state : Nat)
  | reduce (production : Nat)
deriving DecidableEq, Repr

/-- How a reduction fares against the shift. -/
inductive Outcome where
  | reduceWins
  | shiftWins
  | tie
deriving DecidableEq, Repr

/-- The least element of a list under an order on keys. -/
def leastRank? : List Nat → Option Nat
  | [] => none
  | rank :: ranks => some (ranks.foldl min rank)

namespace FlatGrammar

variable (grammar : FlatGrammar)

/-- The precedence of a production; the start production has none. -/
def precedenceOf (production : Nat) : Int32 :=
  ((grammar.productions[production]?).map Production.precedence).getD 0

/-- The associativity of a production; the start production has none. -/
def associativityOf (production : Nat) : Option Associativity :=
  (grammar.productions[production]?).bind Production.associativity

/-- The dynamic precedence of a production; the start production has none. -/
def dynamicPrecedenceOf (production : Nat) : Int32 :=
  ((grammar.productions[production]?).map Production.dynamicPrecedence).getD 0

/-- The rule a production belongs to; the start production belongs to the start rule. -/
def ruleOf (production : Nat) : String :=
  match grammar.productions[production]? with
  | some found => grammar.origin found.lhs
  | none => grammar.origin grammar.start

/-- The step behind the dot of an item. -/
def stepAt? (item : Item) : Option Step :=
  (grammar.productions[item.production]?).bind fun production => production.steps[item.dot]?

/-- The items of a state that read a terminal. -/
def shiftItems (items : List Item) (terminal : Nat) : List Item :=
  items.filter fun item =>
    (grammar.stepAt? item).any fun step => step.symbol == terminal

/-- The least and the greatest precedence of the steps that are read. Items at the
start of their production do not count; without others both are zero. -/
def shiftPrecedence (items : List Item) : Int32 × Int32 :=
  let values := items.filterMap fun item =>
    if item.dot = 0 then none else (grammar.stepAt? item).map Step.precedence
  match values with
  | [] => (0, 0)
  | value :: values => (values.foldl min value, values.foldl max value)

/-- Compares a reduction with the shift by precedence and, where all precedences are
equal, by the associativity of the reduced production. -/
def outcome (range : Int32 × Int32) (production : Nat) : Outcome :=
  let value := grammar.precedenceOf production
  if range.2 < value then .reduceWins
  else if value < range.1 then .shiftWins
  else if value = range.1 ∧ value = range.2 then
    match grammar.associativityOf production with
    | some .left => .reduceWins
    | some .right => .shiftWins
    | none => .tie
  else .tie

/-- The reductions of the greatest precedence. -/
def strongestReductions (productions : List Nat) : List Nat :=
  productions.filter fun production =>
    productions.all fun other => grammar.precedenceOf other ≤ grammar.precedenceOf production

/-- What is left of a shift and some reductions once precedence and associativity have
decided. -/
def afterPrecedence (shiftItems : List Item) (shift : Option Nat) (reductions : List Nat) :
    List Candidate :=
  let reductions := grammar.strongestReductions reductions
  match shift with
  | none => reductions.map .reduce
  | some target =>
      let range := grammar.shiftPrecedence shiftItems
      let shifts :=
        if reductions.any fun production => grammar.outcome range production == .reduceWins then []
        else [Candidate.shift target]
      let kept := reductions.filter fun production =>
        grammar.outcome range production != .shiftWins
      shifts ++ kept.map .reduce

/-- The dynamic precedence of an action; for a shift the greatest of its items. -/
def candidateStrength (shiftItems : List Item) : Candidate → Int32
  | .shift _ =>
      match shiftItems.map fun item => grammar.dynamicPrecedenceOf item.production with
      | [] => 0
      | value :: values => values.foldl max value
  | .reduce production => grammar.dynamicPrecedenceOf production

/-- The candidates of the greatest dynamic precedence. -/
def strongestCandidates (shiftItems : List Item) (candidates : List Candidate) :
    List Candidate :=
  candidates.filter fun candidate =>
    candidates.all fun other =>
      grammar.candidateStrength shiftItems other ≤ grammar.candidateStrength shiftItems candidate

/-- The rules an action belongs to. -/
def candidateRules (shiftItems : List Item) : Candidate → List String
  | .shift _ => shiftItems.map fun item => grammar.ruleOf item.production
  | .reduce production => [grammar.ruleOf production]

/-- The candidate that a conflict entry prefers: every candidate has a rule in the
entry, and the earliest rule belongs to one candidate only. -/
def preferredBy? (shiftItems : List Item) (candidates : List Candidate) (entry : List String) :
    Option Candidate := do
  let ranks ← candidates.mapM fun candidate =>
    leastRank? ((grammar.candidateRules shiftItems candidate).filterMap entry.idxOf?)
  let least ← leastRank? ranks
  if ranks.count least = 1 then candidates[ranks.idxOf least]? else none

/-- The items of an action as a report shows them. -/
def candidateItems (shiftItems : List Item) : Candidate → List String
  | .shift _ => shiftItems.map fun item => grammar.renderItem item.production item.dot
  | .reduce production =>
      match grammar.productions[production]? with
      | none => [grammar.ruleOf production ++ " •"]
      | some found => [grammar.renderItem production found.steps.length]

/-- The report on candidates that nothing tells apart. -/
def conflictOf (state terminal : Nat) (shiftItems : List Item) (candidates : List Candidate) :
    Conflict :=
  { kind :=
      if candidates.any fun candidate => candidate matches .shift _ then .shiftReduce
      else .reduceReduce
    state := state
    lookahead :=
      if terminal = endSymbol.toNat then "end" else grammar.symbolName terminal
    rules :=
      ((candidates.flatMap (grammar.candidateRules shiftItems)).mergeSort
        fun first second => first ≤ second).eraseDups
    items := candidates.flatMap (grammar.candidateItems shiftItems) }

/-- Settles the competition for a terminal in a state: the action to take, and a report
if nothing settles it. -/
def resolve (state terminal : Nat) (items : List Item) (shift : Option Nat)
    (reductions : List Nat) : Option Candidate × Option Conflict :=
  let shiftItems := if shift.isSome then grammar.shiftItems items terminal else []
  match grammar.afterPrecedence shiftItems shift reductions with
  | [candidate] => (some candidate, none)
  | candidates =>
      match grammar.strongestCandidates shiftItems candidates with
      | [candidate] => (some candidate, none)
      | strongest =>
          match grammar.conflicts.findSome? (grammar.preferredBy? shiftItems strongest) with
          | some candidate => (some candidate, none)
          | none => (strongest.head?, some (grammar.conflictOf state terminal shiftItems strongest))

end FlatGrammar

/-- The wording of a kind of conflict. -/
def ConflictKind.text : ConflictKind → String
  | .shiftReduce => "shift/reduce"
  | .reduceReduce => "reduce/reduce"

/-- The wording of a conflict, with one line for each item. -/
def Conflict.message (conflict : Conflict) : String :=
  "unresolved " ++ conflict.kind.text ++ " conflict on " ++ quoted conflict.lookahead ++
    " (state " ++ toString conflict.state ++ ") between rules " ++
    ", ".intercalate (conflict.rules.map quoted) ++
    String.join (conflict.items.map fun item => "\n    " ++ item)

/-! ## The table -/

/-- The action of a settled candidate; reducing the start production accepts. -/
def Candidate.action (startProduction : Nat) : Candidate → Action
  | .shift state => .shift state.toUInt32
  | .reduce production =>
      if production = startProduction then .accept else .reduce production.toUInt32

namespace FlatGrammar

variable (grammar : FlatGrammar)

/-- Whether an item's dot is behind its last symbol; the start production has one. -/
def isCompleteItem (startProduction : Nat) (item : Item) : Bool :=
  if item.production = startProduction then item.dot == 1
  else (grammar.productions[item.production]?).any fun production =>
    item.dot == production.steps.length

/-- The productions that a state may reduce at a terminal, in ascending order. -/
def reductionsAt (startProduction : Nat) (items : List (Item × TokenSet)) (terminal : Nat) :
    List Nat :=
  items.filterMap fun (item, lookahead) =>
    if lookahead.contains terminal && grammar.isCompleteItem startProduction item then
      some item.production
    else none

/-- The action of a state at a symbol, and the conflict that was not settled. -/
def cell (startProduction index : Nat) (state : LookaheadState) (symbol : Nat) :
    Action × Option Conflict :=
  let target := state.transitions.lookup symbol
  if grammar.isTerminal symbol then
    match grammar.reductionsAt startProduction state.items symbol with
    | [] => (target.elim .error fun next => .shift next.toUInt32, none)
    | reductions =>
        let (candidate, conflict) :=
          grammar.resolve index symbol (state.items.map Prod.fst) target reductions
        (candidate.elim .error (Candidate.action startProduction), conflict)
  else (target.elim .error fun next => .goto next.toUInt32, none)

/-- All cells of the table, row by row. -/
def cells (automaton : Automaton) : List (Action × Option Conflict) :=
  automaton.states.toList.zipIdx.flatMap fun (state, index) =>
    (List.range grammar.tableSymbolCount).map
      (grammar.cell automaton.startProduction index state)

end FlatGrammar

/-- Whether two reports say the same of possibly different states. -/
def Conflict.sameReport (first second : Conflict) : Bool :=
  first.kind == second.kind && first.rules == second.rules && first.items == second.items

/-- The first of the reports that say the same. -/
def distinctReports (conflicts : List Conflict) : List Conflict :=
  (conflicts.foldl (fun kept conflict =>
    if kept.any conflict.sameReport then kept else conflict :: kept) []).reverse

/-- The table of a grammar's automaton, or every conflict that nothing settles. -/
def actionTable (grammar : FlatGrammar) (automaton : Automaton) :
    Except (List Conflict) (Array Action) :=
  let cells := grammar.cells automaton
  match distinctReports (cells.filterMap Prod.snd) with
  | [] => .ok (cells.map Prod.fst).toArray
  | conflicts => .error conflicts

end Lalr
