import Lalr.Automaton.First

set_option autoImplicit false

/-!
Items and states. An item is a production with a dot that separates what has been read from what
is still expected. The production with the number after the last is the start production, whose
only symbol is the start symbol. A state is the set of items reached by reading some symbols; it is
told apart by its kernel, the items whose dot has moved. States are numbered breadth first, over
the symbols in ascending order.
-/

namespace Lalr

/-! ## Items -/

/-- A production with a dot before the step `dot`, or behind the last. -/
structure Item where
  production : Nat
  dot : Nat
deriving DecidableEq, Repr, Inhabited

namespace Item

/-- Items are ordered by production, then by dot. -/
def before (first second : Item) : Bool :=
  first.production < second.production ||
    (first.production == second.production && first.dot ≤ second.dot)

/-- The item with the dot one step further. -/
def advance (item : Item) : Item :=
  { item with dot := item.dot + 1 }

end Item

/-- A grammar prepared for building its automaton. -/
structure ItemGrammar where
  terminalCount : Nat
  /-- The right-hand sides; the last one is that of the start production. -/
  rhs : Array (List Nat)
  /-- The left-hand sides of the productions other than the start production. -/
  lhs : Array Nat
  /-- The productions of each nonterminal, by its place among the nonterminals. -/
  productionsOf : Array (List Nat)
  first : FirstSets
  /-- For each nonterminal the nonterminals that its productions start with, and what
  can begin the rest of the production. -/
  leads : Array (List (Nat × Beginning))
deriving Repr, Inhabited

namespace ItemGrammar

/-- Prepares a grammar. -/
def ofGrammar (grammar : FlatGrammar) : ItemGrammar :=
  let rhs := grammar.productions.map Production.rhs
  let first := FirstSets.ofGrammar grammar
  let productionsOf := (Array.range grammar.nonterminalCount).map fun place =>
    grammar.productionsOf (grammar.terminalCount + place)
  let leads := productionsOf.map fun productions =>
    productions.filterMap fun production =>
      match rhs.getD production [] with
      | [] => none
      | symbol :: rest =>
          if grammar.isTerminal symbol then none else some (symbol, first.ofSequence rest)
  { terminalCount := grammar.terminalCount
    rhs := rhs.push [grammar.start]
    lhs := grammar.productions.map Production.lhs
    productionsOf := productionsOf
    first := first
    leads := leads }

variable (grammar : ItemGrammar)

/-- The number of the start production. -/
def startProduction : Nat :=
  grammar.lhs.size

/-- The symbols of a production. -/
def symbols (production : Nat) : List Nat :=
  grammar.rhs.getD production []

/-- The symbol behind the dot. -/
def next? (item : Item) : Option Nat :=
  (grammar.symbols item.production)[item.dot]?

/-- The place of a nonterminal among the nonterminals. -/
def place (symbol : Nat) : Nat :=
  symbol - grammar.terminalCount

/-- The nonterminal behind the dot. -/
def nextNonterminal? (item : Item) : Option Nat :=
  (grammar.next? item).filter fun symbol => grammar.terminalCount ≤ symbol

/-- Adds the nonterminals of `pending` and all that can start a derivation from
them. Each step takes one nonterminal off the list. -/
def predict : Nat → List Nat → List Nat → List Nat
  | 0, found, _ => found
  | _ + 1, found, [] => found
  | limit + 1, found, symbol :: pending =>
      if found.contains symbol then predict limit found pending
      else
        let leads := (grammar.leads.getD (grammar.place symbol) []).map Prod.fst
        predict limit (symbol :: found) (leads ++ pending)

/-- The nonterminals whose productions an item set predicts, in ascending order. -/
def predicted (kernel : List Item) : List Nat :=
  let direct := kernel.filterMap grammar.nextNonterminal?
  (grammar.predict (direct.length + grammar.lhs.size + 1) [] direct).mergeSort

/-- The items of an item set: the given ones and the start of every predicted
production, in order. -/
def closureItems (kernel : List Item) (predicted : List Nat) : List Item :=
  let added := predicted.flatMap fun symbol =>
    (grammar.productionsOf.getD (grammar.place symbol) []).map fun production =>
      (⟨production, 0⟩ : Item)
  (kernel ++ added).mergeSort Item.before

/-- The symbols behind the dots of an item set, in ascending order, each with the
items that are reached over it. -/
def successors (items : List Item) : List (Nat × List Item) :=
  let symbols := (items.filterMap grammar.next?).mergeSort.eraseDups
  symbols.map fun symbol =>
    (symbol, (items.filter fun item => grammar.next? item == some symbol).map Item.advance)

end ItemGrammar

/-! ## States -/

/-- A state of the automaton. -/
structure ItemState where
  kernel : List Item
  /-- The nonterminals whose productions start here. -/
  predicted : List Nat
  /-- The state after each symbol, by ascending symbol. -/
  transitions : List (Nat × Nat)
deriving DecidableEq, Repr, Inhabited

/-- The place of the state with a kernel, which is added if there is none. -/
def enterKernel (states : Array ItemState) (kernel : List Item) : Nat × Array ItemState :=
  match states.findIdx? fun state => state.kernel == kernel with
  | some index => (index, states)
  | none => (states.size, states.push ⟨kernel, [], []⟩)

/-- Enters the successors of a state and collects its transitions. -/
def enterSuccessors (states : Array ItemState) :
    List (Nat × List Item) → Array ItemState × List (Nat × Nat)
  | [] => (states, [])
  | (symbol, kernel) :: rest =>
      let (target, states) := enterKernel states kernel
      let (states, transitions) := enterSuccessors states rest
      (states, (symbol, target) :: transitions)

namespace ItemGrammar

variable (grammar : ItemGrammar)

/-- Completes the states from `index` on, adding their successors as they are met. -/
def explore : Nat → Nat → Array ItemState → Array ItemState
  | 0, _, states => states
  | limit + 1, index, states =>
      match states[index]? with
      | none => states
      | some state =>
          let predicted := grammar.predicted state.kernel
          let items := grammar.closureItems state.kernel predicted
          let (states, transitions) := enterSuccessors states (grammar.successors items)
          explore limit (index + 1) (states.set! index ⟨state.kernel, predicted, transitions⟩)

/-- The number of items of a grammar. -/
def itemCount : Nat :=
  grammar.rhs.toList.flatten.length + grammar.rhs.size

/-- All states that can be reached from the start item. Kernels are sets of items,
which bounds the number of states. -/
def states : Array ItemState :=
  grammar.explore (Nat.pow 2 grammar.itemCount) 0 #[⟨[⟨grammar.startProduction, 0⟩], [], []⟩]

end ItemGrammar

end Lalr
