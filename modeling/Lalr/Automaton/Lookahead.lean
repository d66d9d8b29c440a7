import Lalr.Automaton.States

set_option autoImplicit false

/-!
Lookaheads: the terminals that may follow a production where an item of a state is
completed. They are the least solution of two rules. Over a transition an item keeps
its lookaheads; and a predicted production gets what can follow its left-hand side in
the items that predict it.
-/

namespace Lalr

/-- The lookaheads of the kernel items of every state, in the order of the kernels. -/
abbrev KernelLookaheads := Array (List TokenSet)

/-- The lookaheads of the productions of each nonterminal in a state, by the place of
the nonterminal. -/
abbrev PredictedLookaheads := Array TokenSet

/-- A state with the lookaheads of all its items. -/
structure LookaheadState where
  /-- All items of the state in order. -/
  items : List (Item × TokenSet)
  /-- The state after each symbol, by ascending symbol. -/
  transitions : List (Nat × Nat)
deriving DecidableEq, Repr, Inhabited

/-- The automaton; the state 0 is the first. -/
structure Automaton where
  states : Array LookaheadState
  startProduction : Nat
deriving Repr, Inhabited

namespace ItemGrammar

variable (grammar : ItemGrammar)

/-- What a kernel item contributes to the nonterminal behind its dot. -/
def withKernelItem (lookaheads : PredictedLookaheads) (entry : Item × TokenSet) :
    PredictedLookaheads :=
  match grammar.nextNonterminal? entry.1 with
  | none => lookaheads
  | some symbol =>
      let rest := (grammar.symbols entry.1.production).drop (entry.1.dot + 1)
      let follow := (grammar.first.ofSequence rest).followedBy entry.2
      lookaheads.modify (grammar.place symbol) (·.union follow)

/-- What the productions of a nonterminal contribute to those they start with. -/
def withLeads (lookaheads : PredictedLookaheads) (symbol : Nat) : PredictedLookaheads :=
  (grammar.leads.getD (grammar.place symbol) []).foldl (fun lookaheads (lead, rest) =>
    let follow := rest.followedBy (lookaheads.getD (grammar.place symbol) .empty)
    lookaheads.modify (grammar.place lead) (·.union follow)) lookaheads

/-- Repeats the contributions of all predicted nonterminals until they change nothing. -/
def settlePredicted (predicted : List Nat) : Nat → PredictedLookaheads → PredictedLookaheads
  | 0, lookaheads => lookaheads
  | limit + 1, lookaheads =>
      let next := predicted.foldl grammar.withLeads lookaheads
      if next = lookaheads then lookaheads else settlePredicted predicted limit next

/-- The lookaheads of the predicted productions of a state. -/
def predictedLookaheads (state : ItemState) (kernel : List TokenSet) : PredictedLookaheads :=
  let direct := (state.kernel.zip kernel).foldl grammar.withKernelItem
    (Array.replicate grammar.productionsOf.size .empty)
  let limit := grammar.productionsOf.size * grammar.terminalCount + 1
  grammar.settlePredicted state.predicted limit direct

/-- The lookaheads of an item of a state: those of the kernel, or those of the
predicted nonterminal. -/
def lookaheadOf (state : ItemState) (kernel : List TokenSet)
    (predicted : PredictedLookaheads) (item : Item) : TokenSet :=
  match (state.kernel.zip kernel).lookup item with
  | some lookahead => lookahead
  | none =>
      if item.dot = 0 then
        predicted.getD (grammar.place (grammar.lhs.getD item.production 0)) .empty
      else .empty

/-- Hands the lookaheads of a state on to its successors. -/
def propagate (states : Array ItemState) (lookaheads : KernelLookaheads) (index : Nat) :
    KernelLookaheads :=
  match states[index]? with
  | none => lookaheads
  | some state =>
      let kernel := lookaheads.getD index []
      let predicted := grammar.predictedLookaheads state kernel
      state.transitions.foldl (fun lookaheads (_, target) =>
        match states[target]? with
        | none => lookaheads
        | some next =>
            let handed := next.kernel.map fun item =>
              grammar.lookaheadOf state kernel predicted ⟨item.production, item.dot - 1⟩
            lookaheads.modify target fun known => known.zipWith TokenSet.union handed) lookaheads

/-- Repeats passes over all states until one changes nothing. -/
def settleLookaheads (states : Array ItemState) : Nat → KernelLookaheads → KernelLookaheads
  | 0, lookaheads => lookaheads
  | limit + 1, lookaheads =>
      let next := (List.range states.size).foldl (grammar.propagate states) lookaheads
      if next = lookaheads then lookaheads else settleLookaheads states limit next

/-- The lookaheads of all kernels. At the start only the end of the input may follow. -/
def kernelLookaheads (states : Array ItemState) : KernelLookaheads :=
  let start := (states.map fun state => state.kernel.map fun _ => TokenSet.empty).modify 0
    fun known => known.map fun _ => TokenSet.empty.insert endSymbol.toNat
  let kernelItems := (states.toList.flatMap ItemState.kernel).length
  grammar.settleLookaheads states (kernelItems * grammar.terminalCount + 1) start

/-- The items of a state with their lookaheads. -/
def withLookaheads (state : ItemState) (kernel : List TokenSet) : LookaheadState :=
  let predicted := grammar.predictedLookaheads state kernel
  let items := grammar.closureItems state.kernel state.predicted
  ⟨items.map fun item => (item, grammar.lookaheadOf state kernel predicted item),
    state.transitions⟩

end ItemGrammar

/-- The automaton of a grammar. -/
def Automaton.ofGrammar (grammar : FlatGrammar) : Automaton :=
  let items := ItemGrammar.ofGrammar grammar
  let states := items.states
  let lookaheads := items.kernelLookaheads states
  { states := states.mapIdx fun index state =>
      items.withLookaheads state (lookaheads.getD index [])
    startProduction := items.startProduction }

end Lalr
