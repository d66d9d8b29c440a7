import Lalr.Parser.State

set_option autoImplicit false

/-!
Recovery from a token that has no action. Four ways are tried in turn: to put in a
missing token, to skip some tokens, to take entries off the stack, and to wrap the
token itself. Each leads on from the place of the error, and none loses any text.
-/

namespace Lalr

open Lalr.Text

/-- The limit on the actions tried out for one token. -/
def simulationLimit : Nat := 4096

/-- Runs the automaton on a stack of states, the top first, until it accepts a symbol;
the stack at that point. -/
def simulateFrom (language : Language) (symbol : SymbolId) :
    Nat → List StateId → Option (List StateId)
  | 0, _ => none
  | _ + 1, [] => none
  | limit + 1, top :: below =>
      match language.action top symbol with
      | .shift next => some (next :: top :: below)
      | .accept => some (top :: below)
      | .reduce id =>
          match language.production? id with
          | none => none
          | some production =>
              match (top :: below).drop production.rhs.length with
              | [] => none
              | under :: rest =>
                  match language.goto? under production.lhs with
                  | none => none
                  | some next => simulateFrom language symbol limit (next :: under :: rest)
      | .error => none
      | .goto _ => none

/-- The stack of states once the automaton has accepted a symbol, if it does. -/
def simulate (language : Language) (states : List StateId) (symbol : SymbolId) :
    Option (List StateId) :=
  simulateFrom language symbol simulationLimit states

namespace ParseState

variable (input : ParseInput) (state : ParseState)

/-- Whether putting a terminal in behind a stack of states lets a token be accepted. -/
def bridges (states : List StateId) (token : Lexeme) (symbol : SymbolId) : Bool :=
  match simulate input.language states symbol with
  | none => false
  | some after =>
      let top := after.head?.getD 0
      (simulate input.language after (resolveSymbol input.language top token)).isSome

/-- The first terminal that lets a token be accepted when it is put in. Only one is put
in before a token; extras and immediate twins never are. -/
def missingSymbol? (token : Lexeme) : Option SymbolId :=
  if state.missingInsertedAt = some token.start then none
  else
    let lexer := input.language.lexer
    let states := state.structuralStates
    let terminals := (List.range input.language.tables.terminalCount.toNat).drop 1
    (terminals.map Nat.toUInt16).find? fun symbol =>
      !lexer.isExtra symbol && !lexer.isTwin symbol && bridges input states token symbol

/-- Puts a missing token in before a token. -/
def insertMissing (symbol : SymbolId) (token : Lexeme) : ParseState :=
  let mode := input.language.lexMode state.topState
  { state with
    missingInsertedAt := some token.start
    lookahead := some (.ofMissing symbol token.start mode)
    pending := { token with symbol := none } :: state.pending }

/-- Looks for the first token behind the current one that the automaton accepts in the
present states, and reads ahead as needed. The answer counts the tokens up to the one
found, which are those to skip. -/
def findAcceptable : Nat → Nat → ParseState → Except Fault (Option Nat × ParseState)
  | 0, _, state => .ok (none, state)
  | attempts + 1, place, state => do
      let atEnd := state.pending.getLast?.any fun lexeme => lexeme.raw == endSymbol
      let state ←
        if state.pending.length ≤ place && !atEnd then state.lexAhead input else pure state
      match state.pending[place]? with
      | none => pure (none, state)
      | some candidate =>
          let symbol := resolveSymbol input.language state.topState candidate
          if (simulate input.language state.structuralStates symbol).isSome then
            pure (some (place + 1), state)
          else if candidate.raw = endSymbol then pure (none, state)
          else findAcceptable attempts (place + 1) state

/-- The subtrees of a skipped token. -/
def skippedSubtrees (top : StateId) (lexeme : Lexeme) : List Subtree :=
  lexeme.extras.map .leaf ++ [.leaf (lexeme.toLeaf lexeme.raw top)]

/-- Skips a token and some of those behind it into an error node, if a token that is
then acceptable can be found. -/
def skipTokens (token : Lexeme) : Except Fault (Bool × ParseState) := do
  if token.raw = endSymbol || input.config.maxSkipTokens = 0 then pure (false, state)
  else
    let (found, state) ← findAcceptable input input.config.maxSkipTokens 0 state
    match found with
    | none => pure (false, state)
    | some count =>
        let top := state.topState
        let skipped := state.pending.take (count - 1)
        let children := Subtree.leaf (token.toLeaf token.raw top) ::
          skipped.flatMap (skippedSubtrees top)
        let state := (state.pushExtras top token).push top (.ofError children)
        match state.pending.drop (count - 1) with
        | [] => pure (true, { state with pending := [] })
        | next :: pending =>
            pure (true,
              { state with lookahead := some { next with symbol := none }, pending := pending })

/-- Splits off the top of a stack until `count` entries that are no extras are removed;
the removed entries in the order of the text, and the rest. -/
def popStructural (removed : List StackEntry) : Nat → List StackEntry →
    List StackEntry × List StackEntry
  | 0, stack => (removed, stack)
  | _ + 1, [] => (removed, [])
  | count + 1, entry :: stack =>
      if entry.isExtra then popStructural (entry :: removed) (count + 1) stack
      else popStructural (entry :: removed) count stack
termination_by structural _ stack => stack

/-- The least number of states to remove so that a token is accepted. -/
def popDepth? (token : Lexeme) : Option Nat :=
  let states := state.structuralStates
  ((List.range states.length).drop 1).find? fun depth =>
    let remaining := states.drop depth
    let symbol := resolveSymbol input.language (remaining.head?.getD 0) token
    (simulate input.language remaining symbol).isSome

/-- Takes the fewest entries off the stack into an error node that let a token be
accepted. -/
def popEntries (token : Lexeme) : Bool × ParseState :=
  match state.popDepth? input token with
  | none => (false, state)
  | some depth =>
      let (removed, stack) := popStructural [] depth state.stack
      let popped := { state with stack := stack }
      let pushed := popped.push popped.topState (.ofError (removed.map StackEntry.subtree))
      (true, { pushed with lookahead := some { token with symbol := none } })

/-- Wraps a token into an error node. -/
def wrapToken (token : Lexeme) : ParseState :=
  let top := state.topState
  (state.pushExtras top token).push top (.ofError [.leaf (token.toLeaf token.raw top)])

/-- The tree at the end of the input when nothing else can be done: everything on the
stack in an error node, and the extras behind it. -/
def wrapAll (token : Lexeme) : Subtree :=
  let subtrees := state.stack.reverse.map StackEntry.subtree
  let wrapped := if subtrees.isEmpty then [] else [Subtree.ofError subtrees]
  .root input.language.startSymbol none (wrapped ++ token.extras.map .leaf)

end ParseState

/-- What one step of a parse leads to. -/
inductive ParseStep where
  | next (state : ParseState)
  | done (root : Subtree) (stats : ParseStats)

namespace ParseState

variable (input : ParseInput) (state : ParseState)

/-- Recovers from a token without an action. -/
def recover (token : Lexeme) : Except Fault ParseStep := do
  let missing := if input.config.insertMissing then state.missingSymbol? input token else none
  match missing with
  | some symbol => pure (.next (state.insertMissing input symbol token))
  | none =>
      let (skipped, state) ← state.skipTokens input token
      if skipped then pure (.next state)
      else
        let (popped, state) := state.popEntries input token
        if popped then pure (.next state)
        else if token.raw = endSymbol then pure (.done (state.wrapAll input token) state.stats)
        else pure (.next (state.wrapToken token))

end ParseState

end Lalr
