import Lalr.Parser.Recovery

set_option autoImplicit false

/-!
The run of a parse. Each step deals with one action for the token at hand: the token is
accepted, or a subtree of an old tree that starts with it; a production is completed;
the parse ends; or recovery takes over.
-/

namespace Lalr

open Lalr.Text

/-- Takes the extras off the top of a stack; they are returned in the order of the
text. -/
def takeTrailing (trailing : List StackEntry) : List StackEntry →
    List StackEntry × List StackEntry
  | [] => (trailing, [])
  | entry :: stack =>
      if entry.isExtra then takeTrailing (entry :: trailing) stack else (trailing, entry :: stack)

namespace ParseState

variable (input : ParseInput) (state : ParseState)

/-- Accepts a token with the extras before it. -/
def shift (next : StateId) (symbol : SymbolId) (token : Lexeme) : ParseState :=
  let top := state.topState
  (state.pushExtras top token).push next (.leaf (token.toLeaf symbol top))

/-- Completes a production. Extras on top of the stack stay behind the new node; those
between its children become children too. -/
def reduce (id : ProductionId) (production : ProductionInfo) (token : Lexeme) : ParseState :=
  let (trailing, stack) := takeTrailing [] state.stack
  let (children, stack) := popStructural [] production.rhs.length stack
  let below := { state with stack := stack }
  let start := (children.head?.map StackEntry.start).getD below.stackEnd
  let dependencyEnd := children.foldl
    (fun last entry => max last (entry.finish + entry.subtree.lookaheadBytes)) token.examinedEnd
  let under := below.topState
  let next := (input.language.goto? under production.lhs).getD under
  let finish := start + StackEntry.totalLength children
  let head : NodeHead :=
    { symbol := production.lhs
      production := some id
      state := under
      lookahead := some
        { raw := token.raw
          symbol := token.symbol.getD token.raw
          mode := token.mode
          reusable := token.isOrdinary && token.start == finish }
      lookaheadBytes := dependencyEnd - finish
      extra := false }
  let pushed := { below with stack := .ofEntries next head children start :: stack }
  pushed.pushAll next (trailing.map StackEntry.subtree)

/-- The tree of an accepted text: the start node takes in the extras around it. -/
def accept (token : Lexeme) : Subtree :=
  let entries := state.stack.reverse
  let extras := token.extras.map Subtree.leaf
  let children := entries.flatMap fun entry =>
    if entry.isExtra then [entry.subtree] else entry.subtree.children
  match state.stack.find? fun entry => !entry.isExtra with
  | none => .root input.language.startSymbol none (children ++ extras)
  | some entry => .root entry.subtree.symbol entry.subtree.production (children ++ extras)

/-- Whether a token would be read again as the first one of a subtree. -/
def startsWith (subtree : Subtree) (symbol : SymbolId) (token : Lexeme) : Bool :=
  subtree.firstLeaf?.any fun first =>
    first.symbol == symbol && first.raw == token.raw && first.padding == token.padding &&
      first.size == token.size && first.mode == token.mode &&
      first.scannerBefore == token.scannerBefore

/-- Takes over one subtree of an old tree in place of a token, if the parse would build
it again: it was built in the same state from the same first token, and the token
behind it is read in the same way. -/
def takeOver? (symbol : SymbolId) (token : Lexeme) (subtree : Subtree) :
    Except Fault (Option ParseState) :=
  let top := state.topState
  match subtree with
  | .leaf _ => .ok none
  | .node head _ =>
      if head.state != top || !startsWith subtree symbol token then .ok none
      else
        match head.lookahead, subtree.lastLeaf?, input.language.goto? top head.symbol with
        | some lookahead, some last, some next => do
            let finish := token.tokenStart + subtree.length
            match Cursor.at? input.text finish with
            | none => .error (.outsideText finish)
            | some place => do
                let (following, cursor) ←
                  lex input.language place lookahead.mode last.scannerAfter
                if following.raw != lookahead.raw then pure none
                else
                  let pushed := (state.pushExtras top token).push next subtree
                  let following := { following with symbol := some lookahead.symbol }
                  let stats : ParseStats :=
                    ⟨state.stats.reusedNodes + 1, state.stats.reusedBytes + subtree.length⟩
                  let taken := pushed.advancePast following cursor
                  pure (some { taken with lookahead := some following, stats := stats })
        | _, _, _ => .ok none

/-- Takes over the first subtree for which that is possible. -/
def takeOverFirst? (symbol : SymbolId) (token : Lexeme) :
    List Subtree → Except Fault (Option ParseState)
  | [] => .ok none
  | subtree :: subtrees => do
      match ← state.takeOver? input symbol token subtree with
      | some taken => pure (some taken)
      | none => takeOverFirst? symbol token subtrees

/-- Takes over a subtree of the old tree that starts with a token. Tokens read ahead
stand in the way. -/
def reuse? (symbol : SymbolId) (token : Lexeme) : Except Fault (Option ParseState) :=
  if state.pending.isEmpty && token.fresh then
    state.takeOverFirst? input symbol token (input.reuse.candidatesAt token.contentStart)
  else .ok none

/-- Deals with one action for the token at hand. -/
def step : Except Fault ParseStep := do
  let top := state.topState
  let (token, state) ←
    match state.lookahead with
    | some token => pure (token, { state with lookahead := none })
    | none => state.nextLexeme input
  let symbol := token.symbol.getD (resolveSymbol input.language top token)
  let token := { token with symbol := some symbol }
  match input.language.action top symbol with
  | .shift next =>
      match ← state.reuse? input symbol token with
      | some taken => pure (.next taken)
      | none => pure (.next (state.shift next symbol token))
  | .reduce id =>
      match input.language.production? id with
      | some production =>
          pure (.next { state.reduce input id production token with lookahead := some token })
      | none => state.recover input token
  | .accept => pure (.done (state.accept input token) state.stats)
  | .error => state.recover input token
  | .goto _ => state.recover input token

end ParseState

/-- Repeats steps until the parse ends, at most `limit` times. -/
def runSteps (input : ParseInput) : Nat → ParseState → Except Fault (Subtree × ParseStats)
  | 0, _ => .error .stepLimit
  | limit + 1, state =>
      match state.step input with
      | .error fault => .error fault
      | .ok (.done root stats) => .ok (root, stats)
      | .ok (.next state) => runSteps input limit state

/-- More steps than any text in memory takes. -/
def stepLimit : Nat := UInt64.size

/-- Parses a text from its start. -/
def runParse (input : ParseInput) : Except Fault (Subtree × ParseStats) :=
  runSteps input stepLimit (.initial input.text)

end Lalr
