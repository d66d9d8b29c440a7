import Lalr.Proofs.Parser.Tiling

set_option autoImplicit false

/-!
What a state of a parse holds: the leaves on the stack and, behind them, those that the tokens
at hand will become. Nothing of it is ever lost or moved; what is read comes behind it.
-/

namespace Lalr

/-- A leaf as it was read, whatever state it was adapted to since. -/
def Leaf.plain (leaf : Leaf) : Leaf :=
  { leaf with symbol := leaf.raw, state := 0, fragile := false }

/-- The leaves that were read, as they were read; missing tokens were not. -/
def solid (leaves : List Leaf) : List Leaf :=
  (leaves.filter fun leaf => !leaf.missing).map Leaf.plain

@[simp] theorem solid_nil : solid [] = [] :=
  rfl

@[simp] theorem solid_append (first second : List Leaf) :
    solid (first ++ second) = solid first ++ solid second := by
  simp [solid]

theorem solid_of_missing {leaf : Leaf} (missing : leaf.missing = true) (leaves : List Leaf) :
    solid (leaf :: leaves) = solid leaves := by
  simp [solid, missing]

theorem solid_cons {leaf : Leaf} (present : leaf.missing = false) (leaves : List Leaf) :
    solid (leaf :: leaves) = leaf.plain :: solid leaves := by
  simp [solid, present]

namespace Lexeme

/-- The extras and the token as leaves, as they were read. -/
def plainLeaves (lexeme : Lexeme) : List Leaf :=
  solid (lexeme.leavesAs lexeme.raw 0)

theorem solid_leavesAs (lexeme : Lexeme) (symbol : SymbolId) (state : StateId) :
    solid (lexeme.leavesAs symbol state) = lexeme.plainLeaves := by
  rw [plainLeaves, leavesAs, leavesAs, solid_append, solid_append]
  cases missing : lexeme.missing with
  | true =>
      rw [solid_of_missing (by simp [toLeaf, missing]), solid_of_missing (by simp [toLeaf, missing])]
  | false =>
      rw [solid_cons (by simp [toLeaf, missing]), solid_cons (by simp [toLeaf, missing])]
      rfl

theorem plainLeaves_asRead (lexeme : Lexeme) : lexeme.asRead.plainLeaves = lexeme.plainLeaves := by
  cases missing : lexeme.missing with
  | true => simp [plainLeaves, leavesAs, toLeaf, asRead, solid, missing]
  | false =>
      simp [plainLeaves, leavesAs, toLeaf, asRead, solid, missing, Leaf.plain, finish,
        contentStart]

end Lexeme

theorem flatMap_plainLeaves_of_same {lexemes others : List Lexeme}
    (same : others.map Lexeme.asRead = lexemes.map Lexeme.asRead) :
    others.flatMap Lexeme.plainLeaves = lexemes.flatMap Lexeme.plainLeaves := by
  have forget : ∀ queue : List Lexeme,
      (queue.map Lexeme.asRead).flatMap Lexeme.plainLeaves =
        queue.flatMap Lexeme.plainLeaves := by
    intro queue
    rw [List.flatMap_map]
    exact List.flatMap_congr fun lexeme _ => lexeme.plainLeaves_asRead
  rw [← forget, same, forget]

namespace ParseState

variable {input : ParseInput} {state : ParseState} {token : Lexeme}

/-- The leaves on the stack, and behind them those that the tokens at hand will become. -/
def holding (state : ParseState) : List Leaf :=
  solid (stackLeaves state.stack) ++ state.queue.flatMap Lexeme.plainLeaves

/-- The first tokens at hand become leaves behind the stack. -/
theorem holding_consume {after : ParseState} {taken rest : List Lexeme} {added : List Leaf}
    (queue : state.queue = taken ++ rest)
    (same : after.queue.map Lexeme.asRead = rest.map Lexeme.asRead)
    (leaves : stackLeaves after.stack = stackLeaves state.stack ++ added)
    (added_eq : solid added = taken.flatMap Lexeme.plainLeaves) :
    after.holding = state.holding := by
  rw [holding, holding, leaves, solid_append, added_eq, flatMap_plainLeaves_of_same same, queue,
    List.flatMap_append, List.append_assoc]

theorem holding_of_same {after : ParseState}
    (same : after.queue.map Lexeme.asRead = state.queue.map Lexeme.asRead)
    (leaves : stackLeaves after.stack = stackLeaves state.stack) :
    after.holding = state.holding :=
  holding_consume (List.nil_append _).symm same (by rw [leaves, List.append_nil]) rfl

/-- Tokens that are read wait behind those at hand. -/
theorem holding_read {after : ParseState} {lexemes behind : List Lexeme}
    (queue : after.queue = state.queue ++ behind)
    (same : behind.map Lexeme.asRead = lexemes.map Lexeme.asRead)
    (stack : after.stack = state.stack) :
    after.holding = state.holding ++ lexemes.flatMap Lexeme.plainLeaves := by
  rw [holding, holding, stack, queue, List.flatMap_append, flatMap_plainLeaves_of_same same,
    List.append_assoc]

theorem holding_current {after : ParseState} (taken : state.current input = .ok (token, after))
    (symbol : Option SymbolId) :
    ({ after with lookahead := some { token with symbol := symbol } } : ParseState).holding =
      state.holding ++ (state.readNow token).flatMap Lexeme.plainLeaves := by
  obtain ⟨stack, _, whole, _⟩ := current_ok taken
  have held : ({ after with lookahead := some token } : ParseState).holding =
      state.holding ++ (state.readNow token).flatMap Lexeme.plainLeaves :=
    holding_read whole rfl stack
  rw [← held]
  exact holding_of_same rfl rfl

theorem holding_searched {lexemes : List Lexeme} {later : ParseState}
    (ahead : ReadsAhead input state lexemes later) :
    ({ later with lookahead := some token } : ParseState).holding =
      ({ state with lookahead := some token } : ParseState).holding ++
        lexemes.flatMap Lexeme.plainLeaves := by
  have whole : ({ later with lookahead := some token } : ParseState).queue =
      ({ state with lookahead := some token } : ParseState).queue ++
        lexemes.map Lexeme.readAhead := by
    rw [queue, ahead.pending]
    rfl
  exact holding_read whole (map_asRead_readAhead lexemes) ahead.stack

theorem holding_consumeToken {after : ParseState} (symbol : SymbolId) (top : StateId)
    (idle : after.lookahead = none) (pending : after.pending = state.pending)
    (leaves : stackLeaves after.stack = stackLeaves state.stack ++ token.leavesAs symbol top) :
    after.holding = ({ state with lookahead := some token } : ParseState).holding := by
  have queue : after.queue = state.pending := by
    rw [ParseState.queue, idle, pending]
    rfl
  have whole : ({ state with lookahead := some token } : ParseState).queue =
      [token] ++ state.pending := rfl
  refine holding_consume whole (by rw [queue]) leaves ?_
  rw [token.solid_leavesAs, List.flatMap_singleton]

theorem holding_shift (idle : state.lookahead = none) (next : StateId) (symbol : SymbolId) :
    (state.shift next symbol token).holding =
      ({ state with lookahead := some token } : ParseState).holding := by
  have frame : state.SameBut (state.shift next symbol token) := sameBut_push_token ..
  have alone : (Subtree.leaf (token.toLeaf symbol state.topState)).leaves =
      token.toLeaf symbol state.topState :: [] := rfl
  refine holding_consumeToken symbol state.topState (frame.lookahead.trans idle) frame.pending ?_
  rw [ParseState.shift, leaves_push_token next alone, List.append_nil]

theorem holding_wrapToken (idle : state.lookahead = none) :
    (state.wrapToken token).holding =
      ({ state with lookahead := some token } : ParseState).holding := by
  have frame : state.SameBut (state.wrapToken token) := sameBut_push_token ..
  have alone : (Subtree.ofError [.leaf (token.toLeaf token.raw state.topState)]).leaves =
      token.toLeaf token.raw state.topState :: [] := rfl
  refine holding_consumeToken token.raw state.topState (frame.lookahead.trans idle) frame.pending ?_
  rw [ParseState.wrapToken, leaves_push_token _ alone, List.append_nil]

theorem holding_reduce (id : ProductionId) (production : ProductionInfo) :
    ({ state.reduce input id production token with lookahead := some token } :
      ParseState).holding = ({ state with lookahead := some token } : ParseState).holding := by
  have frame := state.sameBut_reduce input id production token
  refine holding_of_same ?_ (leaves_reduce input id production token)
  rw [queue, frame.pending]
  rfl

/-- A missing token is not one that was read. -/
theorem holding_insertMissing (symbol : SymbolId) :
    (state.insertMissing input symbol token).holding =
      ({ state with lookahead := some token } : ParseState).holding := by
  have same : (({ token with symbol := none } :: state.pending).map Lexeme.asRead) =
      (token :: state.pending).map Lexeme.asRead := rfl
  have waiting := flatMap_plainLeaves_of_same same
  rw [holding, holding]
  exact congrArg _ waiting

theorem holding_skipTo {skipped pending : List Lexeme} {next : Lexeme}
    (whole : state.pending = skipped ++ next :: pending) :
    (state.skipTo token skipped next pending).holding =
      ({ state with lookahead := some token } : ParseState).holding := by
  have queue : ({ state with lookahead := some token } : ParseState).queue =
      (token :: skipped) ++ next :: pending := by
    rw [List.cons_append, ← whole]
    rfl
  have children : (Subtree.ofError (.leaf (token.toLeaf token.raw state.topState) ::
      skipped.flatMap (skippedSubtrees state.topState))).leaves =
        token.toLeaf token.raw state.topState ::
          skipped.flatMap fun lexeme => lexeme.leavesAs lexeme.raw state.topState :=
    congrArg _ (leavesOf_skippedSubtrees state.topState skipped)
  refine holding_consume queue rfl (leaves_push_token state.topState children) ?_
  have all : ∀ lexemes : List Lexeme, solid (lexemes.flatMap fun lexeme =>
      lexeme.leavesAs lexeme.raw state.topState) = lexemes.flatMap Lexeme.plainLeaves := by
    intro lexemes
    induction lexemes with
    | nil => rfl
    | cons lexeme lexemes ih =>
        rw [List.flatMap_cons, solid_append, ih, List.flatMap_cons, lexeme.solid_leavesAs]
  exact all (token :: skipped)

theorem holding_popEntries {depth : Nat} (found : state.popDepth? input token = some depth) :
    (state.popEntries input token).2.holding =
      ({ state with lookahead := some token } : ParseState).holding := by
  obtain ⟨taken, below, shape, popping, _⟩ := popStructural_spec [] depth state.stack
  rw [List.append_nil] at popping
  simp only [ParseState.popEntries, found, popping]
  refine holding_of_same rfl ((leaves_push _ _).trans ?_)
  rw [shape, stackLeaves_append]
  rfl

/-- What an effect leads to holds what was held before and, behind it, what is read. -/
theorem holding_effect (idle : state.lookahead = none) {top : StateId} {symbol : SymbolId}
    {after : ParseState} (effect : Effect input state top symbol token (.next after)) :
    ∃ read, ReadInTurn input.language state.cursor state.scannerState read after.cursor
        after.scannerState ∧
      after.holding = ({ state with lookahead := some token } : ParseState).holding ++
        read.flatMap Lexeme.plainLeaves := by
  have nothing : ({ state with lookahead := some token } : ParseState).holding =
      ({ state with lookahead := some token } : ParseState).holding ++
        ([] : List Lexeme).flatMap Lexeme.plainLeaves := (List.append_nil _).symm
  cases effect with
  | @shift next action =>
      have frame : state.SameBut (state.shift next symbol token) := sameBut_push_token ..
      refine ⟨[], ?_, (holding_shift idle next symbol).trans nothing⟩
      rw [frame.cursor, frame.scannerState]
      exact .nil _ _
  | @reduce id production action found =>
      have frame := state.sameBut_reduce input id production token
      refine ⟨[], ?_, (holding_reduce id production).trans nothing⟩
      dsimp only
      rw [frame.cursor, frame.scannerState]
      exact .nil _ _
  | @insert missing => exact ⟨[], .nil _ _, (holding_insertMissing missing).trans nothing⟩
  | @skip later skipped next pending _ _ _ _ searched whole _ =>
      obtain ⟨⟨read, ahead⟩, _⟩ := findAcceptable_ok searched
      have frame : later.SameBut (later.pushExtras later.topState token) := sameBut_pushAll _ _
      refine ⟨read, ?_, (holding_skipTo whole).trans (holding_searched ahead)⟩
      have cursor : (later.skipTo token skipped next pending).cursor = later.cursor := frame.cursor
      have scanner : (later.skipTo token skipped next pending).scannerState = later.scannerState :=
        frame.scannerState
      rw [cursor, scanner]
      exact ahead.inTurn
  | @pop later depth _ _ inVain found =>
      obtain ⟨read, ahead⟩ := inVain.readsAhead
      refine ⟨read, ?_, (holding_popEntries found).trans (holding_searched ahead)⟩
      simp only [ParseState.popEntries, found]
      exact ahead.inTurn
  | @wrap later _ _ inVain =>
      obtain ⟨read, ahead⟩ := inVain.readsAhead
      have frame : later.SameBut (later.wrapToken token) := sameBut_push_token ..
      refine ⟨read, ?_, (holding_wrapToken (ahead.lookahead.trans idle)).trans
        (holding_searched ahead)⟩
      rw [frame.cursor, frame.scannerState]
      exact ahead.inTurn

end ParseState

end Lalr
