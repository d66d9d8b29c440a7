import Lalr.Proofs.Parser.Machine
import Lalr.Proofs.Parser.Sentence

set_option autoImplicit false

/-!
No text is lost. What has been read of a text is what the leaves on the stack hold and what
the tokens that wait hold behind it, in this order; so the leaves of the tree are the pieces
that were read, one behind the other.
-/

namespace Lalr

open Lalr.Text

namespace ParseState

variable {language : Language} {grammar : FlatGrammar} {input : ParseInput} {state : ParseState}

/-! ## What a parse reads -/

/-- What recovery from a token reads ahead. -/
def readAhead (input : ParseInput) (state : ParseState) (token : Lexeme) : List Lexeme :=
  if (state.insertion? input token).isSome || token.raw = endSymbol ||
      input.config.maxSkipTokens = 0 then []
  else
    match state.findAcceptable input input.config.maxSkipTokens 0 with
    | .error _ => []
    | .ok (_, later) => (later.pending.drop state.pending.length).map Lexeme.asRead

/-- What a step reads: the token at hand unless it waits already, and what recovery reads
ahead if the token has no action. -/
def readBy (input : ParseInput) (state : ParseState) : List Lexeme :=
  match state.current input with
  | .error _ => []
  | .ok (token, after) =>
      let symbol := state.symbolOf input token
      let ahead := after.readAhead input { token with symbol := some symbol }
      state.readNow token ++
        match input.language.action state.topState symbol with
        | .shift _ | .accept => []
        | .reduce id => if (input.language.production? id).isSome then [] else ahead
        | .error | .goto _ => ahead

/-- What is read in at most so many steps. -/
def runReads (input : ParseInput) : Nat → ParseState → List Lexeme
  | 0, _ => []
  | limit + 1, state =>
      state.readBy input ++
        match state.step input with
        | .ok (.next after) => runReads input limit after
        | .ok (.done _ _) | .error _ => []

end ParseState

/-- The lexemes that a parse reads, in the order of reading. -/
def ParseInput.lexemesRead (input : ParseInput) : List Lexeme :=
  ParseState.runReads input stepLimit (.initial input.text)

namespace ParseState

variable {language : Language} {grammar : FlatGrammar} {input : ParseInput} {state : ParseState}

theorem readBy_of_lacks {token : Lexeme} {after : ParseState}
    (taken : state.current input = .ok (token, after))
    (lacks : LacksAction input.language state.topState (state.symbolOf input token)) :
    state.readBy input = state.readNow token ++
      after.readAhead input { token with symbol := some (state.symbolOf input token) } := by
  rcases lacks with action | ⟨next, action⟩ | ⟨id, action, unknown⟩
  · simp only [readBy, taken, action]
  · simp only [readBy, taken, action]
  · simp only [readBy, taken, action, unknown, Option.isSome_none, Bool.false_eq_true, if_false]

theorem readsAhead_of_search {token : Lexeme} {found : Option Nat} {later : ParseState}
    (knowsNoEnd : input.language.lexer.KnowsNoEnd)
    (notInserted : state.insertion? input token = none) (notEnd : token.raw ≠ endSymbol)
    (some_ : input.config.maxSkipTokens ≠ 0)
    (searched : state.findAcceptable input input.config.maxSkipTokens 0 = .ok (found, later)) :
    ReadsAhead input state (state.readAhead input token) later := by
  obtain ⟨⟨read, ahead⟩, _⟩ := findAcceptable_ok searched
  have same : state.readAhead input token = read := by
    have reread := (ahead.inTurn.asRead_eq knowsNoEnd).1
    rw [← map_asRead_readAhead] at reread
    simp [readAhead, notInserted, notEnd, some_, searched, ahead.pending, reread]
  rw [same]
  exact ahead

/-! ## Stacks -/

theorem leaves_push (next : StateId) (subtree : Subtree) :
    stackLeaves (state.push next subtree).stack = stackLeaves state.stack ++ subtree.leaves :=
  stackLeaves_cons _ _

theorem leaves_pushAll (next : StateId) (subtrees : List Subtree) :
    stackLeaves (state.pushAll next subtrees).stack =
      stackLeaves state.stack ++ Subtree.leavesOf subtrees := by
  induction subtrees generalizing state with
  | nil => simp [pushAll, Subtree.leavesOf]
  | cons subtree subtrees ih =>
      have leaves := @ih (state.push next subtree)
      rw [leaves_push] at leaves
      rw [Subtree.leavesOf, ← List.append_assoc]
      exact leaves

theorem leaves_pushExtras (next : StateId) (lexeme : Lexeme) :
    stackLeaves (state.pushExtras next lexeme).stack =
      stackLeaves state.stack ++ lexeme.extras := by
  rw [pushExtras, leaves_pushAll, Subtree.leavesOf_map_leaf]

theorem leaves_push_token (next : StateId) {token : Lexeme} {subtree : Subtree} {symbol : SymbolId}
    {top : StateId} {behind : List Leaf}
    (leaves : subtree.leaves = token.toLeaf symbol top :: behind) :
    stackLeaves ((state.pushExtras top token).push next subtree).stack =
      stackLeaves state.stack ++ (token.leavesAs symbol top ++ behind) := by
  rw [leaves_push, leaves_pushExtras, leaves, Lexeme.leavesAs]
  simp

theorem leaves_reduce (input : ParseInput) (id : ProductionId) (production : ProductionInfo)
    (token : Lexeme) :
    stackLeaves (state.reduce input id production token).stack = stackLeaves state.stack := by
  obtain ⟨trailing, taken, below, next, head, shape, reduced, _⟩ :=
    reduce_spec input state id production token
  rw [reduced, leaves_pushAll, stackLeaves_cons, shape, stackLeaves_append, stackLeaves_append]
  rfl

theorem leavesOf_skippedSubtrees (top : StateId) (skipped : List Lexeme) :
    Subtree.leavesOf (skipped.flatMap (skippedSubtrees top)) =
      skipped.flatMap fun lexeme => lexeme.leavesAs lexeme.raw top := by
  induction skipped with
  | nil => rfl
  | cons lexeme skipped ih =>
      rw [List.flatMap_cons, List.flatMap_cons, Subtree.leavesOf_append, ih, skippedSubtrees,
        Subtree.leavesOf_append, Subtree.leavesOf_map_leaf]
      rfl

/-! ## The invariant -/

/-- The tokens at hand, the first one first. -/
def queue (state : ParseState) : List Lexeme :=
  state.lookahead.toList ++ state.pending

/-- What holds of the tokens at hand, whatever symbols they stand for, of those that are read
ahead and of one that is put in, holds of the tokens at hand after an effect. -/
theorem forall_queue_of_effect {property : Lexeme → Prop} {token : Lexeme} {top : StateId}
    {symbol : SymbolId} {after : ParseState} (idle : state.lookahead = none)
    (all : ∀ lexeme ∈ token :: state.pending, property lexeme)
    (forget : ∀ lexeme, property lexeme → property { lexeme with symbol := none })
    (missing : ∀ missing, state.insertion? input token = some missing →
      property (.ofMissing missing token.start (input.language.lexMode state.topState)))
    (ahead : ∀ read later, ReadsAhead input state read later →
      ∀ lexeme ∈ read, property lexeme.readAhead)
    (effect : Effect input state top symbol token (.next after)) :
    ∀ lexeme ∈ after.queue, property lexeme := by
  have waiting : ∀ lexeme ∈ state.pending, property lexeme :=
    fun lexeme member => all lexeme (List.mem_cons_of_mem _ member)
  have searched : ∀ {read later}, ReadsAhead input state read later →
      ∀ lexeme ∈ later.pending, property lexeme :=
    fun reads => reads.forall_pending waiting (ahead _ _ reads)
  cases effect with
  | @shift next action =>
      have frame : state.SameBut (state.shift next symbol token) := sameBut_push_token ..
      rw [queue, frame.lookahead, frame.pending, idle]
      exact waiting
  | @reduce id production action found =>
      have frame := state.sameBut_reduce input id production token
      rw [queue, frame.pending]
      exact all
  | insert _ inserted =>
      intro lexeme member
      rcases List.mem_cons.mp member with rfl | others
      · exact missing _ inserted
      · rcases List.mem_cons.mp others with rfl | waits
        · exact forget _ (all token List.mem_cons_self)
        · exact waiting lexeme waits
  | @skip later skipped next pending _ _ _ _ found whole _ =>
      obtain ⟨⟨_, reads⟩, _⟩ := findAcceptable_ok found
      have behind : ∀ lexeme ∈ next :: pending, property lexeme := fun lexeme member =>
        searched reads lexeme (whole ▸ List.mem_append_right _ member)
      intro lexeme member
      rcases List.mem_cons.mp member with rfl | others
      · exact forget _ (behind next List.mem_cons_self)
      · exact behind lexeme (List.mem_cons_of_mem _ others)
  | @pop later depth _ _ inVain found =>
      obtain ⟨_, reads⟩ := inVain.readsAhead
      simp only [ParseState.popEntries, found]
      intro lexeme member
      rcases List.mem_cons.mp member with rfl | others
      · exact forget _ (all token List.mem_cons_self)
      · exact searched reads lexeme others
  | @wrap later _ _ inVain =>
      obtain ⟨_, reads⟩ := inVain.readsAhead
      have frame : later.SameBut (later.wrapToken token) := sameBut_push_token ..
      rw [queue, frame.lookahead, frame.pending, reads.lookahead, idle]
      exact searched reads

/-- Everything read up to here is held by the leaves on the stack and, behind it, by the
tokens that wait. -/
structure Faithful (input : ParseInput) (log : List Lexeme) (state : ParseState) : Prop where
  inTurn : ReadInTurn input.language (Cursor.start input.text) .empty log state.cursor
    state.scannerState
  kept : ∀ lexeme ∈ state.queue, lexeme.WellKept
  endsLast : EndsLast state.queue
  split : ∃ consumed, log = consumed ++ asRead state.queue ∧
    (∀ lexeme ∈ consumed, lexeme.raw ≠ endSymbol) ∧
    solidShapes (stackLeaves state.stack) = consumed.flatMap Lexeme.shapes
  missing : MissingAreEmpty (stackLeaves state.stack)

theorem faithful_initial (input : ParseInput) : (initial input.text).Faithful input [] where
  inTurn := .nil _ _
  kept := by simp [queue, initial]
  endsLast := by simp [EndsLast, queue, initial]
  split := ⟨[], by simp [queue, initial, asRead], by simp, rfl⟩
  missing := by simp [MissingAreEmpty, initial, stackLeaves, Subtree.leavesOf]

namespace Faithful

variable {log : List Lexeme} {token : Lexeme}

/-- The first tokens that wait become leaves behind the stack, and of the others only what
was read counts. -/
theorem consume {after : ParseState} {taken rest : List Lexeme} {added : List Leaf}
    (faithful : state.Faithful input log) (queue : state.queue = taken ++ rest)
    (ordinary : ∀ lexeme ∈ taken, lexeme.raw ≠ endSymbol)
    (kept : ∀ lexeme ∈ after.queue, lexeme.WellKept)
    (same : after.queue.map Lexeme.asRead = rest.map Lexeme.asRead)
    (leaves : stackLeaves after.stack = stackLeaves state.stack ++ added)
    (shapes : solidShapes added = (Lalr.asRead taken).flatMap Lexeme.shapes)
    (missing : MissingAreEmpty added) (cursor : after.cursor = state.cursor)
    (scanner : after.scannerState = state.scannerState) : after.Faithful input log := by
  obtain ⟨consumed, split, noEnd, held⟩ := faithful.split
  refine ⟨by rw [cursor, scanner]; exact faithful.inTurn, kept, ?_,
    ⟨consumed ++ Lalr.asRead taken, ?_, ?_, ?_⟩, ?_⟩
  · have endsLast := faithful.endsLast
    rw [queue] at endsLast
    refine endsLast_congr same.symm ?_
    intro lexeme member
    refine endsLast lexeme ?_
    cases rest with
    | nil => exact absurd member List.not_mem_nil
    | cons next rest =>
        rw [List.dropLast_append_of_ne_nil (by simp)]
        exact List.mem_append_right _ member
  · have read : Lalr.asRead after.queue = Lalr.asRead rest := by rw [Lalr.asRead, same]; rfl
    rw [split, queue, asRead_append, read, List.append_assoc]
  · intro lexeme member
    rcases List.mem_append.mp member with early | late
    · exact noEnd lexeme early
    · obtain ⟨other, listed, rfl⟩ := List.mem_map.mp (List.mem_filter.mp late).1
      exact ordinary other listed
  · rw [leaves, solidShapes_append, held, shapes, List.flatMap_append]
  · rw [leaves]
    exact faithful.missing.append missing

theorem of_same {after : ParseState} (faithful : state.Faithful input log)
    (kept : ∀ lexeme ∈ after.queue, lexeme.WellKept)
    (same : after.queue.map Lexeme.asRead = state.queue.map Lexeme.asRead)
    (leaves : stackLeaves after.stack = stackLeaves state.stack)
    (cursor : after.cursor = state.cursor)
    (scanner : after.scannerState = state.scannerState) : after.Faithful input log :=
  faithful.consume (List.nil_append _).symm (by simp) kept same
    (by rw [leaves, List.append_nil]) rfl (by simp [MissingAreEmpty]) cursor scanner

theorem read {after : ParseState} {lexemes behind : List Lexeme}
    (faithful : state.Faithful input log) (queue : after.queue = state.queue ++ behind)
    (kept : ∀ lexeme ∈ behind, lexeme.WellKept) (same : Lalr.asRead behind = lexemes)
    (endsLast : EndsLast after.queue) (stack : after.stack = state.stack)
    (inTurn : ReadInTurn input.language state.cursor state.scannerState lexemes after.cursor
      after.scannerState) : after.Faithful input (log ++ lexemes) := by
  obtain ⟨consumed, split, noEnd, held⟩ := faithful.split
  refine ⟨faithful.inTurn.append inTurn, ?_, endsLast, ⟨consumed, ?_, noEnd, by rw [stack, held]⟩,
    by rw [stack]; exact faithful.missing⟩
  · intro lexeme member
    rw [queue] at member
    exact (List.mem_append.mp member).elim (faithful.kept lexeme) (kept lexeme)
  · rw [split, queue, asRead_append, same, List.append_assoc]

/-- The token at hand is one that waits, or one that is read now. -/
theorem current (faithful : state.Faithful input log)
    (knowsNoEnd : input.language.lexer.KnowsNoEnd) {after : ParseState}
    (taken : state.current input = .ok (token, after)) :
    ({ after with
        lookahead := some { token with symbol := some (state.symbolOf input token) } } :
          ParseState).Faithful input (log ++ state.readNow token) := by
  obtain ⟨stack, _, whole, inTurn⟩ := current_ok taken
  obtain ⟨_, asRead, kept⟩ := inTurn.asRead_eq knowsNoEnd
  have endsLast : EndsLast (token :: after.pending) := by
    rw [whole]
    unfold readNow
    split
    -- a token is read only where none waits, so it is alone
    case isTrue idle =>
        obtain ⟨none_ahead, none_waiting⟩ := Bool.and_eq_true_iff.mp idle
        simp only [Option.isNone_iff_eq_none.mp none_ahead, List.isEmpty_iff.mp none_waiting]
        simp [EndsLast]
    case isFalse =>
        rw [List.append_nil]
        exact faithful.endsLast
  have held : ({ after with lookahead := some token } : ParseState).Faithful input
      (log ++ state.readNow token) :=
    faithful.read whole kept asRead endsLast stack inTurn
  refine held.of_same ?_ rfl rfl rfl rfl
  intro lexeme member
  rcases List.mem_cons.mp member with rfl | waits
  · exact (held.kept token List.mem_cons_self).named knowsNoEnd
  · exact held.kept lexeme (List.mem_cons_of_mem _ waits)

section token

variable (faithful : ({ state with lookahead := some token } : ParseState).Faithful input log)

include faithful

theorem waiting : ∀ lexeme ∈ state.pending, lexeme.WellKept :=
  fun lexeme member => faithful.kept lexeme (List.mem_cons_of_mem _ member)

theorem atHand : token.WellKept :=
  faithful.kept token List.mem_cons_self

theorem consumeToken {after : ParseState} (ordinary : token.raw ≠ endSymbol)
    (symbol : SymbolId) (top : StateId) (idle : after.lookahead = none)
    (pending : after.pending = state.pending)
    (leaves : stackLeaves after.stack = stackLeaves state.stack ++ token.leavesAs symbol top)
    (cursor : after.cursor = state.cursor) (scanner : after.scannerState = state.scannerState) :
    after.Faithful input log := by
  have queue : after.queue = state.pending := by
    rw [ParseState.queue, idle, pending]
    rfl
  obtain ⟨shapes, missing⟩ := solidShapes_flatMap_leavesAs
    (fun _ member => List.mem_singleton.mp member ▸ faithful.atHand) (fun _ => symbol) top
  rw [List.flatMap_singleton] at shapes missing
  have whole : ({ state with lookahead := some token } : ParseState).queue =
      [token] ++ state.pending := rfl
  refine faithful.consume whole ?_ ?_ ?_ leaves shapes missing cursor scanner
  · intro lexeme member
    exact List.mem_singleton.mp member ▸ ordinary
  · rw [queue]
    exact faithful.waiting
  · rw [queue]

theorem shift (idle : state.lookahead = none) (ordinary : token.raw ≠ endSymbol)
    (next : StateId) (symbol : SymbolId) : (state.shift next symbol token).Faithful input log := by
  have frame : state.SameBut (state.shift next symbol token) := sameBut_push_token ..
  refine faithful.consumeToken ordinary symbol state.topState (frame.lookahead.trans idle)
    frame.pending ?_ frame.cursor frame.scannerState
  have alone : (Subtree.leaf (token.toLeaf symbol state.topState)).leaves =
      token.toLeaf symbol state.topState :: [] := rfl
  rw [ParseState.shift, leaves_push_token next alone, List.append_nil]

theorem wrapToken (idle : state.lookahead = none) (ordinary : token.raw ≠ endSymbol) :
    (state.wrapToken token).Faithful input log := by
  have frame : state.SameBut (state.wrapToken token) := sameBut_push_token ..
  refine faithful.consumeToken ordinary token.raw state.topState (frame.lookahead.trans idle)
    frame.pending ?_ frame.cursor frame.scannerState
  have alone : (Subtree.ofError [.leaf (token.toLeaf token.raw state.topState)]).leaves =
      token.toLeaf token.raw state.topState :: [] := rfl
  rw [ParseState.wrapToken, leaves_push_token _ alone, List.append_nil]

theorem reduce (id : ProductionId) (production : ProductionInfo) :
    ({ state.reduce input id production token with lookahead := some token } :
      ParseState).Faithful input log := by
  have frame := state.sameBut_reduce input id production token
  refine faithful.of_same ?_ ?_ (leaves_reduce input id production token) frame.cursor
    frame.scannerState
  · rw [queue, frame.pending]
    exact faithful.kept
  · rw [queue, frame.pending]
    rfl

theorem insertMissing {symbol : SymbolId} (ordinary : symbol ≠ endSymbol) :
    (state.insertMissing input symbol token).Faithful input log := by
  obtain ⟨consumed, split, noEnd, held⟩ := faithful.split
  refine ⟨faithful.inTurn, ?_, ?_, ⟨consumed, split, noEnd, held⟩, faithful.missing⟩
  · intro lexeme member
    rcases List.mem_cons.mp member with rfl | others
    · exact ⟨fun _ => ⟨rfl, rfl, rfl⟩, fun isEnd => absurd isEnd ordinary, nofun, nofun,
        fun other same => Option.some.inj same ▸ Iff.rfl⟩
    · rcases List.mem_cons.mp others with rfl | waits
      · exact faithful.atHand.forget
      · exact faithful.waiting lexeme waits
  · -- the missing token comes before all that wait, so the last of them stays last
    have same : ({ state with lookahead := some token } : ParseState).queue.map Lexeme.asRead =
        ({ token with symbol := none } :: state.pending).map Lexeme.asRead := rfl
    have endsLast := endsLast_congr same faithful.endsLast
    intro lexeme member
    rcases List.mem_cons.mp member with rfl | others
    · exact ordinary
    · exact endsLast lexeme others

theorem searched {lexemes : List Lexeme} {later : ParseState} (ordinary : token.raw ≠ endSymbol)
    (knowsNoEnd : input.language.lexer.KnowsNoEnd)
    (ahead : ReadsAhead input state lexemes later) :
    ({ later with lookahead := some token } : ParseState).Faithful input (log ++ lexemes) := by
  obtain ⟨mapped, asRead, kept⟩ := ahead.inTurn.asRead_eq knowsNoEnd
  have behind : Lalr.asRead (lexemes.map Lexeme.readAhead) = lexemes := by
    rw [Lalr.asRead, map_asRead_readAhead]
    exact asRead
  refine faithful.read ?_ ?_ behind ?_ ahead.stack ahead.inTurn
  · rw [queue, ahead.pending]
    rfl
  · intro lexeme member
    obtain ⟨other, listed, rfl⟩ := List.mem_map.mp member
    exact (kept other listed).readAhead
  · have endsLast := ahead.endsLast faithful.endsLast.tail
    intro lexeme member
    cases waiting : later.pending with
    | nil => simp [queue, waiting] at member
    | cons next pending =>
        simp only [queue, waiting] at member
        rcases List.mem_cons.mp member with rfl | others
        · exact ordinary
        · exact endsLast lexeme (waiting ▸ others)

theorem skipTo {skipped pending : List Lexeme} {next : Lexeme} (ordinary : token.raw ≠ endSymbol)
    (whole : state.pending = skipped ++ next :: pending) :
    (state.skipTo token skipped next pending).Faithful input log := by
  have queue : ({ state with lookahead := some token } : ParseState).queue =
      (token :: skipped) ++ next :: pending := by
    rw [List.cons_append, ← whole]
    rfl
  have frame : state.SameBut (state.pushExtras state.topState token) := sameBut_pushAll _ _
  have keptSkipped : ∀ lexeme ∈ token :: skipped, lexeme.WellKept :=
    fun lexeme member => faithful.kept lexeme (queue ▸ List.mem_append_left _ member)
  obtain ⟨shapes, missing⟩ :=
    solidShapes_flatMap_leavesAs keptSkipped Lexeme.raw state.topState
  refine faithful.consume queue ?_ ?_ rfl ?_ shapes missing frame.cursor frame.scannerState
  · intro lexeme member
    rcases List.mem_cons.mp member with rfl | inside
    · exact ordinary
    · refine faithful.endsLast lexeme ?_
      rw [queue, List.dropLast_append_of_ne_nil (by simp)]
      exact List.mem_append_left _ member
  · intro lexeme member
    have keptOthers : ∀ lexeme ∈ next :: pending, lexeme.WellKept :=
      fun lexeme member => faithful.kept lexeme (queue ▸ List.mem_append_right _ member)
    rcases List.mem_cons.mp member with rfl | others
    · exact (keptOthers next List.mem_cons_self).forget
    · exact keptOthers lexeme (List.mem_cons_of_mem _ others)
  · have children : (Subtree.ofError (.leaf (token.toLeaf token.raw state.topState) ::
        skipped.flatMap (skippedSubtrees state.topState))).leaves =
          token.toLeaf token.raw state.topState ::
            skipped.flatMap fun lexeme => lexeme.leavesAs lexeme.raw state.topState :=
      congrArg _ (leavesOf_skippedSubtrees state.topState skipped)
    exact leaves_push_token state.topState children

theorem popEntries {depth : Nat} (found : state.popDepth? input token = some depth) :
    (state.popEntries input token).2.Faithful input log := by
  obtain ⟨taken, below, shape, popping, _⟩ := popStructural_spec [] depth state.stack
  rw [List.append_nil] at popping
  simp only [ParseState.popEntries, found, popping]
  refine faithful.of_same ?_ rfl ?_ rfl rfl
  · intro lexeme member
    rcases List.mem_cons.mp member with rfl | waits
    · exact faithful.atHand.forget
    · exact faithful.waiting lexeme waits
  · refine (leaves_push _ _).trans ?_
    rw [shape, stackLeaves_append]
    rfl

/-- What a search that was made, or not made, in vain has read waits too. -/
theorem searchedInVain {later : ParseState} (knowsNoEnd : input.language.lexer.KnowsNoEnd)
    (idle : state.lookahead = none) (notInserted : state.insertion? input token = none)
    (inVain : SearchedInVain input state token later) :
    ({ later with lookahead := some token } : ParseState).Faithful input
        (log ++ state.readAhead input token) ∧ later.lookahead = none := by
  rcases inVain with ⟨pointless, rfl⟩ | ⟨ordinary, some_, searched⟩
  · have nothing : later.readAhead input token = [] := by
      rcases pointless with atEnd | none_ <;> simp [readAhead, *]
    rw [nothing, List.append_nil]
    exact ⟨faithful, idle⟩
  · have ahead := readsAhead_of_search knowsNoEnd notInserted ordinary some_ searched
    exact ⟨faithful.searched ordinary knowsNoEnd ahead, ahead.lookahead.trans idle⟩

end token

/-- A step reads on and keeps what is read. -/
theorem step (faithful : state.Faithful input log)
    (represents : input.language.tables.Represents grammar)
    (knowsNoEnd : input.language.lexer.KnowsNoEnd) (fresh : input.reuse = [])
    {after : ParseState} (stepped : state.step input = .ok (.next after)) :
    after.Faithful input (log ++ state.readBy input) := by
  obtain ⟨token, middle, taken, effect⟩ := effect_of_step fresh stepped
  have idle := (current_ok taken).2.1
  have held := faithful.current knowsNoEnd taken
  have recovers := fun lacks => readBy_of_lacks taken lacks
  cases effect with
  | @shift next action =>
      have read : state.readBy input = state.readNow token := by simp [readBy, taken, action]
      have ordinary : token.raw ≠ endSymbol :=
        fun atEnd => represents.ne_end_of_shift action ((held.atHand.symbol _ rfl).mpr atEnd)
      rw [read]
      exact held.shift idle ordinary next _
  | @reduce id production action found =>
      have read : state.readBy input = state.readNow token := by
        simp [readBy, taken, action, found]
      rw [read]
      exact held.reduce id production
  | insert lacks inserted =>
      have read : middle.readAhead input
          { token with symbol := some (state.symbolOf input token) } = [] := by
        simp [readAhead, inserted]
      rw [recovers lacks, read, List.append_nil]
      exact held.insertMissing (missingSymbol?_ne_end represents.terminalCount_le inserted)
  | skip lacks notInserted ordinary some_ searched whole _ =>
      have ahead := readsAhead_of_search knowsNoEnd notInserted ordinary some_ searched
      rw [recovers lacks, ← List.append_assoc]
      exact (held.searched ordinary knowsNoEnd ahead).skipTo ordinary whole
  | pop lacks notInserted inVain depth =>
      rw [recovers lacks, ← List.append_assoc]
      exact (held.searchedInVain knowsNoEnd idle notInserted inVain).1.popEntries depth
  | wrap lacks notInserted inVain _ ordinary =>
      obtain ⟨searched, idle⟩ := held.searchedInVain knowsNoEnd idle notInserted inVain
      rw [recovers lacks, ← List.append_assoc]
      exact searched.wrapToken idle ordinary

end Faithful

/-! ## The end of a parse -/

/-- A tree holds what was read: its leaves are the tokens with their extras, and behind them
the extras before the end of the input. -/
def HoldsAll (input : ParseInput) (log : List Lexeme) (root : Subtree) : Prop :=
  ∃ tokens last, log = tokens ++ [last] ∧ (∀ lexeme ∈ tokens, lexeme.raw ≠ endSymbol) ∧
    last.raw = endSymbol ∧
    (∃ cursor scanner, ReadInTurn input.language (Cursor.start input.text) .empty log cursor
      scanner) ∧
    solidShapes root.leaves = tokens.flatMap Lexeme.shapes ++ last.extras.map Leaf.shape ∧
    MissingAreEmpty root.leaves

theorem Faithful.holdsAll {log : List Lexeme} {token : Lexeme} {root : Subtree}
    (faithful : ({ state with lookahead := some token } : ParseState).Faithful input log)
    (atEnd : token.raw = endSymbol)
    (leaves : root.leaves = stackLeaves state.stack ++ token.extras) :
    HoldsAll input log root := by
  obtain ⟨consumed, split, noEnd, held⟩ := faithful.split
  have solid := faithful.atHand.extras
  have alone : state.pending = [] := by
    cases pending : state.pending with
    | nil => rfl
    | cons next rest =>
        refine absurd atEnd (faithful.endsLast token ?_)
        simp [queue, pending]
  have queued : asRead ({ state with lookahead := some token } : ParseState).queue =
      [token.asRead] := by
    simp [queue, alone, asRead, Lexeme.asRead, faithful.atHand.real atEnd]
  rw [queued] at split
  refine ⟨consumed, token.asRead, split, noEnd, atEnd, ⟨_, _, faithful.inTurn⟩, ?_, ?_⟩
  · rw [leaves, solidShapes_append, held, solidShapes_of_solid solid]
    rfl
  · rw [leaves]
    refine faithful.missing.append fun leaf member isMissing => ?_
    exact absurd isMissing (by simp [solid leaf member])

/-- The children of the accepted node take its place among the extras. -/
theorem leavesOf_unwrapped {entries : List StackEntry}
    (nodes : ∀ entry ∈ entries, entry.isExtra = false →
      ∃ head children, entry.subtree = .node head children) :
    Subtree.leavesOf (entries.flatMap fun entry =>
      if entry.isExtra then [entry.subtree] else entry.subtree.children) =
        Subtree.leavesOf (entries.map StackEntry.subtree) := by
  induction entries with
  | nil => rfl
  | cons entry entries ih =>
      have rest := ih fun other member => nodes other (List.mem_cons_of_mem _ member)
      rw [List.flatMap_cons, Subtree.leavesOf_append, rest, List.map_cons, Subtree.leavesOf]
      cases extra : entry.isExtra with
      | true => simp [Subtree.leavesOf]
      | false =>
          obtain ⟨head, children, same⟩ := nodes entry List.mem_cons_self extra
          simp [same, Subtree.leaves, Subtree.children]

theorem Sound.isNode_of_accept (sound : state.Sound language grammar)
    (represents : language.tables.Represents grammar) {symbol : SymbolId}
    (action : language.action state.topState symbol = .accept) {entry : StackEntry}
    (member : entry ∈ state.stack) (isStructural : entry.isExtra = false) :
    ∃ head children, entry.subtree = .node head children := by
  rw [sound.topState_eq] at action
  obtain ⟨accepted, alone, isStart⟩ := acceptance_spec represents sound.stack action
  have listed : entry ∈ structural state.stack := by
    simp [structural, member, isStructural]
  rw [alone, List.mem_singleton] at listed
  subst listed
  have derivation := sound.stack.derivations entry member isStructural
  cases shape : entry.subtree with
  | node head children => exact ⟨head, children, rfl⟩
  | leaf token =>
      rw [shape] at derivation isStart
      simp only [Subtree.IsDerivation, represents.isTerminal_eq, FlatGrammar.isTerminal,
        decide_eq_true_eq] at derivation
      have range := represents.numbered.start_range.1
      simp only [Subtree.symbol] at isStart
      omega

theorem Sound.leaves_accept (sound : state.Sound language grammar) (input : ParseInput)
    (represents : language.tables.Represents grammar) (token : Lexeme) {symbol : SymbolId}
    (action : language.action state.topState symbol = .accept) :
    (state.accept input token).leaves = stackLeaves state.stack ++ token.extras := by
  have unwrapped := @leavesOf_unwrapped state.stack.reverse fun entry member isStructural =>
    sound.isNode_of_accept represents action (List.mem_reverse.mp member) isStructural
  unfold ParseState.accept
  split
  all_goals
    simp only [Subtree.root, Subtree.leaves, Subtree.leavesOf_append, unwrapped,
      Subtree.leavesOf_map_leaf]
    rfl

theorem leaves_wrapAll (input : ParseInput) (token : Lexeme) :
    (state.wrapAll input token).leaves = stackLeaves state.stack ++ token.extras := by
  cases stack : state.stack with
  | nil => simp [wrapAll, stack, Subtree.root, Subtree.leaves, stackLeaves, Subtree.leavesOf]
  | cons entry below =>
      have wrapped : (state.wrapAll input token).leaves =
          Subtree.leavesOf (state.stack.reverse.map StackEntry.subtree) ++
            Subtree.leavesOf (token.extras.map Subtree.leaf) := by
        simp [wrapAll, stack, Subtree.root, Subtree.leaves, Subtree.leavesOf, Subtree.ofError]
      rw [wrapped, Subtree.leavesOf_map_leaf, stack]
      rfl

/-- The tree at the end of a parse holds everything that was read. -/
theorem Faithful.done {log : List Lexeme} (faithful : state.Faithful input log)
    (sound : state.Sound input.language grammar)
    (represents : input.language.tables.Represents grammar)
    (knowsNoEnd : input.language.lexer.KnowsNoEnd) (fresh : input.reuse = []) {root : Subtree}
    {stats : ParseStats} (stepped : state.step input = .ok (.done root stats)) :
    HoldsAll input (log ++ state.readBy input) root := by
  obtain ⟨token, middle, taken, effect⟩ := effect_of_step fresh stepped
  obtain ⟨_, middleSound, stack⟩ := sound.current taken
  have held := faithful.current knowsNoEnd taken
  cases effect with
  | accept action =>
      have read : state.readBy input = state.readNow token := by simp [readBy, taken, action]
      have isEnd := represents.eq_end_of_accept action
      have top : middle.topState = state.topState := by simp only [topState, stack]
      rw [← top] at action
      rw [read]
      exact held.holdsAll ((held.atHand.symbol _ rfl).mp isEnd)
        (middleSound.leaves_accept input represents _ action)
  | wrapAll lacks notInserted _ atEnd =>
      have rawEnd : token.raw = endSymbol := atEnd
      have read : middle.readAhead input
          { token with symbol := some (state.symbolOf input token) } = [] := by
        simp [readAhead, rawEnd]
      rw [readBy_of_lacks taken lacks, read, List.append_nil]
      exact held.holdsAll atEnd (leaves_wrapAll input _)

theorem Faithful.run {log : List Lexeme} {limit : Nat} {root : Subtree} {stats : ParseStats}
    (faithful : state.Faithful input log) (sound : state.Sound input.language grammar)
    (represents : input.language.tables.Represents grammar)
    (knowsNoEnd : input.language.lexer.KnowsNoEnd) (fresh : input.reuse = [])
    (ran : runSteps input limit state = .ok (root, stats)) :
    HoldsAll input (log ++ runReads input limit state) root := by
  induction limit generalizing state log with
  | zero => cases ran
  | succ limit ih =>
      unfold runSteps at ran
      rw [runReads]
      cases stepped : state.step input with
      | error fault =>
          rw [stepped] at ran
          cases ran
      | ok outcome =>
          rw [stepped] at ran
          cases outcome with
          | done root stats =>
              obtain ⟨rfl, rfl⟩ := Prod.mk.inj (Except.ok.inj ran)
              rw [List.append_nil]
              exact faithful.done sound represents knowsNoEnd fresh stepped
          | next after =>
              rw [← List.append_assoc]
              exact ih (faithful.step represents knowsNoEnd fresh stepped)
                (sound.step represents rfl fresh stepped) ran

end ParseState

/-! ## The text of a tree -/

theorem Lexeme.shapes_pieces {lexeme : Lexeme} (solid : ∀ leaf ∈ lexeme.extras,
    leaf.missing = false) :
    lexeme.pieces.map Piece.shape =
      if lexeme.raw = endSymbol then lexeme.extras.map Leaf.shape else lexeme.shapes := by
  rw [pieces, List.map_append, shapes_piecesFrom, solidShapes_of_solid solid]
  split
  · simp
  · rfl

/-- What is read in turn before the end of the input are pieces of the text, one behind the
other. -/
theorem ReadInTurn.tiles {language : Language} (knowsNoEnd : language.lexer.KnowsNoEnd)
    {cursor after : Cursor} {scanner final : ScannerState} {tokens : List Lexeme} {last : Lexeme}
    (inTurn : ReadInTurn language cursor scanner (tokens ++ [last]) after final)
    (ordinary : ∀ lexeme ∈ tokens, lexeme.raw ≠ endSymbol) (atEnd : last.raw = endSymbol) :
    ∃ place, Tiles cursor ((tokens ++ [last]).flatMap Lexeme.pieces) place ∧
      (∀ c ∈ place.rest, isBlank c = true) ∧
      ((tokens ++ [last]).flatMap Lexeme.pieces).map Piece.shape =
        tokens.flatMap Lexeme.shapes ++ last.extras.map Leaf.shape := by
  induction tokens generalizing cursor scanner with
  | nil =>
      cases inTurn with
      | cons lexed rest =>
          cases rest
          have read := readFrom_of_lex knowsNoEnd lexed
          obtain ⟨place, tiles, blank, _⟩ := read.atEnd atEnd
          have shapes := Lexeme.shapes_pieces read.extras
          rw [if_pos atEnd] at shapes
          exact ⟨place, by simpa using tiles, blank, by simpa using shapes⟩
  | cons token tokens ih =>
      cases inTurn with
      | cons lexed rest =>
          have read := readFrom_of_lex knowsNoEnd lexed
          have here := ordinary token List.mem_cons_self
          obtain ⟨place, tiles, blank, shapes⟩ :=
            ih rest fun lexeme member => ordinary lexeme (List.mem_cons_of_mem _ member)
          have own := Lexeme.shapes_pieces read.extras
          rw [if_neg here] at own
          refine ⟨place, (read.token here).append tiles, blank, ?_⟩
          rw [List.cons_append, List.flatMap_cons, List.map_append, own, shapes,
            List.flatMap_cons, List.append_assoc]

open ParseState

/-- The leaves of the tree of a parse without an old tree are what was read, piece by piece, and
the end of the input was read last. -/
theorem pieces_of_run {input : ParseInput} {grammar : FlatGrammar}
    (represents : input.language.tables.Represents grammar)
    (knowsNoEnd : input.language.lexer.KnowsNoEnd) (fresh : input.reuse = []) {root : Subtree}
    {stats : ParseStats} (ran : runParse input = .ok (root, stats)) :
    ∃ tokens last, input.lexemesRead = tokens ++ [last] ∧
      (∀ token ∈ tokens, token.raw ≠ endSymbol) ∧
      (∀ lexeme ∈ input.lexemesRead, lexeme.WellKept) ∧
      piecesFrom 0 root.leaves = input.lexemesRead.flatMap Lexeme.pieces := by
  obtain ⟨tokens, last, log, ordinary, atEnd, ⟨cursor, state, inTurn⟩, shapes, missing⟩ :=
    (faithful_initial input).run (sound_initial _) represents knowsNoEnd fresh ran
  have read : input.lexemesRead = tokens ++ [last] := log
  rw [log] at inTurn
  obtain ⟨place, tiles, _, sameShapes⟩ := inTurn.tiles knowsNoEnd ordinary atEnd
  rw [read, piecesFrom_eq_layOut missing, shapes, ← sameShapes]
  exact ⟨tokens, last, rfl, ordinary, (inTurn.asRead_eq knowsNoEnd).2.2, tiles.eq_layOut.symm⟩

/-- All that is read in a parse without an old tree lies among the leaves of the tree. -/
theorem pieces_subset_of_run {input : ParseInput} {grammar : FlatGrammar}
    (represents : input.language.tables.Represents grammar)
    (knowsNoEnd : input.language.lexer.KnowsNoEnd) (fresh : input.reuse = []) {root : Subtree}
    {stats : ParseStats} (ran : runParse input = .ok (root, stats)) {lexeme : Lexeme}
    (read : lexeme ∈ input.lexemesRead) : lexeme.pieces ⊆ piecesFrom 0 root.leaves := by
  obtain ⟨_, _, _, _, _, laidOut⟩ := pieces_of_run represents knowsNoEnd fresh ran
  intro piece member
  rw [laidOut]
  exact List.mem_flatMap.mpr ⟨lexeme, read, member⟩

/-- The leaves of the tree of a parse without an old tree are the tokens and extras that were
read before the end of the input, each exactly once and where it was read; only blank space
lies before them and behind the last one, and missing tokens take no text. -/
theorem leaves_tile_text_of_fresh_parse {source : Grammar} {scanner : Scanner}
    {grammar : FlatGrammar} {language : Language}
    (flattened : FlatGrammar.ofGrammar source = .ok grammar)
    (loaded : Language.ofGrammar source scanner = .ok language)
    (numbered : language.tables.Numbered) {config : ParseConfig} {text : String} {number : Nat}
    {tree : Tree} {stats : ParseStats}
    (parsed : (Parser.mk config (some ⟨number, language⟩)).parse text none = .ok (tree, stats)) :
    ∃ tokens last, (ParseInput.mk language text.toList config []).lexemesRead = tokens ++ [last] ∧
      (∀ token ∈ tokens, token.raw ≠ endSymbol) ∧ last.raw = endSymbol ∧
      (∃ cursor state, ReadInTurn language (Cursor.start text.toList) .empty (tokens ++ [last])
        cursor state) ∧
      piecesFrom 0 tree.root.leaves = (tokens ++ [last]).flatMap Lexeme.pieces ∧
      (∃ place, Tiles (Cursor.start text.toList) (piecesFrom 0 tree.root.leaves) place ∧
        ∀ c ∈ place.rest, isBlank c = true) ∧
      MissingAreEmpty tree.root.leaves := by
  have represents := Language.represents_of_ofGrammar loaded flattened numbered
  have knowsNoEnd := Language.knowsNoEnd_of_ofGrammar loaded
  obtain ⟨root, ran, rfl⟩ := Parser.parse_ok parsed
  obtain ⟨tokens, last, log, ordinary, atEnd, ⟨cursor, state, inTurn⟩, shapes, missing⟩ :=
    (faithful_initial ⟨language, text.toList, config, []⟩).run (sound_initial _) represents
      knowsNoEnd rfl ran
  rw [log] at inTurn
  obtain ⟨place, tiles, blank, sameShapes⟩ := inTurn.tiles knowsNoEnd ordinary atEnd
  have laidOut : piecesFrom 0 root.leaves = (tokens ++ [last]).flatMap Lexeme.pieces := by
    rw [piecesFrom_eq_layOut missing, shapes, ← sameShapes]
    exact tiles.eq_layOut.symm
  exact ⟨tokens, last, log, ordinary, atEnd, ⟨cursor, state, inTurn⟩, laidOut,
    ⟨place, laidOut ▸ tiles, blank⟩, missing⟩

set_option maxRecDepth 10000 in
theorem leaves_tile_text_of_pair :
    ∃ grammar language tree stats, FlatGrammar.ofGrammar pairGrammar = .ok grammar ∧
      Language.ofGrammar pairGrammar .noExternals = .ok language ∧ language.tables.Numbered ∧
      (Parser.mk {} (some ⟨0, language⟩)).parse "a a b" none = .ok (tree, stats) ∧
      ∃ tokens last,
        (ParseInput.mk language "a a b".toList {} []).lexemesRead = tokens ++ [last] ∧
        (∀ token ∈ tokens, token.raw ≠ endSymbol) ∧ last.raw = endSymbol ∧
        (∃ cursor state, ReadInTurn language (Cursor.start "a a b".toList) .empty
          (tokens ++ [last]) cursor state) ∧
        piecesFrom 0 tree.root.leaves = (tokens ++ [last]).flatMap Lexeme.pieces ∧
        (∃ place, Tiles (Cursor.start "a a b".toList) (piecesFrom 0 tree.root.leaves) place ∧
          ∀ c ∈ place.rest, isBlank c = true) ∧
        MissingAreEmpty tree.root.leaves := by
  obtain ⟨grammar, language, flattened, loaded, numbered⟩ := pairGrammar_loads
  have shown : ((Language.ofGrammar pairGrammar .noExternals).toOption.bind fun language =>
      ((Parser.mk {} (some ⟨0, language⟩)).parse "a a b" none).toOption.map fun result =>
        result.1.rootNode.info.hasError) = some true := by cbv
  simp only [loaded, Except.toOption, Option.bind_some] at shown
  cases parsed : (Parser.mk {} (some ⟨0, language⟩)).parse "a a b" none with
  | error failure => simp [parsed] at shown
  | ok result =>
      obtain ⟨tree, stats⟩ := result
      exact ⟨grammar, language, tree, stats, flattened, loaded, numbered, parsed,
        leaves_tile_text_of_fresh_parse flattened loaded numbered parsed⟩

end Lalr
