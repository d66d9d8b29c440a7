import Lalr.Proofs.Parser.Effect
import Lalr.Proofs.Tree.Bare

set_option autoImplicit false

/-!
Parses in lockstep. A parse without an old tree pays no attention to how far reading looked ahead:
two states that differ in margins alone take the same steps, to states that do so again.
-/

namespace Lalr

open Lalr.Text

/-- A lexeme without the end of what it depends on. -/
def Lexeme.loose (lexeme : Lexeme) : Lexeme :=
  { lexeme with examinedEnd := 0 }

/-- An entry without the margins in its subtree. -/
def StackEntry.bare (entry : StackEntry) : StackEntry :=
  ⟨entry.state, entry.subtree.bare, entry.start, entry.length, by
    rw [Subtree.length_bare, entry.length_eq]⟩

/-- A state of a parse without margins and figures. -/
def ParseState.bare (state : ParseState) : ParseState :=
  { state with
    stack := state.stack.map StackEntry.bare
    lookahead := state.lookahead.map Lexeme.loose
    pending := state.pending.map Lexeme.loose
    stats := {} }

/-- What a step leads to, without margins and figures. -/
def ParseStep.bare : ParseStep → ParseStep
  | .next state => .next state.bare
  | .done root _ => .done root.bare {}

namespace StackEntry

@[simp] theorem state_bare (entry : StackEntry) : entry.bare.state = entry.state := rfl

@[simp] theorem subtree_bare (entry : StackEntry) : entry.bare.subtree = entry.subtree.bare := rfl

@[simp] theorem start_bare (entry : StackEntry) : entry.bare.start = entry.start := rfl

@[simp] theorem length_bare (entry : StackEntry) : entry.bare.length = entry.length := rfl

@[simp] theorem isExtra_bare (entry : StackEntry) : entry.bare.isExtra = entry.isExtra :=
  Subtree.isExtra_bare _

@[simp] theorem bare_bare (entry : StackEntry) : entry.bare.bare = entry.bare := by
  simp [bare]

@[simp] theorem totalLength_map_bare (entries : List StackEntry) :
    totalLength (entries.map bare) = totalLength entries := by
  induction entries with
  | nil => rfl
  | cons entry entries ih => simp [totalLength, ih]

theorem bare_ofSubtree (state : StateId) (subtree : Subtree) (start : Nat) :
    (ofSubtree state subtree start).bare = ofSubtree state subtree.bare start := by
  simp [ofSubtree, bare]

theorem ofEntries_congr {head head' : NodeHead} (same : head.bare = head'.bare)
    {entries entries' : List StackEntry} (alike : entries.map bare = entries'.map bare)
    (state : StateId) (start : Nat) :
    (ofEntries state head entries start).bare = (ofEntries state head' entries' start).bare := by
  have subtrees := congrArg (List.map subtree) alike
  have total := totalLength_map_bare entries
  rw [alike, totalLength_map_bare] at total
  simp only [List.map_map, Function.comp_def, subtree_bare] at subtrees
  simp [ofEntries, bare, Subtree.bare, Subtree.bares_eq_map, same, Function.comp_def, subtrees,
    total]

end StackEntry

@[simp] theorem Lexeme.loose_loose (lexeme : Lexeme) : lexeme.loose.loose = lexeme.loose := rfl

theorem Lexeme.bare_toLeaf (lexeme : Lexeme) (symbol : SymbolId) (top : StateId) :
    (lexeme.loose.toLeaf symbol top).bare = (lexeme.toLeaf symbol top).bare := rfl

@[simp] theorem resolveSymbol_loose (language : Language) (state : StateId) (lexeme : Lexeme) :
    resolveSymbol language state lexeme.loose = resolveSymbol language state lexeme := rfl

/-- Computations with like results go on alike. -/
theorem map_bind_congr {α β γ δ : Type} {first second : Except Fault α} {forget : α → γ}
    (same : first.map forget = second.map forget) {next other : α → Except Fault β}
    {ignore : β → δ}
    (alike : ∀ left right, forget left = forget right →
      (next left).map ignore = (other right).map ignore) :
    (first >>= next).map ignore = (second >>= other).map ignore := by
  cases first with
  | error fault =>
      cases second with
      | error fault' => exact congrArg Except.error (Except.error.inj same)
      | ok right => cases same
  | ok left =>
      cases second with
      | error fault' => cases same
      | ok right => exact alike left right (Except.ok.inj same)

namespace ParseState

variable (input : ParseInput) (state : ParseState)

@[simp] theorem bare_bare : state.bare.bare = state.bare := by
  have entries : StackEntry.bare ∘ StackEntry.bare = StackEntry.bare :=
    funext StackEntry.bare_bare
  have lexemes : Lexeme.loose ∘ Lexeme.loose = Lexeme.loose := rfl
  simp [bare, entries, lexemes]

@[simp] theorem topState_bare : state.bare.topState = state.topState := by
  simp [topState, bare, Function.comp_def]

@[simp] theorem stackEnd_bare : state.bare.stackEnd = state.stackEnd := by
  simp only [stackEnd, bare, List.head?_map, Option.map_map]
  rfl

@[simp] theorem structuralStates_bare : state.bare.structuralStates = state.structuralStates := by
  simp [structuralStates, bare, List.filter_map, Function.comp_def]

/-! ## Pushing and popping -/

theorem bare_push (next : StateId) (subtree : Subtree) :
    (state.push next subtree).bare = state.bare.push next subtree.bare := by
  have place := stackEnd_bare state
  simp only [push, bare, List.map_cons, StackEntry.bare_ofSubtree] at place ⊢
  rw [place]

theorem bare_pushAll (next : StateId) (subtrees : List Subtree) :
    (state.pushAll next subtrees).bare =
      state.bare.pushAll next (subtrees.map Subtree.bare) := by
  induction subtrees generalizing state with
  | nil => rfl
  | cons subtree subtrees ih =>
      refine (ih (state.push next subtree)).trans ?_
      rw [bare_push]
      rfl

theorem takeTrailing_map_bare (trailing stack : List StackEntry) :
    takeTrailing (trailing.map StackEntry.bare) (stack.map StackEntry.bare) =
      ((takeTrailing trailing stack).1.map StackEntry.bare,
        (takeTrailing trailing stack).2.map StackEntry.bare) := by
  induction stack generalizing trailing with
  | nil => rfl
  | cons entry stack ih =>
      simp only [takeTrailing, List.map_cons, StackEntry.isExtra_bare]
      split
      · exact ih (entry :: trailing)
      · rfl

theorem popStructural_map_bare (removed stack : List StackEntry) (count : Nat) :
    popStructural (removed.map StackEntry.bare) count (stack.map StackEntry.bare) =
      ((popStructural removed count stack).1.map StackEntry.bare,
        (popStructural removed count stack).2.map StackEntry.bare) := by
  induction stack generalizing removed count with
  | nil => cases count <;> rfl
  | cons entry stack ih =>
      cases count with
      | zero => rfl
      | succ count =>
          simp only [popStructural, List.map_cons, StackEntry.isExtra_bare]
          split
          · exact ih (entry :: removed) (count + 1)
          · exact ih (entry :: removed) count

/-! ## Steps -/

variable {input state} {other : ParseState} {token token' : Lexeme}

/-- What two states have in common that differ in margins and figures alone. -/
structure Alikeness (state other : ParseState) : Prop where
  stack : state.stack.map StackEntry.bare = other.stack.map StackEntry.bare
  lookahead : state.lookahead.map Lexeme.loose = other.lookahead.map Lexeme.loose
  pending : state.pending.map Lexeme.loose = other.pending.map Lexeme.loose
  cursor : state.cursor = other.cursor
  scannerState : state.scannerState = other.scannerState
  missingInsertedAt : state.missingInsertedAt = other.missingInsertedAt

theorem bare_eq_iff : state.bare = other.bare ↔ Alikeness state other := by
  constructor
  · intro same
    simp only [bare, ParseState.mk.injEq] at same
    obtain ⟨stack, lookahead, pending, cursor, scannerState, missingInsertedAt, _⟩ := same
    exact ⟨stack, lookahead, pending, cursor, scannerState, missingInsertedAt⟩
  · intro same
    simp only [bare, same.stack, same.lookahead, same.pending, same.cursor, same.scannerState,
      same.missingInsertedAt]

theorem topState_congr (same : state.bare = other.bare) : state.topState = other.topState := by
  rw [← topState_bare, same, topState_bare]

theorem structuralStates_congr (same : state.bare = other.bare) :
    state.structuralStates = other.structuralStates := by
  rw [← structuralStates_bare, same, structuralStates_bare]

theorem push_congr (same : state.bare = other.bare) (next : StateId)
    {subtree subtree' : Subtree} (alike : subtree.bare = subtree'.bare) :
    (state.push next subtree).bare = (other.push next subtree').bare := by
  rw [bare_push, bare_push, same, alike]

theorem pushExtras_congr (same : state.bare = other.bare) (next : StateId)
    (alike : token.loose = token'.loose) :
    (state.pushExtras next token).bare = (other.pushExtras next token').bare := by
  have extras : token.extras = token'.extras := (Lexeme.mk.inj alike).2.1
  rw [pushExtras, pushExtras, bare_pushAll, bare_pushAll, same, extras]

theorem toLeaf_congr (alike : token.loose = token'.loose) (symbol : SymbolId) (top : StateId) :
    (Subtree.leaf (token.toLeaf symbol top)).bare =
      (Subtree.leaf (token'.toLeaf symbol top)).bare := by
  rw [Subtree.bare, Subtree.bare, ← token.bare_toLeaf, alike, token'.bare_toLeaf]

theorem resolveSymbol_congr (alike : token.loose = token'.loose) (language : Language)
    (top : StateId) : resolveSymbol language top token = resolveSymbol language top token' := by
  rw [← resolveSymbol_loose, alike, resolveSymbol_loose]

/-- A token and the state behind it, without margins. -/
def bareToken (result : Lexeme × ParseState) : Lexeme × ParseState :=
  (result.1.loose, result.2.bare)

/-- An outcome of recovery and the state it leads to, without margins. -/
def bareTried {α : Type} (result : α × ParseState) : α × ParseState :=
  (result.1, result.2.bare)

theorem readLexeme_congr (same : state.bare = other.bare) (mode : ValidExternals) :
    (state.readLexeme input mode).map bareToken = (other.readLexeme input mode).map bareToken := by
  have alike := bare_eq_iff.mp same
  unfold readLexeme
  rw [alike.cursor, alike.scannerState]
  cases lex input.language other.cursor mode other.scannerState with
  | error fault => rfl
  | ok result =>
      have after : (state.advancePast result.1 result.2).bare =
          (other.advancePast result.1 result.2).bare :=
        congrArg (fun known : ParseState => known.advancePast result.1 result.2) same
      simp only [bind, Except.bind, Except.map, pure, Except.pure, bareToken, after]

theorem nextLexeme_congr (same : state.bare = other.bare) :
    (state.nextLexeme input).map bareToken = (other.nextLexeme input).map bareToken := by
  have alike := bare_eq_iff.mp same
  have pending := alike.pending
  unfold nextLexeme
  cases here : state.pending with
  | nil =>
      rw [here, List.map_nil, eq_comm, List.map_eq_nil_iff] at pending
      rw [pending, topState_congr same]
      exact readLexeme_congr same _
  | cons token waiting =>
      rw [here, List.map_cons, eq_comm, List.map_eq_cons_iff] at pending
      obtain ⟨token', waiting', there, first, rest⟩ := pending
      rw [there]
      have after : ({ state with pending := waiting } : ParseState).bare =
          ({ other with pending := waiting' } : ParseState).bare :=
        bare_eq_iff.mpr { alike with pending := rest.symm }
      simp only [Except.map, bareToken, first, after]

theorem current_congr (same : state.bare = other.bare) :
    (state.current input).map bareToken = (other.current input).map bareToken := by
  have alike := bare_eq_iff.mp same
  have lookahead := alike.lookahead
  unfold current
  cases here : state.lookahead with
  | none =>
      rw [here, Option.map_none, eq_comm, Option.map_eq_none_iff] at lookahead
      rw [lookahead]
      exact nextLexeme_congr same
  | some token =>
      rw [here, Option.map_some, eq_comm, Option.map_eq_some_iff] at lookahead
      obtain ⟨token', there, first⟩ := lookahead
      rw [there]
      have after : ({ state with lookahead := none } : ParseState).bare =
          ({ other with lookahead := none } : ParseState).bare :=
        bare_eq_iff.mpr { alike with lookahead := rfl }
      simp only [pure, Except.pure, Except.map, bareToken, first, after]

theorem exists_current_of_bare_eq (same : state.bare = other.bare) {middle : ParseState}
    (taken : state.current input = .ok (token, middle)) :
    ∃ token' middle', other.current input = .ok (token', middle') ∧
      token.loose = token'.loose ∧ middle.bare = middle'.bare := by
  have both : (state.current input).map bareToken = (other.current input).map bareToken :=
    current_congr same
  rw [taken] at both
  cases other_ : other.current input with
  | error fault =>
      rw [other_] at both
      cases both
  | ok result =>
      rw [other_] at both
      obtain ⟨token', middle'⟩ := result
      obtain ⟨alike, after⟩ := Prod.mk.inj (Except.ok.inj both)
      exact ⟨token', middle', rfl, alike, after⟩

theorem shift_congr (same : state.bare = other.bare) (alike : token.loose = token'.loose)
    (next : StateId) (symbol : SymbolId) :
    (state.shift next symbol token).bare = (other.shift next symbol token').bare := by
  unfold shift
  rw [topState_congr same]
  exact push_congr (pushExtras_congr same _ alike) _ (toLeaf_congr alike symbol _)

theorem reduce_congr (same : state.bare = other.bare) (alike : token.loose = token'.loose)
    (id : ProductionId) (production : ProductionInfo) :
    (state.reduce input id production token).bare =
      (other.reduce input id production token').bare := by
  have both := bare_eq_iff.mp same
  have split := (takeTrailing_map_bare [] state.stack).symm.trans
    ((congrArg (takeTrailing []) both.stack).trans (takeTrailing_map_bare [] other.stack))
  unfold reduce
  generalize takeTrailing [] state.stack = first at split ⊢
  generalize takeTrailing [] other.stack = second at split ⊢
  obtain ⟨trailing, stack⟩ := first
  obtain ⟨trailing', stack'⟩ := second
  obtain ⟨behind, rest⟩ := Prod.mk.inj split
  have cut := (popStructural_map_bare [] stack production.rhs.length).symm.trans
    ((congrArg (popStructural [] production.rhs.length) rest).trans
      (popStructural_map_bare [] stack' production.rhs.length))
  dsimp only at behind ⊢
  generalize popStructural [] production.rhs.length stack = first at cut ⊢
  generalize popStructural [] production.rhs.length stack' = second at cut ⊢
  obtain ⟨children, below⟩ := first
  obtain ⟨children', below'⟩ := second
  obtain ⟨inner, under⟩ := Prod.mk.inj cut
  have low : ({ state with stack := below } : ParseState).bare =
      ({ other with stack := below' } : ParseState).bare :=
    bare_eq_iff.mpr { both with stack := under }
  have begins : children.head?.map StackEntry.start = children'.head?.map StackEntry.start := by
    have first := congrArg (fun entries : List StackEntry => entries.head?.map StackEntry.start)
      inner
    simp only [List.head?_map, Option.map_map] at first
    exact first
  have total : StackEntry.totalLength children = StackEntry.totalLength children' := by
    rw [← StackEntry.totalLength_map_bare, inner, StackEntry.totalLength_map_bare]
  have pushed : trailing.map (Subtree.bare ∘ StackEntry.subtree) =
      trailing'.map (Subtree.bare ∘ StackEntry.subtree) := by
    have subtrees := congrArg (List.map StackEntry.subtree) behind
    simp only [List.map_map] at subtrees
    exact subtrees
  have last : ({ state with stack := below } : ParseState).stackEnd =
      ({ other with stack := below' } : ParseState).stackEnd := by
    rw [← stackEnd_bare, low, stackEnd_bare]
  obtain ⟨raw, mode, symbol, ordinary, start⟩ : token.raw = token'.raw ∧ token.mode = token'.mode ∧
      token.symbol = token'.symbol ∧ token.isOrdinary = token'.isOrdinary ∧
      token.start = token'.start := by
    simp only [Lexeme.loose, Lexeme.mk.injEq] at alike
    simp [Lexeme.isOrdinary, alike]
  simp only [topState_congr low, last, begins, raw, mode, symbol, ordinary, start, total]
  rw [bare_pushAll, bare_pushAll, List.map_map, List.map_map, pushed]
  refine congrArg (fun known : ParseState => known.pushAll _ _) (bare_eq_iff.mpr
    { bare_eq_iff.mp low with stack := ?_ })
  exact congrArg₂ List.cons (StackEntry.ofEntries_congr rfl inner _ _) under

theorem lexAhead_congr (same : state.bare = other.bare) :
    (state.lexAhead input).map bare = (other.lexAhead input).map bare := by
  unfold lexAhead
  rw [topState_congr same]
  refine map_bind_congr (readLexeme_congr same _) ?_
  rintro ⟨token, after⟩ ⟨token', after'⟩ read
  obtain ⟨first, rest⟩ := Prod.mk.inj read
  have alike := bare_eq_iff.mp rest
  have readAhead : ({ token with fresh := false } : Lexeme).loose =
      ({ token' with fresh := false } : Lexeme).loose :=
    congrArg (fun lexeme : Lexeme => { lexeme with fresh := false }) first
  refine congrArg Except.ok (bare_eq_iff.mpr { alike with pending := ?_ })
  simp only [List.map_append, List.map_cons, List.map_nil, readAhead]
  exact congrArg (· ++ _) alike.pending

theorem readUpTo_congr (same : state.bare = other.bare) (place : Nat) :
    (state.readUpTo input place).map bare = (other.readUpTo input place).map bare := by
  have pending := (bare_eq_iff.mp same).pending
  have lengths : state.pending.length = other.pending.length := by
    simpa using congrArg List.length pending
  have ends : (state.pending.getLast?.any fun lexeme => lexeme.raw == endSymbol) =
      other.pending.getLast?.any fun lexeme => lexeme.raw == endSymbol := by
    have last := congrArg (fun lexemes : List Lexeme =>
      lexemes.getLast?.any fun lexeme => lexeme.raw == endSymbol) pending
    simp only [List.getLast?_map, Option.any_map] at last
    exact last
  unfold readUpTo
  rw [lengths, ends]
  split
  · exact lexAhead_congr same
  · exact congrArg Except.ok same

theorem findAcceptable_congr (same : state.bare = other.bare) (attempts place : Nat) :
    (state.findAcceptable input attempts place).map bareTried =
      (other.findAcceptable input attempts place).map bareTried := by
  induction attempts generalizing state other place with
  | zero => exact congrArg (fun known => Except.ok (none, known)) same
  | succ attempts ih =>
      rw [findAcceptable_succ, findAcceptable_succ]
      refine map_bind_congr (readUpTo_congr same place) fun after after' read => ?_
      have waiting : (after.pending[place]?).map Lexeme.loose =
          (after'.pending[place]?).map Lexeme.loose := by
        rw [← List.getElem?_map, (bare_eq_iff.mp read).pending, List.getElem?_map]
      cases here : after.pending[place]? with
      | none =>
          rw [here, Option.map_none, eq_comm, Option.map_eq_none_iff] at waiting
          rw [waiting]
          exact congrArg (fun known => Except.ok (none, known)) read
      | some candidate =>
          rw [here, Option.map_some, eq_comm, Option.map_eq_some_iff] at waiting
          obtain ⟨candidate', there, first⟩ := waiting
          have raw : candidate'.raw = candidate.raw := (Lexeme.mk.inj first).2.2.2.1
          simp only [there, topState_congr read, structuralStates_congr read,
            resolveSymbol_congr first.symm, raw]
          split
          · exact congrArg (fun known => Except.ok (some (place + 1), known)) read
          · split
            · exact congrArg (fun known => Except.ok (none, known)) read
            · exact ih read (place + 1)

theorem missingSymbol?_congr (same : state.bare = other.bare) (alike : token.loose = token'.loose) :
    state.missingSymbol? input token = other.missingSymbol? input token' := by
  have start : token.start = token'.start := (Lexeme.mk.inj alike).1
  have bridged (states : List StateId) : bridges input states token = bridges input states token' := by
    funext symbol
    simp only [bridges, resolveSymbol_congr alike]
  unfold missingSymbol?
  simp only [(bare_eq_iff.mp same).missingInsertedAt, start, structuralStates_congr same, bridged]

theorem insertMissing_congr (same : state.bare = other.bare) (alike : token.loose = token'.loose)
    (symbol : SymbolId) :
    (state.insertMissing input symbol token).bare =
      (other.insertMissing input symbol token').bare := by
  have start : token.start = token'.start := (Lexeme.mk.inj alike).1
  have waiting : ({ token with symbol := none } : Lexeme).loose =
      ({ token' with symbol := none } : Lexeme).loose :=
    congrArg (fun lexeme : Lexeme => { lexeme with symbol := none }) alike
  refine bare_eq_iff.mpr { bare_eq_iff.mp same with
    lookahead := ?_, pending := ?_, missingInsertedAt := congrArg some start }
  · simp only [insertMissing, topState_congr same, start]
  · exact congrArg₂ List.cons waiting (bare_eq_iff.mp same).pending

theorem skippedSubtrees_congr (top : StateId) {skipped skipped' : List Lexeme}
    (alike : skipped.map Lexeme.loose = skipped'.map Lexeme.loose) :
    (skipped.flatMap (skippedSubtrees top)).map Subtree.bare =
      (skipped'.flatMap (skippedSubtrees top)).map Subtree.bare := by
  have known (lexemes : List Lexeme) : (lexemes.flatMap (skippedSubtrees top)).map Subtree.bare =
      (lexemes.map Lexeme.loose).flatMap fun lexeme =>
        (skippedSubtrees top lexeme).map Subtree.bare := by
    rw [List.map_flatMap, List.flatMap_map]
    refine List.flatMap_congr fun lexeme _ => ?_
    rw [skippedSubtrees, skippedSubtrees, List.map_append, List.map_append]
    rfl
  rw [known, known, alike]

theorem ofError_congr {children children' : List Subtree}
    (alike : children.map Subtree.bare = children'.map Subtree.bare) :
    (Subtree.ofError children).bare = (Subtree.ofError children').bare := by
  simp only [Subtree.ofError, Subtree.bare, Subtree.bares_eq_map, alike]

/-- What is skipped to becomes the token at hand. -/
theorem skipped_congr (same : state.bare = other.bare) (count : Nat) :
    (match state.pending.drop count with
      | [] => pure (true, { state with pending := [] })
      | next :: pending => pure (true, { state with
          lookahead := some { next with symbol := none }, pending := pending }) :
        Except Fault (Bool × ParseState)).map bareTried =
    (match other.pending.drop count with
      | [] => pure (true, { other with pending := [] })
      | next :: pending => pure (true, { other with
          lookahead := some { next with symbol := none }, pending := pending }) :
        Except Fault (Bool × ParseState)).map bareTried := by
  have waiting := congrArg (List.drop count) (bare_eq_iff.mp same).pending
  rw [← List.map_drop, ← List.map_drop] at waiting
  cases here : state.pending.drop count with
  | nil =>
      rw [here, List.map_nil, eq_comm, List.map_eq_nil_iff] at waiting
      rw [waiting]
      exact congrArg (fun known => Except.ok (true, known))
        (bare_eq_iff.mpr { bare_eq_iff.mp same with pending := rfl })
  | cons next rest =>
      rw [here, List.map_cons, eq_comm, List.map_eq_cons_iff] at waiting
      obtain ⟨next', rest', there, first, later⟩ := waiting
      rw [there]
      have chosen : ({ next with symbol := none } : Lexeme).loose =
          ({ next' with symbol := none } : Lexeme).loose :=
        congrArg (fun lexeme : Lexeme => { lexeme with symbol := none }) first.symm
      exact congrArg (fun known => Except.ok (true, known)) (bare_eq_iff.mpr
        { bare_eq_iff.mp same with lookahead := congrArg some chosen, pending := later.symm })

theorem skipTokens_congr (same : state.bare = other.bare) (alike : token.loose = token'.loose) :
    (state.skipTokens input token).map bareTried =
      (other.skipTokens input token').map bareTried := by
  have raw : token.raw = token'.raw := (Lexeme.mk.inj alike).2.2.2.1
  unfold skipTokens
  rw [raw]
  split
  · exact congrArg (fun known => Except.ok (false, known)) same
  · refine map_bind_congr (findAcceptable_congr same _ _) ?_
    rintro ⟨found, after⟩ ⟨found', after'⟩ searched
    obtain ⟨rfl, read⟩ := Prod.mk.inj searched
    dsimp only at read ⊢
    cases found with
    | none => exact congrArg (fun known => Except.ok (false, known)) read
    | some count =>
        have skipped := congrArg (List.take (count - 1)) (bare_eq_iff.mp read).pending
        rw [← List.map_take, ← List.map_take] at skipped
        dsimp only
        rw [topState_congr read]
        refine skipped_congr (push_congr (pushExtras_congr read _ alike) _ (ofError_congr ?_)) _
        exact congrArg₂ List.cons (toLeaf_congr alike _ _) (skippedSubtrees_congr _ skipped)

theorem popEntries_congr (same : state.bare = other.bare) (alike : token.loose = token'.loose) :
    bareTried (state.popEntries input token) = bareTried (other.popEntries input token') := by
  have depth : state.popDepth? input token = other.popDepth? input token' := by
    simp only [popDepth?, structuralStates_congr same, resolveSymbol_congr alike]
  unfold popEntries
  rw [depth]
  cases other.popDepth? input token' with
  | none => exact congrArg (Prod.mk false) same
  | some depth =>
      have cut := (popStructural_map_bare [] state.stack depth).symm.trans
        ((congrArg (popStructural [] depth) (bare_eq_iff.mp same).stack).trans
          (popStructural_map_bare [] other.stack depth))
      dsimp only
      generalize popStructural [] depth state.stack = first at cut ⊢
      generalize popStructural [] depth other.stack = second at cut ⊢
      obtain ⟨removed, below⟩ := first
      obtain ⟨removed', below'⟩ := second
      obtain ⟨taken, under⟩ := Prod.mk.inj cut
      have low : ({ state with stack := below } : ParseState).bare =
          ({ other with stack := below' } : ParseState).bare :=
        bare_eq_iff.mpr { bare_eq_iff.mp same with stack := under }
      have children : (removed.map StackEntry.subtree).map Subtree.bare =
          (removed'.map StackEntry.subtree).map Subtree.bare := by
        have subtrees := congrArg (List.map StackEntry.subtree) taken
        simp only [List.map_map] at subtrees ⊢
        exact subtrees
      have waiting : ({ token with symbol := none } : Lexeme).loose =
          ({ token' with symbol := none } : Lexeme).loose :=
        congrArg (fun lexeme : Lexeme => { lexeme with symbol := none }) alike
      have pushed := push_congr low ({ state with stack := below } : ParseState).topState
        (ofError_congr children)
      rw [topState_congr low] at pushed
      dsimp only
      rw [topState_congr low]
      exact congrArg (Prod.mk true) (bare_eq_iff.mpr
        { bare_eq_iff.mp pushed with lookahead := congrArg some waiting })

theorem wrapToken_congr (same : state.bare = other.bare) (alike : token.loose = token'.loose) :
    (state.wrapToken token).bare = (other.wrapToken token').bare := by
  have raw : token.raw = token'.raw := (Lexeme.mk.inj alike).2.2.2.1
  unfold wrapToken
  rw [topState_congr same, raw]
  exact push_congr (pushExtras_congr same _ alike) _
    (ofError_congr (congrArg (· :: []) (toLeaf_congr alike _ _)))

theorem forest_congr (same : state.bare = other.bare) :
    (state.stack.reverse.map StackEntry.subtree).map Subtree.bare =
      (other.stack.reverse.map StackEntry.subtree).map Subtree.bare := by
  have subtrees := congrArg (List.map StackEntry.subtree ∘ List.reverse) (bare_eq_iff.mp same).stack
  simp only [Function.comp_apply, ← List.map_reverse, List.map_map] at subtrees ⊢
  exact subtrees

theorem root_congr {children children' : List Subtree}
    (alike : children.map Subtree.bare = children'.map Subtree.bare) (symbol : SymbolId)
    (production : Option ProductionId) :
    (Subtree.root symbol production children).bare =
      (Subtree.root symbol production children').bare := by
  simp only [Subtree.root, Subtree.bare, Subtree.bares_eq_map, alike]

theorem wrapAll_congr (same : state.bare = other.bare) (alike : token.loose = token'.loose) :
    (state.wrapAll input token).bare = (other.wrapAll input token').bare := by
  have extras : token.extras = token'.extras := (Lexeme.mk.inj alike).2.1
  have forest := forest_congr same
  unfold wrapAll
  rw [extras]
  generalize state.stack.reverse.map StackEntry.subtree = subtrees at forest ⊢
  generalize other.stack.reverse.map StackEntry.subtree = subtrees' at forest ⊢
  refine root_congr ?_ _ _
  rw [List.map_append, List.map_append]
  refine congrArg (· ++ _) ?_
  cases subtrees with
  | nil =>
      obtain rfl := List.map_eq_nil_iff.mp forest.symm
      rfl
  | cons subtree subtrees =>
      obtain ⟨subtree', rest, rfl, _⟩ := List.map_eq_cons_iff.mp forest.symm
      exact congrArg (· :: []) (ofError_congr forest)

theorem recover_congr (same : state.bare = other.bare) (alike : token.loose = token'.loose) :
    (state.recover input token).map ParseStep.bare =
      (other.recover input token').map ParseStep.bare := by
  have raw : token.raw = token'.raw := (Lexeme.mk.inj alike).2.2.2.1
  have inserted : state.insertion? input token = other.insertion? input token' := by
    simp only [insertion?, missingSymbol?_congr same alike]
  rw [recover_eq, recover_eq, inserted]
  cases other.insertion? input token' with
  | some symbol =>
      exact congrArg (fun known => Except.ok (ParseStep.next known))
        (insertMissing_congr same alike symbol)
  | none =>
      refine map_bind_congr (skipTokens_congr same alike) ?_
      rintro ⟨skipped, after⟩ ⟨skipped', after'⟩ tried
      obtain ⟨rfl, read⟩ := Prod.mk.inj tried
      dsimp only at read ⊢
      split
      · exact congrArg (fun known => Except.ok (ParseStep.next known)) read
      · have popped : bareTried (after.popEntries input token) =
            bareTried (after'.popEntries input token') := popEntries_congr read alike
        generalize after.popEntries input token = first at popped ⊢
        generalize after'.popEntries input token' = second at popped ⊢
        obtain ⟨popped, below⟩ := first
        obtain ⟨popped', below'⟩ := second
        obtain ⟨rfl, under⟩ := Prod.mk.inj popped
        dsimp only at under ⊢
        rw [raw]
        split
        · exact congrArg (fun known => Except.ok (ParseStep.next known)) under
        · split
          · exact congrArg (fun root => Except.ok (ParseStep.done root {}))
              (wrapAll_congr under alike)
          · exact congrArg (fun known => Except.ok (ParseStep.next known))
              (wrapToken_congr under alike)

theorem accept_congr (same : state.bare = other.bare) (alike : token.loose = token'.loose) :
    (state.accept input token).bare = (other.accept input token').bare := by
  have extras : token.extras = token'.extras := (Lexeme.mk.inj alike).2.1
  have entries := (bare_eq_iff.mp same).stack
  have children (stack : List StackEntry) : (stack.reverse.flatMap fun entry =>
      if entry.isExtra then [entry.subtree] else entry.subtree.children).map Subtree.bare =
      (stack.map StackEntry.bare).reverse.flatMap fun entry =>
        if entry.isExtra then [entry.subtree] else entry.subtree.children := by
    rw [List.map_flatMap, ← List.map_reverse, List.flatMap_map]
    refine List.flatMap_congr fun entry _ => ?_
    rw [StackEntry.isExtra_bare, StackEntry.subtree_bare]
    split
    · rfl
    · rw [Subtree.children_bare]
  have found (stack : List StackEntry) : (stack.find? fun entry => !entry.isExtra).map
      (fun entry => (entry.subtree.symbol, entry.subtree.production)) =
      ((stack.map StackEntry.bare).find? fun entry => !entry.isExtra).map
        fun entry => (entry.subtree.symbol, entry.subtree.production) := by
    rw [List.find?_map, Option.map_map]
    simp only [Function.comp_def, StackEntry.isExtra_bare, StackEntry.subtree_bare,
      Subtree.symbol_bare, Subtree.production_bare]
  have whole := (children state.stack).trans (entries ▸ (children other.stack).symm)
  have first := (found state.stack).trans (entries ▸ (found other.stack).symm)
  have all := congrArg (· ++ (token'.extras.map Subtree.leaf).map Subtree.bare) whole
  rw [← List.map_append, ← List.map_append] at all
  unfold accept
  rw [extras]
  generalize state.stack.find? (fun entry => !entry.isExtra) = top at first ⊢
  generalize other.stack.find? (fun entry => !entry.isExtra) = top' at first ⊢
  cases top with
  | none =>
      obtain rfl := Option.map_eq_none_iff.mp first.symm
      exact root_congr all _ _
  | some entry =>
      obtain ⟨entry', rfl, parts⟩ := Option.map_eq_some_iff.mp first.symm
      obtain ⟨symbol, production⟩ := Prod.mk.inj parts
      dsimp only
      rw [symbol, production]
      exact root_congr all _ _

/-- Without an old tree, states that differ in margins and figures alone take the same steps. -/
theorem step_congr (fresh : input.reuse = []) (same : state.bare = other.bare) :
    (state.step input).map ParseStep.bare = (other.step input).map ParseStep.bare := by
  rw [step_eq, step_eq]
  refine map_bind_congr (current_congr same) ?_
  rintro ⟨token, after⟩ ⟨token', after'⟩ taken
  obtain ⟨alike, rest⟩ := Prod.mk.inj taken
  dsimp only at alike rest ⊢
  have symbol : state.symbolOf input token = other.symbolOf input token' := by
    have known : token.symbol = token'.symbol := by
      simp only [Lexeme.loose, Lexeme.mk.injEq] at alike
      exact alike.2.2.2.2.2.2.2.2.2.2.2.2.2
    rw [symbolOf, symbolOf, known, topState_congr same, resolveSymbol_congr alike]
  rw [symbol, topState_congr same]
  generalize other.symbolOf input token' = symbol
  have named : ({ token with symbol := some symbol } : Lexeme).loose =
      ({ token' with symbol := some symbol } : Lexeme).loose :=
    congrArg (fun lexeme : Lexeme => { lexeme with symbol := some symbol }) alike
  unfold act
  cases input.language.action other.topState symbol with
  | shift next =>
      simp only [reuse?_eq_none fresh]
      exact congrArg (fun known => Except.ok (ParseStep.next known))
        (shift_congr rest named next symbol)
  | reduce id =>
      dsimp only
      cases input.language.production? id with
      | none => exact recover_congr rest named
      | some production =>
          exact congrArg (fun known => Except.ok (ParseStep.next known)) (bare_eq_iff.mpr
            { bare_eq_iff.mp (reduce_congr rest named id production) with
              lookahead := congrArg some named })
  | accept =>
      exact congrArg (fun root => Except.ok (ParseStep.done root {})) (accept_congr rest named)
  | error => exact recover_congr rest named
  | goto next => exact recover_congr rest named

/-- A state that differs from another one in margins and figures alone goes on as that does. -/
theorem exists_step_of_bare_eq (fresh : input.reuse = []) (same : state.bare = other.bare)
    {outcome : ParseStep} (stepped : state.step input = .ok outcome) :
    ∃ outcome', other.step input = .ok outcome' ∧ outcome.bare = outcome'.bare := by
  have both := step_congr fresh same
  rw [stepped] at both
  cases other_ : other.step input with
  | error fault =>
      rw [other_] at both
      cases both
  | ok outcome' =>
      rw [other_] at both
      exact ⟨outcome', rfl, Except.ok.inj both⟩

end ParseState

end Lalr
