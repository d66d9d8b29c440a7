import Lalr.Proofs.Parser.Tiling
import Lalr.Proofs.Tree.Outline

set_option autoImplicit false

/-!
Two parses side by side. Where two texts are read alike, token by token, a parser does the same
with both of them: it shifts, reduces, recovers and ends at the same steps, and builds trees of
one outline.
-/

namespace Lalr

open Lalr.Text

/-! ## Lexemes -/

/-- A lexeme without its lengths and places. -/
def Lexeme.outline (lexeme : Lexeme) : Lexeme :=
  { lexeme with
    start := 0
    extras := lexeme.extras.map Leaf.outline
    tokenStart := 0
    padding := 0
    size := 0
    examinedEnd := 0 }

/-- Lexemes of one outline that start, begin and end at corresponding places. Either both of them
or none stands right behind the token before it. -/
structure Lexeme.Alike (starts ends : Nat → Nat → Prop) (lexeme other : Lexeme) : Prop where
  outline : lexeme.outline = other.outline
  adjacent : lexeme.isAdjacent = other.isAdjacent
  start : starts lexeme.start other.start
  moved : Moved ends lexeme.start other.start lexeme.shapes other.shapes

namespace Lexeme.Alike

variable {starts ends : Nat → Nat → Prop} {lexeme other : Lexeme}

theorem raw (alike : lexeme.Alike starts ends other) : lexeme.raw = other.raw :=
  (congrArg Lexeme.raw alike.outline :)

theorem word (alike : lexeme.Alike starts ends other) : lexeme.word = other.word :=
  (congrArg Lexeme.word alike.outline :)

theorem scannerAfter (alike : lexeme.Alike starts ends other) :
    lexeme.scannerAfter = other.scannerAfter :=
  (congrArg Lexeme.scannerAfter alike.outline :)

theorem symbol (alike : lexeme.Alike starts ends other) : lexeme.symbol = other.symbol :=
  (congrArg Lexeme.symbol alike.outline :)

theorem extras (alike : lexeme.Alike starts ends other) :
    lexeme.extras.map Leaf.outline = other.extras.map Leaf.outline :=
  (congrArg Lexeme.extras alike.outline :)

theorem named (alike : lexeme.Alike starts ends other) (symbol : Option SymbolId) :
    ({ lexeme with symbol := symbol } : Lexeme).Alike starts ends { other with symbol := symbol } :=
  ⟨(congrArg (fun lexeme : Lexeme => { lexeme with symbol := symbol }) alike.outline :),
    alike.adjacent, alike.start, alike.moved⟩

theorem readAhead (alike : lexeme.Alike starts ends other) :
    lexeme.readAhead.Alike starts ends other.readAhead :=
  ⟨(congrArg Lexeme.readAhead alike.outline :), alike.adjacent, alike.start, alike.moved⟩

theorem asRead (alike : lexeme.Alike starts ends other) :
    lexeme.asRead.Alike starts ends other.asRead :=
  ⟨(congrArg Lexeme.asRead alike.outline :), alike.adjacent, alike.start, alike.moved⟩

theorem toLeaf (alike : lexeme.Alike starts ends other) (symbol : SymbolId) (state : StateId) :
    (lexeme.toLeaf symbol state).outline = (other.toLeaf symbol state).outline :=
  (congrArg (fun lexeme : Lexeme => (lexeme.toLeaf symbol state).outline) alike.outline :)

theorem resolveSymbol (alike : lexeme.Alike starts ends other) (language : Language)
    (state : StateId) :
    resolveSymbol language state lexeme = Lalr.resolveSymbol language state other := by
  rw [Lexeme.resolveSymbol_eq, Lexeme.resolveSymbol_eq, alike.adjacent, Lexeme.readAs,
    Lexeme.readAs, alike.word, alike.raw]

theorem ofMissing {place place' : Nat} (same : starts place place') (ended : ends place place')
    (symbol : SymbolId) (mode : ValidExternals) :
    (Lexeme.ofMissing symbol place mode).Alike starts ends (.ofMissing symbol place' mode) :=
  ⟨rfl, rfl, same, .cons ended ended (.nil ended)⟩

end Lexeme.Alike

/-! ## States -/

/-- An entry of a stack without lengths and places. -/
def StackEntry.outline (entry : StackEntry) : StateId × Subtree :=
  (entry.state, entry.subtree.outline)

/-- States of two parses that have done the same so far. -/
structure ParseState.Alike (starts ends : Nat → Nat → Prop) (related : Cursor → Cursor → Prop)
    (state other : ParseState) : Prop where
  stack : state.stack.map StackEntry.outline = other.stack.map StackEntry.outline
  lookahead : Option.Rel (Lexeme.Alike starts ends) state.lookahead other.lookahead
  pending : List.Forall₂ (Lexeme.Alike starts ends) state.pending other.pending
  cursor : related state.cursor other.cursor
  scannerState : state.scannerState = other.scannerState
  missingInsertedAt : Option.Rel starts state.missingInsertedAt other.missingInsertedAt

/-- What two parses do in one step. -/
inductive ParseStep.Alike (starts ends : Nat → Nat → Prop) (related : Cursor → Cursor → Prop) :
    ParseStep → ParseStep → Prop where
  | next {state other : ParseState} : state.Alike starts ends related other →
      ParseStep.Alike starts ends related (.next state) (.next other)
  | done {root root' : Subtree} {stats stats' : ParseStats} : root.outline = root'.outline →
      ParseStep.Alike starts ends related (.done root stats) (.done root' stats')

theorem isExtra_of_outline {entry other : StackEntry} (same : entry.outline = other.outline) :
    entry.isExtra = other.isExtra := by
  have extra := congrArg (fun entry => entry.2.isExtra) same
  simpa only [StackEntry.outline, Subtree.isExtra_outline, StackEntry.isExtra] using extra

theorem takeTrailing_alike {trailing trailing' stack stack' : List StackEntry}
    (taken : trailing.map StackEntry.outline = trailing'.map StackEntry.outline)
    (same : stack.map StackEntry.outline = stack'.map StackEntry.outline) :
    (takeTrailing trailing stack).1.map StackEntry.outline =
        (takeTrailing trailing' stack').1.map StackEntry.outline ∧
      (takeTrailing trailing stack).2.map StackEntry.outline =
        (takeTrailing trailing' stack').2.map StackEntry.outline := by
  induction stack generalizing trailing trailing' stack' with
  | nil =>
      obtain rfl := List.map_eq_nil_iff.mp same.symm
      exact ⟨taken, rfl⟩
  | cons entry stack ih =>
      cases stack' with
      | nil => cases same
      | cons entry' stack' =>
          obtain ⟨alike, below⟩ := List.cons.inj same
          simp only [takeTrailing, isExtra_of_outline alike]
          split
          · refine ih ?_ below
            simp only [List.map_cons, alike, taken]
          · exact ⟨taken, same⟩

namespace ParseState

theorem popStructural_alike {removed removed' stack stack' : List StackEntry} (count : Nat)
    (taken : removed.map StackEntry.outline = removed'.map StackEntry.outline)
    (same : stack.map StackEntry.outline = stack'.map StackEntry.outline) :
    (popStructural removed count stack).1.map StackEntry.outline =
        (popStructural removed' count stack').1.map StackEntry.outline ∧
      (popStructural removed count stack).2.map StackEntry.outline =
        (popStructural removed' count stack').2.map StackEntry.outline := by
  induction stack generalizing removed removed' stack' count with
  | nil =>
      obtain rfl := List.map_eq_nil_iff.mp same.symm
      cases count <;> exact ⟨taken, rfl⟩
  | cons entry stack ih =>
      cases stack' with
      | nil => cases same
      | cons entry' stack' =>
          obtain ⟨alike, below⟩ := List.cons.inj same
          have grown : (entry :: removed).map StackEntry.outline =
              (entry' :: removed').map StackEntry.outline := by
            simp only [List.map_cons, alike, taken]
          cases count with
          | zero => exact ⟨taken, same⟩
          | succ count =>
              simp only [popStructural, isExtra_of_outline alike]
              split
              · exact ih _ grown below
              · exact ih _ grown below

namespace Alike

variable {starts ends : Nat → Nat → Prop} {related : Cursor → Cursor → Prop}
  {state other : ParseState} {token token' : Lexeme} (input : ParseInput) (text : List Char)

theorem topState (alike : state.Alike starts ends related other) :
    state.topState = other.topState := by
  have states := congrArg (fun stack => (stack.map Prod.fst).head?) alike.stack
  simp only [List.map_map, List.head?_map] at states
  unfold ParseState.topState
  exact congrArg (Option.getD · 0) states

theorem structuralStates (alike : state.Alike starts ends related other) :
    state.structuralStates = other.structuralStates := by
  have states := congrArg (fun stack : List (StateId × Subtree) =>
    (stack.filter fun entry => !entry.2.isExtra).map Prod.fst) alike.stack
  simp only [List.filter_map, List.map_map] at states
  have filtered : ((fun entry : StateId × Subtree => !entry.2.isExtra) ∘ StackEntry.outline) =
      fun entry => !entry.isExtra := by
    funext entry
    simp [StackEntry.outline, StackEntry.isExtra]
  rw [filtered] at states
  exact congrArg (· ++ [0]) states

/-! ### Pushing and reducing -/

theorem push (alike : state.Alike starts ends related other) (next : StateId)
    {subtree subtree' : Subtree} (same : subtree.outline = subtree'.outline) :
    (state.push next subtree).Alike starts ends related (other.push next subtree') := by
  refine ⟨?_, alike.lookahead, alike.pending, alike.cursor, alike.scannerState,
    alike.missingInsertedAt⟩
  simp only [ParseState.push, List.map_cons, alike.stack]
  simp only [StackEntry.outline, StackEntry.ofSubtree, same]

theorem pushAll (alike : state.Alike starts ends related other) (next : StateId)
    {subtrees subtrees' : List Subtree}
    (same : subtrees.map Subtree.outline = subtrees'.map Subtree.outline) :
    (state.pushAll next subtrees).Alike starts ends related (other.pushAll next subtrees') := by
  induction subtrees generalizing subtrees' state other with
  | nil =>
      obtain rfl := List.map_eq_nil_iff.mp same.symm
      exact alike
  | cons subtree subtrees ih =>
      cases subtrees' with
      | nil => cases same
      | cons subtree' subtrees' =>
          obtain ⟨first, rest⟩ := List.cons.inj same
          exact ih (alike.push next first) rest

theorem outlines_extras (tokens : token.Alike starts ends token') :
    (token.extras.map Subtree.leaf).map Subtree.outline =
      (token'.extras.map Subtree.leaf).map Subtree.outline := by
  have extras := congrArg (List.map Subtree.leaf) tokens.extras
  simp only [List.map_map] at extras ⊢
  exact extras

theorem push_token (alike : state.Alike starts ends related other)
    (tokens : token.Alike starts ends token') (top next : StateId) {subtree subtree' : Subtree}
    (same : subtree.outline = subtree'.outline) :
    ((state.pushExtras top token).push next subtree).Alike starts ends related
      ((other.pushExtras top token').push next subtree') :=
  (alike.pushAll top (outlines_extras tokens)).push next same

theorem shift (alike : state.Alike starts ends related other)
    (tokens : token.Alike starts ends token') (next : StateId) (symbol : SymbolId) :
    (state.shift next symbol token).Alike starts ends related (other.shift next symbol token') := by
  unfold ParseState.shift
  rw [← alike.topState]
  exact alike.push_token tokens _ next (congrArg Subtree.leaf (tokens.toLeaf symbol _))

theorem with_stack {stack stack' : List StackEntry}
    (alike : state.Alike starts ends related other)
    (same : stack.map StackEntry.outline = stack'.map StackEntry.outline) :
    ({ state with stack := stack } : ParseState).Alike starts ends related
      { other with stack := stack' } :=
  ⟨same, alike.lookahead, alike.pending, alike.cursor, alike.scannerState,
    alike.missingInsertedAt⟩

theorem outlines_subtrees {entries entries' : List StackEntry}
    (same : entries.map StackEntry.outline = entries'.map StackEntry.outline) :
    (entries.map StackEntry.subtree).map Subtree.outline =
      (entries'.map StackEntry.subtree).map Subtree.outline := by
  have subtrees := congrArg (List.map Prod.snd) same
  simp only [List.map_map] at subtrees ⊢
  exact subtrees

theorem reduce (alike : state.Alike starts ends related other) (id : ProductionId)
    (production : ProductionInfo) (token token' : Lexeme) :
    (state.reduce input id production token).Alike starts ends related
      (other.reduce { input with text := text } id production token') := by
  obtain ⟨trailing, rest⟩ := takeTrailing_alike rfl alike.stack
  obtain ⟨children, below⟩ := popStructural_alike production.rhs.length rfl rest
  have under := (alike.with_stack below).topState
  unfold ParseState.reduce
  dsimp only
  rw [← under]
  refine Alike.pushAll ?_ _ (outlines_subtrees trailing)
  refine alike.with_stack ?_
  simp only [List.map_cons, below]
  simp only [StackEntry.outline, StackEntry.ofEntries, Subtree.outline, NodeHead.outline,
    Subtree.outlines_eq_map, outlines_subtrees children]

/-! ### Ends -/

theorem outlines_root {symbol : SymbolId} {production : Option ProductionId}
    {children children' : List Subtree}
    (same : children.map Subtree.outline = children'.map Subtree.outline) :
    (Subtree.root symbol production children).outline =
      (Subtree.root symbol production children').outline := by
  simp only [Subtree.root, Subtree.outline, Subtree.outlines_eq_map, same]

theorem outline_ofError {children children' : List Subtree}
    (same : children.map Subtree.outline = children'.map Subtree.outline) :
    (Subtree.ofError children).outline = (Subtree.ofError children').outline := by
  simp only [Subtree.ofError, Subtree.outline, Subtree.outlines_eq_map, same]

theorem stack_reverse (alike : state.Alike starts ends related other) :
    state.stack.reverse.map StackEntry.outline = other.stack.reverse.map StackEntry.outline := by
  rw [List.map_reverse, List.map_reverse, alike.stack]

theorem outlines_unwrapped {entries entries' : List StackEntry}
    (same : entries.map StackEntry.outline = entries'.map StackEntry.outline) :
    (entries.flatMap fun entry =>
        if entry.isExtra then [entry.subtree] else entry.subtree.children).map Subtree.outline =
      (entries'.flatMap fun entry =>
        if entry.isExtra then [entry.subtree] else entry.subtree.children).map
          Subtree.outline := by
  induction entries generalizing entries' with
  | nil =>
      obtain rfl := List.map_eq_nil_iff.mp same.symm
      rfl
  | cons entry entries ih =>
      cases entries' with
      | nil => cases same
      | cons entry' entries' =>
          obtain ⟨alike, rest⟩ := List.cons.inj same
          have subtree : entry.subtree.outline = entry'.subtree.outline :=
            (congrArg Prod.snd alike :)
          have children := congrArg Subtree.children subtree
          rw [Subtree.children_outline, Subtree.children_outline] at children
          simp only [List.flatMap_cons, List.map_append, ih rest, isExtra_of_outline alike]
          split
          · simp only [List.map_cons, List.map_nil, subtree]
          · rw [children]

theorem accept (alike : state.Alike starts ends related other)
    (tokens : token.Alike starts ends token') :
    (state.accept input token).outline =
      (other.accept { input with text := text } token').outline := by
  have children := outlines_unwrapped alike.stack_reverse
  have whole := congrArg (· ++ (token.extras.map Subtree.leaf).map Subtree.outline) children
  simp only [outlines_extras tokens] at whole
  have extras := outlines_extras tokens
  have found := congrArg (List.find? fun entry : StateId × Subtree => !entry.2.isExtra) alike.stack
  have filtered : ((fun entry : StateId × Subtree => !entry.2.isExtra) ∘ StackEntry.outline) =
      fun entry => !entry.isExtra := by
    funext entry
    simp [StackEntry.outline, StackEntry.isExtra]
  rw [List.find?_map, List.find?_map, filtered] at found
  unfold ParseState.accept
  dsimp only
  cases first : state.stack.find? fun entry => !entry.isExtra with
  | none =>
      rw [first] at found
      rw [Option.map_eq_none_iff.mp found.symm]
      exact outlines_root (by rw [List.map_append, List.map_append, children, extras])
  | some entry =>
      rw [first] at found
      obtain ⟨entry', first', same⟩ := Option.map_eq_some_iff.mp found.symm
      have subtree : entry'.subtree.outline = entry.subtree.outline := (congrArg Prod.snd same :)
      have symbol := congrArg Subtree.symbol subtree
      have production := congrArg Subtree.production subtree
      rw [Subtree.symbol_outline, Subtree.symbol_outline] at symbol
      rw [Subtree.production_outline, Subtree.production_outline] at production
      simp only [first', symbol, production]
      exact outlines_root (by rw [List.map_append, List.map_append, children, extras])

theorem wrapAll (alike : state.Alike starts ends related other)
    (tokens : token.Alike starts ends token') :
    (state.wrapAll input token).outline =
      (other.wrapAll { input with text := text } token').outline := by
  have subtrees := outlines_subtrees alike.stack_reverse
  have empty := congrArg List.isEmpty subtrees
  simp only [List.isEmpty_map] at empty
  unfold ParseState.wrapAll
  refine outlines_root ?_
  simp only [List.map_append, outlines_extras tokens, List.isEmpty_map, empty]
  split
  · rfl
  · simp only [List.map_cons, List.map_nil, outline_ofError subtrees]

end Alike

end ParseState

/-! ## Reading -/

/-- From related places on, two texts are read alike as long as it is known what is read of the
first one. -/
def ReadsAlike (language : Language) (starts ends : Nat → Nat → Prop)
    (related : Cursor → Cursor → Prop) (known : Lexeme → Prop) : Prop :=
  ∀ {cursor other next : Cursor} {mode : ValidExternals} {scanner : ScannerState}
    {lexeme : Lexeme}, related cursor other →
      lex language cursor mode scanner = .ok (lexeme, next) → known lexeme →
        ∃ lexeme' next', lex language other mode scanner = .ok (lexeme', next') ∧
          lexeme.Alike starts ends lexeme' ∧ related next next'

theorem asRead_of_lex {language : Language} (knowsNoEnd : language.lexer.KnowsNoEnd)
    {cursor next : Cursor} {mode : ValidExternals} {scanner : ScannerState} {lexeme : Lexeme}
    (lexed : lex language cursor mode scanner = .ok (lexeme, next)) : lexeme.asRead = lexeme :=
  List.head_eq_of_cons_eq ((ReadInTurn.cons lexed (.nil _ _)).asRead_eq knowsNoEnd).1

theorem map_raw_eq {starts ends : Nat → Nat → Prop} {lexemes others : List Lexeme}
    (alike : List.Forall₂ (Lexeme.Alike starts ends) lexemes others) :
    lexemes.map Lexeme.raw = others.map Lexeme.raw := by
  induction alike with
  | nil => rfl
  | cons here _ ih => rw [List.map_cons, List.map_cons, here.raw, ih]

theorem rel_getElem? {α β : Type} {relation : α → β → Prop} {first : List α} {second : List β}
    (alike : List.Forall₂ relation first second) (place : Nat) :
    Option.Rel relation first[place]? second[place]? := by
  induction alike generalizing place with
  | nil => exact .none
  | cons here _ ih =>
      cases place with
      | zero => exact .some here
      | succ place => simpa using ih place

namespace ParseState.Alike

variable {starts ends : Nat → Nat → Prop} {related : Cursor → Cursor → Prop}
  {known : Lexeme → Prop} {state other after : ParseState} {token token' lexeme : Lexeme}
  {input : ParseInput} (text : List Char)

theorem readLexeme (alike : state.Alike starts ends related other)
    (reads : ReadsAlike input.language starts ends related known) {mode : ValidExternals}
    (read : state.readLexeme input mode = .ok (lexeme, after)) (isKnown : known lexeme) :
    ∃ lexeme' after', other.readLexeme { input with text := text } mode = .ok (lexeme', after') ∧
      lexeme.Alike starts ends lexeme' ∧ after.Alike starts ends related after' := by
  obtain ⟨⟨lexed, next⟩, lexing, rest⟩ := exists_of_bind_eq_ok read
  obtain ⟨rfl, rfl⟩ := Prod.mk.inj (Except.ok.inj rest)
  obtain ⟨lexeme', next', lexing', lexemes, behind⟩ := reads alike.cursor lexing isKnown
  rw [alike.scannerState] at lexing'
  refine ⟨lexeme', other.advancePast lexeme' next', ?_, lexemes, ?_⟩
  · simp only [ParseState.readLexeme, lexing', bind, Except.bind]
    rfl
  · exact ⟨alike.stack, alike.lookahead, alike.pending, behind, lexemes.scannerAfter,
      alike.missingInsertedAt⟩

/-- Both parses have corresponding tokens at hand. -/
theorem current (alike : state.Alike starts ends related other)
    (reads : ReadsAlike input.language starts ends related known)
    (taken : state.current input = .ok (token, after))
    (isKnown : ∀ lexeme ∈ state.readNow token, known lexeme) :
    ∃ token' after', other.current { input with text := text } = .ok (token', after') ∧
      token.Alike starts ends token' ∧ after.Alike starts ends related after' ∧
      List.Forall₂ (Lexeme.Alike starts ends) (state.readNow token) (other.readNow token') := by
  have lookaheads := alike.lookahead
  have waiting := alike.pending
  unfold ParseState.current ParseState.nextLexeme at taken
  unfold ParseState.current ParseState.nextLexeme
  unfold readNow at isKnown ⊢
  cases ahead : state.lookahead with
  | some lexeme =>
      rw [ahead] at taken lookaheads
      obtain ⟨rfl, rfl⟩ := Prod.mk.inj (Except.ok.inj taken)
      cases ahead' : other.lookahead with
      | none => rw [ahead'] at lookaheads; cases lookaheads
      | some lexeme' =>
          rw [ahead'] at lookaheads
          cases lookaheads with
          | some lexemes =>
              exact ⟨lexeme', _, rfl, lexemes, ⟨alike.stack, .none, alike.pending, alike.cursor,
                alike.scannerState, alike.missingInsertedAt⟩, .nil⟩
  | none =>
      rw [ahead] at taken lookaheads isKnown
      cases ahead' : other.lookahead with
      | some lexeme' => rw [ahead'] at lookaheads; cases lookaheads
      | none =>
          cases pending : state.pending with
          | cons lexeme rest =>
              rw [pending] at taken waiting
              obtain ⟨rfl, rfl⟩ := Prod.mk.inj (Except.ok.inj taken)
              cases pending' : other.pending with
              | nil => rw [pending'] at waiting; cases waiting
              | cons lexeme' rest' =>
                  rw [pending'] at waiting
                  cases waiting with
                  | cons lexemes behind =>
                      exact ⟨lexeme', _, rfl, lexemes, ⟨alike.stack, .none, behind, alike.cursor,
                        alike.scannerState, alike.missingInsertedAt⟩, .nil⟩
          | nil =>
              rw [pending] at taken waiting isKnown
              cases pending' : other.pending with
              | cons lexeme' rest' => rw [pending'] at waiting; cases waiting
              | nil =>
                  obtain ⟨token', after', read, lexemes, states⟩ := alike.readLexeme
                    text reads taken (isKnown token (by simp))
                  rw [alike.topState] at read
                  exact ⟨token', after', read, lexemes, states, .cons lexemes .nil⟩

variable (input) in
theorem symbolOf (alike : state.Alike starts ends related other)
    (tokens : token.Alike starts ends token') :
    state.symbolOf input token = other.symbolOf { input with text := text } token' := by
  rw [ParseState.symbolOf, ParseState.symbolOf, tokens.symbol, alike.topState,
    tokens.resolveSymbol]

/-! ### Recovery -/

theorem bridges (tokens : token.Alike starts ends token') (states : List StateId)
    (symbol : SymbolId) :
    ParseState.bridges input states token symbol =
      ParseState.bridges { input with text := text } states token' symbol := by
  unfold ParseState.bridges
  simp only [tokens.resolveSymbol]

variable (input) in
/-- A missing token is put in before both tokens or before none, since a place of the one text
corresponds to at most one of the other. -/
theorem insertion? (unique : Relator.BiUnique starts)
    (alike : state.Alike starts ends related other) (tokens : token.Alike starts ends token') :
    state.insertion? input token = other.insertion? { input with text := text } token' := by
  have inserted : state.missingInsertedAt = some token.start ↔
      other.missingInsertedAt = some token'.start := by
    have places := alike.missingInsertedAt
    cases first : state.missingInsertedAt with
    | none =>
        rw [first] at places
        cases second : other.missingInsertedAt with
        | none => simp
        | some place' => rw [second] at places; cases places
    | some place =>
        rw [first] at places
        cases second : other.missingInsertedAt with
        | none => rw [second] at places; cases places
        | some place' =>
            rw [second] at places
            cases places with
            | some same =>
                rw [Option.some.injEq, Option.some.injEq]
                constructor
                · rintro rfl
                  exact unique.2 same tokens.start
                · rintro rfl
                  exact unique.1 same tokens.start
  unfold ParseState.insertion? ParseState.missingSymbol?
  simp only [inserted, alike.structuralStates, bridges text tokens]

theorem insertMissing (alike : state.Alike starts ends related other)
    (tokens : token.Alike starts ends token') (symbol : SymbolId) :
    (state.insertMissing input symbol token).Alike starts ends related
      (other.insertMissing { input with text := text } symbol token') := by
  have same := tokens.start
  have ended := tokens.moved.start
  unfold ParseState.insertMissing
  rw [alike.topState]
  exact ⟨alike.stack, .some (.ofMissing same ended symbol _), .cons (tokens.named none) alike.pending,
    alike.cursor, alike.scannerState, .some same⟩

theorem readUpTo (knowsNoEnd : input.language.lexer.KnowsNoEnd)
    (alike : state.Alike starts ends related other)
    (reads : ReadsAlike input.language starts ends related known) {place : Nat}
    (reading : state.readUpTo input place = .ok after)
    (isKnown : ∀ lexeme ∈ after.pending.drop state.pending.length, known lexeme.asRead) :
    ∃ after', other.readUpTo { input with text := text } place = .ok after' ∧
      after.Alike starts ends related after' := by
  have lasts := congrArg (fun raws : List SymbolId => raws.getLast?.any (· == endSymbol))
    (map_raw_eq alike.pending)
  simp only [List.getLast?_map, Option.any_map] at lasts
  have lengths := alike.pending.length_eq
  unfold ParseState.readUpTo at reading ⊢
  rw [← lengths, ← lasts]
  split at reading
  case isFalse idle =>
      rw [if_neg idle]
      obtain rfl := Except.ok.inj reading
      exact ⟨other, rfl, alike⟩
  case isTrue busy =>
      rw [if_pos busy]
      obtain ⟨⟨lexeme, middle⟩, lexing, rest⟩ := exists_of_bind_eq_ok reading
      obtain rfl := Except.ok.inj rest
      obtain ⟨⟨lexed, next⟩, lexed_, _⟩ := exists_of_bind_eq_ok lexing
      have same : lexed.asRead = lexed := asRead_of_lex knowsNoEnd lexed_
      obtain ⟨_, _, _, pending, _⟩ := readLexeme_ok lexing
      obtain ⟨rfl, _⟩ : lexed = lexeme ∧ _ := by
        simp only [ParseState.readLexeme, lexed_, bind, Except.bind] at lexing
        exact Prod.mk.inj (Except.ok.inj lexing)
      have read := isKnown lexed.readAhead (by simp [pending, Lexeme.readAhead])
      rw [show lexed.readAhead.asRead = lexed.asRead from rfl, same] at read
      obtain ⟨lexeme', middle', lexing', lexemes, states⟩ :=
        alike.readLexeme text reads lexing read
      rw [alike.topState] at lexing'
      refine ⟨{ middle' with pending := middle'.pending ++ [lexeme'.readAhead] }, ?_, ?_⟩
      · simp only [ParseState.lexAhead, lexing', bind, Except.bind]
        rfl
      · exact ⟨states.stack, states.lookahead,
          List.rel_append states.pending (.cons lexemes.readAhead .nil), states.cursor,
          states.scannerState, states.missingInsertedAt⟩

theorem findAcceptable (knowsNoEnd : input.language.lexer.KnowsNoEnd)
    (alike : state.Alike starts ends related other)
    (reads : ReadsAlike input.language starts ends related known) {attempts place : Nat}
    {found : Option Nat} (searched : state.findAcceptable input attempts place = .ok (found, after))
    (isKnown : ∀ lexeme ∈ after.pending.drop state.pending.length, known lexeme.asRead) :
    ∃ after', other.findAcceptable { input with text := text } attempts place =
        .ok (found, after') ∧ after.Alike starts ends related after' := by
  induction attempts generalizing place state other with
  | zero =>
      obtain ⟨rfl, rfl⟩ := Prod.mk.inj (Except.ok.inj searched)
      exact ⟨other, rfl, alike⟩
  | succ attempts ih =>
      rw [findAcceptable_succ] at searched ⊢
      obtain ⟨middle, reading, rest⟩ := exists_of_bind_eq_ok searched
      obtain ⟨read, ahead⟩ := readsAhead_of_readUpTo reading
      -- whatever has been read by now is still waiting at the end of the search
      have more : ∃ behind, after.pending = middle.pending ++ behind := by
        split at rest
        case h_1 =>
            obtain ⟨_, rfl⟩ := Prod.mk.inj (Except.ok.inj rest)
            exact ⟨[], by simp⟩
        case h_2 =>
            dsimp only at rest
            split at rest
            case isTrue =>
                obtain ⟨_, rfl⟩ := Prod.mk.inj (Except.ok.inj rest)
                exact ⟨[], by simp⟩
            case isFalse =>
                split at rest
                case isTrue =>
                    obtain ⟨_, rfl⟩ := Prod.mk.inj (Except.ok.inj rest)
                    exact ⟨[], by simp⟩
                case isFalse =>
                    obtain ⟨⟨_, later⟩, _⟩ := findAcceptable_ok rest
                    exact ⟨_, later.pending⟩
      obtain ⟨behind, whole⟩ := more
      have grown : state.pending.length ≤ middle.pending.length := by simp [ahead.pending]
      obtain ⟨middle', reading', states⟩ := alike.readUpTo text knowsNoEnd reads reading
        fun lexeme member => isKnown lexeme (by
          rw [whole, List.drop_append_of_le_length grown]
          exact List.mem_append_left _ member)
      have later : ∀ lexeme ∈ after.pending.drop middle.pending.length, known lexeme.asRead :=
        fun lexeme member => isKnown lexeme (by
          obtain ⟨extra, same⟩ := Nat.exists_eq_add_of_le grown
          rw [same, ← List.drop_drop] at member
          exact List.mem_of_mem_drop member)
      simp only [reading', bind, Except.bind]
      have candidates := rel_getElem? states.pending place
      cases waits : middle.pending[place]? with
      | none =>
          rw [waits] at rest candidates
          obtain ⟨rfl, rfl⟩ := Prod.mk.inj (Except.ok.inj rest)
          cases waits' : middle'.pending[place]? with
          | some candidate' => rw [waits'] at candidates; cases candidates
          | none => exact ⟨middle', rfl, states⟩
      | some candidate =>
          rw [waits] at rest candidates
          cases waits' : middle'.pending[place]? with
          | none => rw [waits'] at candidates; cases candidates
          | some candidate' =>
              rw [waits'] at candidates
              cases candidates with
              | some lexemes =>
                  dsimp only at rest ⊢
                  rw [← states.topState, ← states.structuralStates,
                    ← lexemes.resolveSymbol input.language middle.topState, ← lexemes.raw]
                  split at rest
                  case isTrue accepted =>
                      obtain ⟨rfl, rfl⟩ := Prod.mk.inj (Except.ok.inj rest)
                      rw [if_pos accepted]
                      exact ⟨middle', rfl, states⟩
                  case isFalse rejected =>
                      rw [if_neg rejected]
                      split at rest
                      case isTrue atEnd =>
                          obtain ⟨rfl, rfl⟩ := Prod.mk.inj (Except.ok.inj rest)
                          rw [if_pos atEnd]
                          exact ⟨middle', rfl, states⟩
                      case isFalse inside =>
                          rw [if_neg inside]
                          exact ih states rest later

theorem outlines_skipped {skipped skipped' : List Lexeme} (top : StateId)
    (lexemes : List.Forall₂ (Lexeme.Alike starts ends) skipped skipped') :
    (skipped.flatMap (skippedSubtrees top)).map Subtree.outline =
      (skipped'.flatMap (skippedSubtrees top)).map Subtree.outline := by
  induction lexemes with
  | nil => rfl
  | cons here _ ih =>
      simp only [List.flatMap_cons, List.map_append, ih, skippedSubtrees, outlines_extras here]
      rw [← here.raw]
      simp only [List.map_cons, List.map_nil, Subtree.outline, here.toLeaf]

theorem wrapToken (alike : state.Alike starts ends related other)
    (tokens : token.Alike starts ends token') :
    (state.wrapToken token).Alike starts ends related (other.wrapToken token') := by
  unfold ParseState.wrapToken
  rw [← alike.topState, ← tokens.raw]
  refine alike.push_token tokens _ _ (outline_ofError ?_)
  simp only [List.map_cons, List.map_nil, Subtree.outline, tokens.toLeaf]

variable (input) in
theorem popDepth? (alike : state.Alike starts ends related other)
    (tokens : token.Alike starts ends token') :
    state.popDepth? input token = other.popDepth? { input with text := text } token' := by
  unfold ParseState.popDepth?
  simp only [alike.structuralStates, tokens.resolveSymbol]

theorem popEntries (alike : state.Alike starts ends related other)
    (tokens : token.Alike starts ends token') {depth : Nat}
    (found : state.popDepth? input token = some depth) :
    (state.popEntries input token).2.Alike starts ends related
      (other.popEntries { input with text := text } token').2 := by
  have found' := found
  rw [alike.popDepth? input text tokens] at found'
  obtain ⟨removed, below⟩ := popStructural_alike depth rfl alike.stack
  have popped := alike.with_stack below
  unfold ParseState.popEntries
  simp only [found, found']
  rw [← popped.topState]
  have pushed := popped.push ({ state with
    stack := (popStructural [] depth state.stack).2 } : ParseState).topState
      (outline_ofError (outlines_subtrees removed))
  exact ⟨pushed.stack, .some (tokens.named none), pushed.pending, pushed.cursor,
    pushed.scannerState, pushed.missingInsertedAt⟩

theorem skipTokens (knowsNoEnd : input.language.lexer.KnowsNoEnd)
    (alike : state.Alike starts ends related other)
    (reads : ReadsAlike input.language starts ends related known)
    (tokens : token.Alike starts ends token') (unique : Relator.BiUnique starts)
    (notInserted : state.insertion? input token = none) {skipped : Bool}
    (skipping : state.skipTokens input token = .ok (skipped, after))
    (isKnown : ∀ lexeme ∈ state.readAhead input token, known lexeme) :
    ∃ after', other.skipTokens { input with text := text } token' = .ok (skipped, after') ∧
      after.Alike starts ends related after' ∧
      List.Forall₂ (Lexeme.Alike starts ends) (state.readAhead input token)
        (other.readAhead { input with text := text } token') := by
  have notInserted' := notInserted
  rw [alike.insertion? input text unique tokens] at notInserted'
  unfold ParseState.skipTokens at skipping ⊢
  unfold ParseState.readAhead at isKnown ⊢
  simp only [notInserted, notInserted', Option.isSome_none, Bool.false_or, ← tokens.raw]
    at isKnown ⊢
  split at skipping
  case isTrue idle =>
      obtain ⟨rfl, rfl⟩ := Prod.mk.inj (Except.ok.inj skipping)
      rw [if_pos idle, if_pos idle, if_pos idle]
      exact ⟨other, rfl, alike, .nil⟩
  case isFalse busy =>
      rw [if_neg busy] at isKnown
      rw [if_neg busy, if_neg busy, if_neg busy]
      obtain ⟨⟨found, middle⟩, searching, rest⟩ := exists_of_bind_eq_ok skipping
      simp only [searching] at isKnown ⊢
      obtain ⟨middle', searching', states⟩ := alike.findAcceptable text knowsNoEnd reads
        searching fun lexeme member => isKnown _ (List.mem_map_of_mem member)
      simp only [searching', bind, Except.bind]
      have ahead : List.Forall₂ (Lexeme.Alike starts ends)
          ((middle.pending.drop state.pending.length).map Lexeme.asRead)
          ((middle'.pending.drop other.pending.length).map Lexeme.asRead) := by
        rw [← alike.pending.length_eq]
        exact List.forall₂_map_left_iff.mpr (List.forall₂_map_right_iff.mpr
          ((List.forall₂_drop _ states.pending).imp fun _ _ lexemes => lexemes.asRead))
      cases found with
      | none =>
          obtain ⟨rfl, rfl⟩ := Prod.mk.inj (Except.ok.inj rest)
          exact ⟨middle', rfl, states, ahead⟩
      | some count =>
          dsimp only at rest ⊢
          rw [← states.topState]
          have children : (Subtree.leaf (token.toLeaf token.raw middle.topState) ::
              (middle.pending.take (count - 1)).flatMap
                (skippedSubtrees middle.topState)).map Subtree.outline =
              (Subtree.leaf (token'.toLeaf token.raw middle.topState) ::
                (middle'.pending.take (count - 1)).flatMap
                  (skippedSubtrees middle.topState)).map Subtree.outline := by
            simp only [List.map_cons, Subtree.outline, tokens.toLeaf,
              outlines_skipped middle.topState (List.forall₂_take (count - 1) states.pending)]
          have pushed := states.push_token tokens middle.topState middle.topState
            (outline_ofError children)
          have behind := List.forall₂_drop (count - 1) pushed.pending
          split at rest
          case h_1 none_left =>
              obtain ⟨rfl, rfl⟩ := Prod.mk.inj (Except.ok.inj rest)
              rw [none_left] at behind
              rw [List.forall₂_nil_left_iff.mp behind]
              exact ⟨_, rfl, ⟨pushed.stack, pushed.lookahead, .nil, pushed.cursor,
                pushed.scannerState, pushed.missingInsertedAt⟩, ahead⟩
          case h_2 next pending left =>
              obtain ⟨rfl, rfl⟩ := Prod.mk.inj (Except.ok.inj rest)
              rw [left] at behind
              obtain ⟨next', pending', first, waiting, left'⟩ :=
                List.forall₂_cons_left_iff.mp behind
              rw [left']
              exact ⟨_, rfl, ⟨pushed.stack, .some (first.named none), waiting, pushed.cursor,
                pushed.scannerState, pushed.missingInsertedAt⟩, ahead⟩

theorem recover (knowsNoEnd : input.language.lexer.KnowsNoEnd)
    (alike : state.Alike starts ends related other)
    (reads : ReadsAlike input.language starts ends related known)
    (tokens : token.Alike starts ends token') (unique : Relator.BiUnique starts)
    {outcome : ParseStep} (recovered : state.recover input token = .ok outcome)
    (isKnown : ∀ lexeme ∈ state.readAhead input token, known lexeme) :
    ∃ outcome', other.recover { input with text := text } token' = .ok outcome' ∧
      outcome.Alike starts ends related outcome' ∧
      List.Forall₂ (Lexeme.Alike starts ends) (state.readAhead input token)
        (other.readAhead { input with text := text } token') := by
  have inserts := alike.insertion? input text unique tokens
  rw [recover_eq] at recovered ⊢
  rw [← inserts]
  cases inserted : state.insertion? input token with
  | some symbol =>
      rw [inserted] at recovered inserts
      obtain rfl := Except.ok.inj recovered
      have none_ahead : state.readAhead input token = [] := by
        simp [ParseState.readAhead, inserted]
      have none_ahead' : other.readAhead { input with text := text } token' = [] := by
        simp [ParseState.readAhead, ← inserts]
      rw [none_ahead, none_ahead']
      exact ⟨_, rfl, .next (alike.insertMissing text tokens symbol), .nil⟩
  | none =>
      rw [inserted] at recovered
      obtain ⟨⟨skipped, middle⟩, skipping, rest⟩ := exists_of_bind_eq_ok recovered
      obtain ⟨middle', skipping', states, ahead⟩ := alike.skipTokens text knowsNoEnd reads
        tokens unique inserted skipping isKnown
      simp only [skipping', bind, Except.bind]
      dsimp only at rest
      cases skipped with
      | true =>
          obtain rfl := Except.ok.inj rest
          exact ⟨_, rfl, .next states, ahead⟩
      | false =>
          simp only [Bool.false_eq_true, if_false, popEntries_fst, ← tokens.raw,
            ← states.popDepth? input text tokens] at rest ⊢
          cases depth : middle.popDepth? input token with
          | some depth =>
              rw [depth] at rest
              obtain rfl := Except.ok.inj rest
              exact ⟨_, rfl, .next (states.popEntries text tokens depth), ahead⟩
          | none =>
              have depth' := depth
              rw [states.popDepth? input text tokens] at depth'
              have kept : (middle.popEntries input token).2 = middle := by
                simp [ParseState.popEntries, depth]
              have kept' : (middle'.popEntries { input with text := text } token').2 = middle' := by
                simp [ParseState.popEntries, depth']
              rw [depth, kept] at rest
              rw [kept']
              simp only [Option.isSome_none, Bool.false_eq_true, if_false] at rest ⊢
              split at rest
              case isTrue atEnd =>
                  obtain rfl := Except.ok.inj rest
                  rw [if_pos atEnd]
                  exact ⟨_, rfl, .done (states.wrapAll input text tokens), ahead⟩
              case isFalse inside =>
                  obtain rfl := Except.ok.inj rest
                  rw [if_neg inside]
                  exact ⟨_, rfl, .next (states.wrapToken tokens), ahead⟩

/-- A step does the same in both parses, and what it reads is alike. -/
theorem step (knowsNoEnd : input.language.lexer.KnowsNoEnd) (fresh : input.reuse = [])
    (unique : Relator.BiUnique starts) (alike : state.Alike starts ends related other)
    (reads : ReadsAlike input.language starts ends related known) {outcome : ParseStep}
    (stepped : state.step input = .ok outcome)
    (isKnown : ∀ lexeme ∈ state.readBy input, known lexeme) :
    ∃ outcome', other.step { input with text := text } = .ok outcome' ∧
      outcome.Alike starts ends related outcome' ∧
      List.Forall₂ (Lexeme.Alike starts ends) (state.readBy input)
        (other.readBy { input with text := text }) := by
  rw [step_eq] at stepped ⊢
  obtain ⟨⟨token, middle⟩, taken, acted⟩ := exists_of_bind_eq_ok stepped
  unfold ParseState.readBy at isKnown ⊢
  simp only [taken] at isKnown ⊢
  obtain ⟨token', middle', taken', tokens, states, now⟩ := alike.current text reads taken
    fun lexeme member => isKnown lexeme (List.mem_append_left _ member)
  have symbols := alike.symbolOf input text tokens
  have named := tokens.named (some (state.symbolOf input token))
  simp only [taken', bind, Except.bind, ← symbols, ← alike.topState]
  have reused : ∀ (state : ParseState) (text : List Char) (symbol : SymbolId) (token : Lexeme),
      state.reuse? { input with text := text } symbol token = .ok none :=
    fun state text => reuse?_eq_none fresh
  have recovers : ∀ {outcome : ParseStep}, middle.recover input
        { token with symbol := some (state.symbolOf input token) } = .ok outcome →
      (∀ lexeme ∈ middle.readAhead input
        { token with symbol := some (state.symbolOf input token) }, known lexeme) →
      ∃ outcome', middle'.recover { input with text := text }
          { token' with symbol := some (state.symbolOf input token) } = .ok outcome' ∧
        outcome.Alike starts ends related outcome' ∧
        List.Forall₂ (Lexeme.Alike starts ends)
          (state.readNow token ++ middle.readAhead input
            { token with symbol := some (state.symbolOf input token) })
          (other.readNow token' ++ middle'.readAhead { input with text := text }
            { token' with symbol := some (state.symbolOf input token) }) := by
    intro outcome recovered ahead
    obtain ⟨outcome', recovered', outcomes, aheads⟩ :=
      states.recover text knowsNoEnd reads named unique recovered ahead
    exact ⟨outcome', recovered', outcomes, List.rel_append now aheads⟩
  unfold ParseState.act at acted ⊢
  cases action : input.language.action state.topState (state.symbolOf input token) with
  | shift next =>
      simp only [action, reuse?_eq_none fresh, reused, bind, Except.bind, pure, Except.pure]
        at acted ⊢
      obtain rfl := Except.ok.inj acted
      exact ⟨_, rfl, .next (states.shift named next _), by simpa using now⟩
  | accept =>
      simp only [action, pure, Except.pure] at acted ⊢
      obtain rfl := Except.ok.inj acted
      exact ⟨_, rfl, .done (states.accept input text named), by simpa using now⟩
  | reduce id =>
      simp only [action] at acted isKnown ⊢
      cases found : input.language.production? id with
      | none =>
          simp only [found, Option.isSome_none, Bool.false_eq_true, if_false] at acted isKnown ⊢
          exact recovers acted fun lexeme member => isKnown lexeme (List.mem_append_right _ member)
      | some production =>
          simp only [found, Option.isSome_some, if_true, pure, Except.pure] at acted ⊢
          obtain rfl := Except.ok.inj acted
          have reduced := states.reduce input text id production
            { token with symbol := some (state.symbolOf input token) }
            { token' with symbol := some (state.symbolOf input token) }
          refine ⟨_, rfl, .next ⟨reduced.stack, .some named, reduced.pending, reduced.cursor,
            reduced.scannerState, reduced.missingInsertedAt⟩, by simpa using now⟩
  | error =>
      simp only [action] at acted isKnown ⊢
      exact recovers acted fun lexeme member => isKnown lexeme (List.mem_append_right _ member)
  | goto next =>
      simp only [action] at acted isKnown ⊢
      exact recovers acted fun lexeme member => isKnown lexeme (List.mem_append_right _ member)

variable (input) in
/-- Two parses go on alike to their ends. -/
theorem run (knowsNoEnd : input.language.lexer.KnowsNoEnd) (fresh : input.reuse = [])
    (unique : Relator.BiUnique starts) (alike : state.Alike starts ends related other)
    (reads : ReadsAlike input.language starts ends related known) {limit : Nat} {root : Subtree}
    {stats : ParseStats} (ran : runSteps input limit state = .ok (root, stats))
    (isKnown : ∀ lexeme ∈ runReads input limit state, known lexeme) :
    ∃ root' stats', runSteps { input with text := text } limit other = .ok (root', stats') ∧
      root.outline = root'.outline ∧
      List.Forall₂ (Lexeme.Alike starts ends) (runReads input limit state)
        (runReads { input with text := text } limit other) := by
  induction limit generalizing state other with
  | zero => cases ran
  | succ limit ih =>
      unfold runSteps at ran ⊢
      unfold runReads at isKnown ⊢
      cases stepped : state.step input with
      | error fault =>
          rw [stepped] at ran
          cases ran
      | ok outcome =>
          rw [stepped] at ran isKnown
          obtain ⟨outcome', stepped', outcomes, read⟩ := alike.step text knowsNoEnd fresh
            unique reads stepped fun lexeme member =>
              isKnown lexeme (List.mem_append_left _ member)
          rw [stepped']
          cases outcomes with
          | @done root root' stats stats' same =>
              obtain ⟨rfl, rfl⟩ := Prod.mk.inj (Except.ok.inj ran)
              exact ⟨root', stats', rfl, same, List.rel_append read .nil⟩
          | next states =>
              obtain ⟨root', stats', ran', same, more⟩ := ih states ran fun lexeme member =>
                isKnown lexeme (List.mem_append_right _ member)
              exact ⟨root', stats', ran', same, List.rel_append read more⟩

end ParseState.Alike

/-! ## Trees -/

theorem Tiles.offset_eq {before after : Cursor} {pieces : List Piece}
    (tiles : Tiles before pieces after) :
    after.offset = before.offset + shapesLength (pieces.map Piece.shape) := by
  induction tiles with
  | nil => rfl
  | cons _ padding content _ pads sized _ ih =>
      rw [ih, content.offset, padding.offset, List.map_cons, Piece.shape, shapesLength, pads, sized]
      omega

/-- The leaves that are made of lexemes which are alike stand at corresponding places. -/
theorem moved_of_readInTurn {language : Language} (knowsNoEnd : language.lexer.KnowsNoEnd)
    {starts ends : Nat → Nat → Prop} {cursor cursor' after after' : Cursor}
    {scanner scanner' final final' : ScannerState} {tokens tokens' : List Lexeme}
    {last last' : Lexeme}
    (inTurn : ReadInTurn language cursor scanner (tokens ++ [last]) after final)
    (inTurn' : ReadInTurn language cursor' scanner' (tokens' ++ [last']) after' final')
    (ordinary : ∀ lexeme ∈ tokens, lexeme.raw ≠ endSymbol)
    (alike : List.Forall₂ (Lexeme.Alike starts ends) tokens tokens')
    (atEnd : last.Alike starts ends last') :
    Moved ends cursor.offset cursor'.offset
      (tokens.flatMap Lexeme.shapes ++ last.extras.map Leaf.shape)
      (tokens'.flatMap Lexeme.shapes ++ last'.extras.map Leaf.shape) := by
  induction alike generalizing cursor cursor' scanner scanner' with
  | nil =>
      cases inTurn with
      | cons lexed _ =>
          cases inTurn' with
          | cons lexed' _ =>
              have moved := atEnd.moved
              rw [(readFrom_of_lex knowsNoEnd lexed).start,
                (readFrom_of_lex knowsNoEnd lexed').start] at moved
              have extras := congrArg List.length atEnd.extras
              rw [List.length_map, List.length_map] at extras
              exact (moved.split (by simpa using extras)).1
  | @cons token token' tokens tokens' here behind ih =>
      cases inTurn with
      | cons lexed rest =>
          cases inTurn' with
          | cons lexed' rest' =>
              have read := readFrom_of_lex knowsNoEnd lexed
              have read' := readFrom_of_lex knowsNoEnd lexed'
              have inside := ordinary token List.mem_cons_self
              have inside' := inside
              rw [here.raw] at inside'
              have later := ih rest rest' fun lexeme member =>
                ordinary lexeme (List.mem_cons_of_mem _ member)
              have shapes := Lexeme.shapes_pieces read.extras
              have shapes' := Lexeme.shapes_pieces read'.extras
              rw [if_neg inside] at shapes
              rw [if_neg inside'] at shapes'
              rw [(read.token inside).offset_eq, (read'.token inside').offset_eq, shapes,
                shapes'] at later
              have moved := here.moved
              rw [read.start, read'.start] at moved
              simpa only [List.flatMap_cons, List.append_assoc] using moved.append later

/-- Where two texts are read alike, they are parsed alike: into trees of one outline whose leaves
stand at corresponding places. -/
theorem Parser.parse_alike {language : Language} {grammar : FlatGrammar}
    (represents : language.tables.Represents grammar)
    (knowsNoEnd : language.lexer.KnowsNoEnd) {starts ends : Nat → Nat → Prop}
    {related : Cursor → Cursor → Prop} {known : Lexeme → Prop}
    (reads : ReadsAlike language starts ends related known) (unique : Relator.BiUnique starts)
    {config : ParseConfig} {text text' : String} {number : Nat} {tree : Tree} {stats : ParseStats}
    (begins : related (Cursor.start text.toList) (Cursor.start text'.toList))
    (isKnown : ∀ lexeme ∈ (ParseInput.mk language text.toList config []).lexemesRead,
      known lexeme)
    (parsed : (Parser.mk config (some ⟨number, language⟩)).parse text none = .ok (tree, stats)) :
    ∃ tree' stats',
      (Parser.mk config (some ⟨number, language⟩)).parse text' none = .ok (tree', stats') ∧
      tree.language = tree'.language ∧ tree.root.outline = tree'.root.outline ∧
      Moved ends 0 0 (tree.root.leaves.map Leaf.shape) (tree'.root.leaves.map Leaf.shape) := by
  obtain ⟨root, ran, rfl⟩ := Parser.parse_ok parsed
  have initial : (ParseState.initial text.toList).Alike starts ends related
      (.initial text'.toList) :=
    ⟨rfl, .none, .nil, begins, rfl, .none⟩
  obtain ⟨root', stats', ran', same, read⟩ := initial.run ⟨language, text.toList, config, []⟩
    text'.toList knowsNoEnd rfl unique reads ran isKnown
  have parsed' : (Parser.mk config (some ⟨number, language⟩)).parse text' none =
      .ok (⟨root', ⟨number, language⟩, []⟩, stats') := by
    have run : runParse ⟨language, text'.toList, config, []⟩ = .ok (root', stats') := ran'
    simp only [Parser.parse, Parser.reuseIndex, run]
  refine ⟨_, stats', parsed', rfl, same, ?_⟩
  obtain ⟨tokens, last, log, ordinary, _, ⟨_, _, inTurn⟩, shapes, empty⟩ :=
    (ParseState.faithful_initial ⟨language, text.toList, config, []⟩).run
      (ParseState.sound_initial _) represents knowsNoEnd rfl ran
  obtain ⟨tokens', last', log', _, _, ⟨_, _, inTurn'⟩, shapes', empty'⟩ :=
    (ParseState.faithful_initial ⟨language, text'.toList, config, []⟩).run
      (ParseState.sound_initial _) represents knowsNoEnd rfl ran'
  rw [List.nil_append] at log log'
  change List.Forall₂ (Lexeme.Alike starts ends)
    (ParseState.runReads ⟨language, text.toList, config, []⟩ stepLimit _)
    (ParseState.runReads ⟨language, text'.toList, config, []⟩ stepLimit _) at read
  rw [log, log'] at read
  rw [List.nil_append, log] at inTurn
  rw [List.nil_append, log'] at inTurn'
  have lengths := read.length_eq
  rw [List.length_append, List.length_append] at lengths
  have leading := List.forall₂_take tokens.length read
  have trailing := List.forall₂_drop tokens.length read
  have same_length : tokens.length = tokens'.length := Nat.succ.inj lengths
  rw [List.take_left, same_length, List.take_left] at leading
  rw [List.drop_left, same_length, List.drop_left] at trailing
  have moved := moved_of_readInTurn knowsNoEnd inTurn inTurn' ordinary leading
    (List.forall₂_cons.mp trailing).1
  rw [← shapes, ← shapes'] at moved
  have outlines := congrArg Subtree.leaves same
  rw [Subtree.leaves_outline, Subtree.leaves_outline] at outlines
  exact moved.of_solid outlines empty empty'

end Lalr
