import Lalr.Proofs.Parser.Promise
import Lalr.Proofs.Parser.Reuse
import Lalr.Proofs.Parser.Simulation
import Lalr.Proofs.Parser.Wording
import Lalr.Proofs.Tree.Bare

set_option autoImplicit false

/-!
How subtrees come about, apart from where they stand in a text and from what is below them on the
stack. Where nothing is wrong, a parse reads tokens and completes productions; what it builds then
depends on the state it starts in, on the token at hand and on the text behind it. So what has been
built once is built again: a parse without an old tree that comes to a moment from which some
subtrees are built puts these subtrees on its stack, whatever lies below them there.
-/

namespace Lalr

open Lalr.Text

/-! ## What is built -/

/-- A moment in a parse: the state on top of the stack, the symbol that the token at hand stands
for, and the text from which this token is read, by a scanner and in a mode. Of the extras before
the token some may be passed already. -/
structure Juncture where
  state : StateId
  symbol : SymbolId
  text : List Char
  scanner : ScannerState
  mode : ValidExternals

/-- Subtrees that a parse without recovery puts on the stack one after the other, each with the
state it leads to, between two moments. Margins are left out of account. -/
inductive Language.Builds (language : Language) :
    Juncture → List (StateId × Subtree) → Juncture → Prop where
  | nil (here : Juncture) : Builds language here [] here
  | extra {here last : Juncture} {content behind : List Char} {after : ScannerState}
      {symbol : SymbolId} {rest : List (StateId × Subtree)} :
      language.StandsFirst here.mode here.scanner here.text content behind symbol after →
      symbol ≠ endSymbol → language.lexer.isExtra symbol = true →
      Builds language { here with text := behind, scanner := after } rest last →
        Builds language here ((here.state, .leaf (extraLeaf symbol
          (utf8Length (here.text.takeWhile isBlank)) (utf8Length content) here.mode here.scanner
            after)) :: rest) last
  | token {here last : Juncture} {lexeme following : Lexeme} {behind farther : List Char}
      {next : StateId} {rest : List (StateId × Subtree)} :
      language.Reads here.mode here.text here.scanner lexeme behind → lexeme.extras = [] →
      lexeme.raw ≠ endSymbol → lexeme.raw ≠ errorSymbol →
      lexeme.StandsFor language here.symbol → language.action here.state here.symbol = .shift next →
      language.Reads (language.lexMode next) behind lexeme.scannerAfter following farther →
      Builds language ⟨next, resolveSymbol language next following, behind, lexeme.scannerAfter,
        language.lexMode next⟩ rest last →
        Builds language here
          ((next, (Subtree.leaf (lexeme.toLeaf here.symbol here.state)).bare) :: rest) last
  | node {here before last : Juncture} {children : List (StateId × Subtree)}
      {following : Lexeme} {farther : List Char} {id : ProductionId}
      {production : ProductionInfo} {next : StateId} {rest : List (StateId × Subtree)} :
      Builds language here children before →
      (∃ first, children.head? = some first ∧ first.2.isExtra = false) →
      (∃ final, children.getLast? = some final ∧ final.2.isExtra = false) →
      language.Reads before.mode before.text before.scanner following farther →
      following.raw ≠ errorSymbol → language.action before.state before.symbol = .reduce id →
      language.production? id = some production →
      (children.filter fun child => !child.2.isExtra).length = production.rhs.length →
      language.goto? here.state production.lhs = some next →
      Builds language { before with state := next } rest last →
        Builds language here ((next, .node ⟨production.lhs, some id, here.state,
          some ⟨following.raw, before.symbol, before.mode, true⟩, 0, false⟩
            (children.map Prod.snd)) :: rest) last

namespace Language.Builds

variable {language : Language} {here middle last : Juncture}
  {items others : List (StateId × Subtree)}

theorem append (left : language.Builds here items middle)
    (right : language.Builds middle others last) : language.Builds here (items ++ others) last := by
  induction left with
  | nil => exact right
  | extra stands inside isExtra _ ih => exact .extra stands inside isExtra (ih right)
  | token reads alone inside real stands action next _ ih =>
      exact .token reads alone inside real stands action next (ih right)
  | node children first final reads inside action found count leads _ _ ih =>
      exact .node children first final reads inside action found count leads (ih right)

theorem split (builds : language.Builds here (items ++ others) last) :
    ∃ middle, language.Builds here items middle ∧ language.Builds middle others last := by
  induction items generalizing here with
  | nil => exact ⟨here, .nil here, builds⟩
  | cons item items ih =>
      cases builds with
      | extra stands inside isExtra rest =>
          obtain ⟨middle, left, right⟩ := ih rest
          exact ⟨middle, .extra stands inside isExtra left, right⟩
      | token reads alone inside real stands action next rest =>
          obtain ⟨middle, left, right⟩ := ih rest
          exact ⟨middle, .token reads alone inside real stands action next left, right⟩
      | node children first final reads inside action found count leads rest =>
          obtain ⟨middle, left, right⟩ := ih rest
          exact ⟨middle, .node children first final reads inside action found count leads left,
            right⟩

/-- The state at the end is the one that the last subtree leads to. -/
theorem state_eq (builds : language.Builds here items last) :
    last.state = (items.getLast?.map Prod.fst).getD here.state := by
  induction builds with
  | nil => rfl
  | extra _ _ _ _ ih | token _ _ _ _ _ _ _ _ ih =>
      rw [ih, List.getLast?_cons]
      cases List.getLast? _ <;> rfl
  | node _ _ _ _ _ _ _ _ _ _ _ ih =>
      rw [ih, List.getLast?_cons]
      cases List.getLast? _ <;> rfl

/-- What is built takes up the text between the two moments. -/
theorem exists_piece (builds : language.Builds here items last) :
    ∃ piece, here.text = piece ++ last.text ∧
      CutInto piece (widths (Subtree.leavesOf (items.map Prod.snd))) := by
  induction builds with
  | nil => exact ⟨[], rfl, .nil⟩
  | extra stands _ _ _ ih =>
      obtain ⟨piece, shape, cut⟩ := ih
      refine ⟨_, ?_, (CutInto.pair _ _).append cut⟩
      rw [List.append_assoc, ← shape]
      exact stands.text_eq
  | token reads alone _ _ _ _ _ _ ih =>
      obtain ⟨own, split, ownCut⟩ := reads.exists_piece
      obtain ⟨piece, shape, cut⟩ := ih
      rw [Lexeme.widths, alone] at ownCut
      refine ⟨_, ?_, ownCut.append cut⟩
      rw [List.append_assoc, ← shape]
      exact split
  | node _ _ _ _ _ _ _ _ _ _ ihChildren ih =>
      obtain ⟨inner, shape, innerCut⟩ := ihChildren
      obtain ⟨piece, behind, cut⟩ := ih
      refine ⟨inner ++ piece, ?_, ?_⟩
      · rw [List.append_assoc, ← behind]
        exact shape
      · rw [List.map_cons, Subtree.leavesOf, widths_append]
        exact innerCut.append cut

/-- A node is built when its children have been. -/
theorem exists_children {next : StateId} {head : NodeHead} {subtrees : List Subtree}
    (builds : language.Builds here [(next, .node head subtrees)] last) :
    ∃ before children following farther id production,
      language.Builds here children before ∧
      (∃ first, children.head? = some first ∧ first.2.isExtra = false) ∧
      (∃ final, children.getLast? = some final ∧ final.2.isExtra = false) ∧
      language.Reads before.mode before.text before.scanner following farther ∧
      following.raw ≠ errorSymbol ∧ language.action before.state before.symbol = .reduce id ∧
      language.production? id = some production ∧
      (children.filter fun child => !child.2.isExtra).length = production.rhs.length ∧
      language.goto? here.state production.lhs = some next ∧
      head = ⟨production.lhs, some id, here.state,
        some ⟨following.raw, before.symbol, before.mode, true⟩, 0, false⟩ ∧
      subtrees = children.map Prod.snd ∧ last = { before with state := next } := by
  cases builds with
  | node children first final reads real action found count leads rest =>
      cases rest
      exact ⟨_, _, _, _, _, _, children, first, final, reads, real, action, found, count, leads,
        rfl, rfl, rfl⟩

theorem utf8Length_eq (builds : language.Builds here items last) :
    ∃ piece, here.text = piece ++ last.text ∧
      utf8Length piece = Subtree.lengths (items.map Prod.snd) := by
  obtain ⟨piece, shape, cut⟩ := builds.exists_piece
  exact ⟨piece, shape, by rw [cut.sum_eq, Subtree.lengths_eq_sum]⟩

end Language.Builds

theorem Contiguous.stackEnd_below {state : ParseState} {above below : List StackEntry}
    (contiguous : Contiguous (above ++ below)) :
    ({ state with stack := below } : ParseState).stackEnd = StackEntry.totalLength below :=
  Contiguous.stackEnd_eq contiguous.suffix

namespace ParseState

open StackEntry

/-- Some steps lead from one state of a parse to another one. -/
abbrev Leads (input : ParseInput) : ParseState → ParseState → Prop :=
  Relation.ReflTransGen fun state after => state.step input = .ok (.next after)

variable {input : ParseInput} {state middle : ParseState} {token : Lexeme}

theorem Leads.reaches {after : ParseState} (leads : Leads input state after)
    (reaches : Reaches input state) : Reaches input after := by
  induction leads with
  | refl => exact reaches
  | tail _ stepped ih => exact ih.step stepped

/-! ## Stacks -/

/-- What an entry says of the parse, apart from its place and from margins. -/
def profile (entry : StackEntry) : StateId × Subtree :=
  (entry.state, entry.subtree.bare)

@[simp] theorem snd_profile (entry : StackEntry) : (profile entry).2 = entry.subtree.bare := rfl

theorem exists_stack_pushAll (state : ParseState) (next : StateId) (subtrees : List Subtree) :
    ∃ above, (state.pushAll next subtrees).stack = above ++ state.stack ∧
      above.reverse.map profile = subtrees.map fun subtree => (next, subtree.bare) := by
  induction subtrees generalizing state with
  | nil => exact ⟨[], rfl, rfl⟩
  | cons subtree subtrees ih =>
      obtain ⟨above, stack, profiles⟩ := ih (state.push next subtree)
      refine ⟨above ++ [.ofSubtree next subtree state.stackEnd], ?_, ?_⟩
      · rw [List.append_assoc]
        exact stack
      · rw [List.reverse_append, List.map_append, profiles]
        rfl

theorem exists_stack_push_token (state : ParseState) (token : Lexeme) (next : StateId)
    (subtree : Subtree) :
    ∃ above, ((state.pushExtras state.topState token).push next subtree).stack =
        above ++ state.stack ∧
      above.reverse.map profile =
        (token.extras.map fun leaf => (state.topState, (Subtree.leaf leaf).bare)) ++
          [(next, subtree.bare)] := by
  obtain ⟨above, stack, profiles⟩ :=
    state.exists_stack_pushAll state.topState (token.extras.map .leaf)
  refine ⟨_ :: above, congrArg (_ :: ·) stack, ?_⟩
  rw [List.reverse_cons, List.map_append, profiles, List.map_map]
  rfl

/-- A reduction takes just the entries that hold its children, if the lowest one is no extra. -/
theorem popStructural_exact {taken : List StackEntry} {count : Nat}
    (counted : (structural taken).length = count)
    (lowest : ∃ entry, taken.getLast? = some entry ∧ entry.isExtra = false)
    (removed below : List StackEntry) :
    popStructural removed count (taken ++ below) = (taken.reverse ++ removed, below) := by
  induction taken generalizing removed count with
  | nil => obtain ⟨_, none_, _⟩ := lowest; cases none_
  | cons entry taken ih =>
      have rest : taken ≠ [] → ∃ last, taken.getLast? = some last ∧ last.isExtra = false := by
        intro more
        obtain ⟨last, found, isStructural⟩ := lowest
        obtain ⟨first, others, rfl⟩ := List.exists_cons_of_ne_nil more
        exact ⟨last, by rwa [List.getLast?_cons_cons] at found, isStructural⟩
      have positive : structural (entry :: taken) ≠ [] := by
        obtain ⟨last, found, isStructural⟩ := lowest
        refine List.ne_nil_of_mem (a := last) (List.mem_filter.mpr ⟨?_, by simp [isStructural]⟩)
        exact List.mem_of_getLast? found
      cases extra : entry.isExtra with
      | true =>
          have same : structural (entry :: taken) = structural taken := by
            simp [structural, extra]
          rw [same] at counted positive
          obtain ⟨count, rfl⟩ := Nat.exists_eq_add_one_of_ne_zero
            (counted ▸ mt List.eq_nil_of_length_eq_zero positive)
          have more : taken ≠ [] := by rintro rfl; exact positive rfl
          rw [List.cons_append, popStructural, if_pos extra, ih counted (rest more)]
          simp
      | false =>
          have same : structural (entry :: taken) = entry :: structural taken := by
            simp [structural, extra]
          rw [same, List.length_cons] at counted
          subst counted
          rw [List.cons_append, popStructural, if_neg (by simp [extra])]
          cases more : taken with
          | nil => cases below <;> rfl
          | cons first others =>
              rw [more] at ih rest
              rw [ih rfl (rest (List.cons_ne_nil _ _))]
              simp

theorem isExtra_profile {entry : StackEntry} : (profile entry).2.isExtra = entry.isExtra :=
  Subtree.isExtra_bare _

/-- A reduction that finds the children of its production on top makes a node of them, without
margins the one that is known of them. -/
theorem exists_reduce (input : ParseInput) (id : ProductionId) {children : List (StateId × Subtree)} {above below : List StackEntry}
    {production : ProductionInfo} {next : StateId} {symbol : SymbolId}
    (stack : state.stack = above ++ below) (contiguous : Contiguous state.stack)
    (start : token.start = totalLength state.stack) (ordinary : token.isOrdinary = true)
    (profiles : above.reverse.map profile = children)
    (first : ∃ first, children.head? = some first ∧ first.2.isExtra = false)
    (final : ∃ final, children.getLast? = some final ∧ final.2.isExtra = false)
    (count : (children.filter fun child => !child.2.isExtra).length = production.rhs.length)
    (leads : input.language.goto? ({ state with stack := below } : ParseState).topState
      production.lhs = some next) (named : token.symbol = some symbol) :
    ∃ entry, (state.reduce input id production token).stack = entry :: below ∧
      profile entry = (next, .node ⟨production.lhs, some id,
        ({ state with stack := below } : ParseState).topState,
        some ⟨token.raw, symbol, token.mode, true⟩, 0, false⟩ (children.map Prod.snd)) := by
  subst profiles
  obtain ⟨trailing, taken, below', shape, extras, popping, reduced⟩ :=
    reduce_eq input state id production token
  have lowest : ∃ entry, above.getLast? = some entry ∧ entry.isExtra = false := by
    obtain ⟨item, found, isStructural⟩ := first
    rw [List.head?_map, List.head?_reverse] at found
    obtain ⟨entry, isLast, rfl⟩ := Option.map_eq_some_iff.mp found
    exact ⟨entry, isLast, by rwa [isExtra_profile] at isStructural⟩
  have highest : ∃ entry rest, above = entry :: rest ∧ entry.isExtra = false := by
    obtain ⟨item, found, isStructural⟩ := final
    rw [List.getLast?_map, List.getLast?_reverse] at found
    obtain ⟨entry, isFirst, rfl⟩ := Option.map_eq_some_iff.mp found
    obtain ⟨rest, rfl⟩ := List.head?_eq_some_iff.mp isFirst
    exact ⟨entry, rest, rfl, by rwa [isExtra_profile] at isStructural⟩
  have counted : (structural above).length = production.rhs.length := by
    rw [← count, List.filter_map, List.length_map, List.filter_reverse, List.length_reverse]
    simp only [structural, Function.comp_def, isExtra_profile]
  -- the entry on top is a child, so nothing trails behind the children
  obtain rfl : trailing = [] := by
    obtain ⟨entry, rest, rfl, isStructural⟩ := highest
    cases trailing with
    | nil => rfl
    | cons other trailing =>
        rw [stack] at shape
        obtain rfl : entry = other := (List.cons.inj shape).1
        rw [extras entry List.mem_cons_self] at isStructural
        cases isStructural
  have exact_ := popStructural_exact counted lowest [] below
  rw [List.nil_append] at shape
  rw [← shape, stack, exact_, List.append_nil] at popping
  obtain ⟨same, rfl⟩ := Prod.mk.inj popping
  obtain rfl := List.reverse_injective same
  rw [stack] at contiguous start
  refine ⟨_, by rw [reduced]; rfl, ?_⟩
  have begins := contiguous.start_eq
  rw [totalLength_append] at start
  have reusable : token.start = (above.reverse.head?.map StackEntry.start).getD
      ({ state with stack := below } : ParseState).stackEnd + totalLength above.reverse := by
    rw [contiguous.stackEnd_below, begins, totalLength_reverse, start, Nat.add_comm]
  simp only [profile, ofEntries, leads, Option.getD_some, Subtree.bare, Subtree.bares_eq_map,
    NodeHead.bare, reducedHead, named, ordinary, Bool.true_and, List.map_map, reusable,
    beq_self_eq_true]
  rfl

/-! ## Moments of a parse -/

/-- A state of a parse without tokens read ahead, at a moment: some extras of the token at hand
count as passed. -/
structure StandsAt (input : ParseInput) (state : ParseState) (token : Lexeme)
    (middle : ParseState) (done : List Leaf) (here : Juncture) : Prop where
  current : state.current input = .ok (token, middle)
  alone : middle.pending = []
  fresh : token.fresh = true
  passed : ∀ leaf ∈ done, leaf.extra = true
  top : state.topState = here.state
  symbol : state.symbolOf input token = here.symbol
  mode : token.mode = here.mode
  reads : ∃ more, token.extras = done ++ more ∧ input.language.Reads here.mode here.text
    here.scanner (token.core.withExtras more) middle.cursor.rest
  scanner : middle.scannerState = token.scannerAfter

/-- Extras that count as passed, as they will be put on the stack. -/
def passedItems (state : StateId) (done : List Leaf) : List (StateId × Subtree) :=
  done.map fun leaf => (state, (Subtree.leaf leaf).bare)

/-- Where a parse gets by building some subtrees: they are on its stack then, together with the
extras that counted as passed. -/
structure Built (input : ParseInput) (state : ParseState) (done : List Leaf) (here : Juncture)
    (items : List (StateId × Subtree)) (last : Juncture) (after : ParseState) (token : Lexeme)
    (middle : ParseState) (done' : List Leaf) : Prop where
  leads : Leads input state after
  stands : StandsAt input after token middle done' last
  stack : ∃ above, after.stack = above ++ state.stack ∧
    above.reverse.map profile ++ passedItems last.state done' =
      passedItems here.state done ++ items
  missingInsertedAt : after.missingInsertedAt = state.missingInsertedAt

theorem current_of_lex {cursor : Cursor} (idle : state.lookahead = none)
    (alone : state.pending = [])
    (read : lex input.language state.cursor (input.language.lexMode state.topState)
      state.scannerState = .ok (token, cursor)) :
    state.current input = .ok (token, state.advancePast token cursor) := by
  simp [current, idle, nextLexeme, alone, readLexeme, read, bind, Except.bind, pure, Except.pure]

theorem Built.trans {between after : ParseState} {token' : Lexeme} {middle' : ParseState}
    {done done' done'' : List Leaf} {here halfway last : Juncture}
    {items others : List (StateId × Subtree)}
    (left : Built input state done here items halfway between token middle done')
    (right : Built input between done' halfway others last after token' middle' done'') :
    Built input state done here (items ++ others) last after token' middle' done'' := by
  obtain ⟨low, lowStack, lowItems⟩ := left.stack
  obtain ⟨high, highStack, highItems⟩ := right.stack
  refine ⟨left.leads.trans right.leads, right.stands, ⟨high ++ low, ?_, ?_⟩,
    right.missingInsertedAt.trans left.missingInsertedAt⟩
  · rw [highStack, lowStack, List.append_assoc]
  · rw [List.reverse_append, List.map_append, List.append_assoc, highItems, ← List.append_assoc,
      lowItems, List.append_assoc]

theorem leaf_eq_of_core {known lexeme : Lexeme} (core : known.core = lexeme)
    (fresh : known.fresh = true) (symbol : SymbolId) (top : StateId) :
    (Subtree.leaf (known.toLeaf symbol top)).bare =
      (Subtree.leaf (lexeme.toLeaf symbol top)).bare := by
  subst core
  simp [Subtree.bare, Leaf.bare, Lexeme.toLeaf, Lexeme.core, fresh]

theorem missingInsertedAt_current (taken : state.current input = .ok (token, middle)) :
    middle.missingInsertedAt = state.missingInsertedAt := by
  unfold current at taken
  split at taken
  case h_1 => exact (Prod.mk.inj (Except.ok.inj taken)).2 ▸ rfl
  case h_2 =>
      unfold nextLexeme at taken
      split at taken
      case h_1 => exact (Prod.mk.inj (Except.ok.inj taken)).2 ▸ rfl
      case h_2 => exact (readLexeme_ok taken).2.2.2.2

section running
variable {grammar : FlatGrammar} (represents : input.language.tables.Represents grammar)
  (knowsNoEnd : input.language.lexer.KnowsNoEnd)
  (progresses : input.language.lexer.Progresses)
  (inside : input.language.scanner.StaysInside) (fresh : input.reuse = [])
  {here last : Juncture} {items : List (StateId × Subtree)} {done : List Leaf}

section
include knowsNoEnd progresses fresh

/-- The token at hand is accepted, and the one behind it is read. -/
theorem StandsAt.shift (stands : StandsAt input state token middle done here)
    {lexeme following : Lexeme} {behind farther : List Char} {next : StateId}
    (reads : input.language.Reads here.mode here.text here.scanner lexeme behind)
    (alone : lexeme.extras = [])
    (action : input.language.action here.state here.symbol = .shift next)
    (readsNext : input.language.Reads (input.language.lexMode next) behind lexeme.scannerAfter
      following farther) :
    ∃ after token' middle', Built input state done here
      [(next, (Subtree.leaf (lexeme.toLeaf here.symbol here.state)).bare)]
      ⟨next, resolveSymbol input.language next following, behind, lexeme.scannerAfter,
        input.language.lexMode next⟩ after token' middle' [] := by
  obtain ⟨more, extras, readsHere⟩ := stands.reads
  obtain ⟨rfl, rfl⟩ := readsHere.unique progresses reads
  obtain rfl : more = [] := alone
  rw [List.append_nil] at extras
  have stepped := step_of_shift fresh stands.current
    (by rw [stands.top, stands.symbol]; exact action)
  obtain ⟨stack, idle, _, _⟩ := current_ok stands.current
  have top : middle.topState = here.state := by
    rw [← stands.top, ParseState.topState, stack]
    rfl
  rw [stands.symbol] at stepped
  generalize named : ({ token with symbol := some here.symbol } : Lexeme) = known at stepped
  obtain ⟨core, extras', isFresh⟩ : known.core = token.core ∧ known.extras = token.extras ∧
      known.fresh = true := by
    subst named
    exact ⟨rfl, rfl, stands.fresh⟩
  have same : middle.SameBut (middle.shift next here.symbol known) :=
    middle.sameBut_push_token known next _
  obtain ⟨above, shape, profiles⟩ := middle.exists_stack_push_token known next
    (.leaf (known.toLeaf here.symbol middle.topState))
  obtain ⟨token', cursor, lexed, rfl, rest⟩ :=
    lex_of_reads progresses readsNext middle.cursor.offset
  have asRead : token'.asRead = token' := asRead_of_lex knowsNoEnd lexed
  have taken : (middle.shift next here.symbol known).current input =
      .ok (token', (middle.shift next here.symbol known).advancePast token' cursor) := by
    refine current_of_lex (same.lookahead.trans idle) (same.pending.trans stands.alone) ?_
    rw [same.cursor, same.scannerState, stands.scanner]
    exact lexed
  refine ⟨_, token', _, .single stepped, ⟨taken, same.pending.trans stands.alone, ?_,
    List.forall_mem_nil _, rfl, ?_, readsNext.present.2, ⟨token'.extras, rfl, ?_⟩, rfl⟩,
    ⟨above, shape.trans (congrArg _ stack), ?_⟩, ?_⟩
  · rw [← asRead]
    rfl
  · rw [symbolOf, ← asRead]
    rfl
  · change input.language.Reads _ _ _ _ cursor.rest
    rw [rest]
    exact readsNext
  · rw [profiles, leaf_eq_of_core rfl isFresh, top, extras', extras, core]
    exact List.append_nil _
  · exact same.missingInsertedAt.trans (missingInsertedAt_current stands.current)

end

include knowsNoEnd progresses inside fresh

/-- A production is completed whose children are on top of the stack. -/
theorem StandsAt.reduce {before : Juncture} (reaches : Reaches input state)
    (stands : StandsAt input state token middle [] before) {above below : List StackEntry}
    (stack : state.stack = above ++ below) {children : List (StateId × Subtree)}
    (profiles : above.reverse.map profile = children)
    (first : ∃ first, children.head? = some first ∧ first.2.isExtra = false)
    (final : ∃ final, children.getLast? = some final ∧ final.2.isExtra = false)
    {following : Lexeme} {farther : List Char}
    (reads : input.language.Reads before.mode before.text before.scanner following farther)
    (real : following.raw ≠ errorSymbol) {id : ProductionId} {production : ProductionInfo}
    (action : input.language.action before.state before.symbol = .reduce id)
    (found : input.language.production? id = some production)
    (count : (children.filter fun child => !child.2.isExtra).length = production.rhs.length)
    {under next : StateId} (top : ({ state with stack := below } : ParseState).topState = under)
    (leads : input.language.goto? under production.lhs = some next) :
    ∃ after middle', state.step input = .ok (.next after) ∧
      StandsAt input after { token with symbol := some before.symbol } middle' []
        { before with state := next } ∧
      after.lookahead = some { token with symbol := some before.symbol } ∧
      after.missingInsertedAt = state.missingInsertedAt ∧
      ∃ entry, after.stack = entry :: below ∧ profile entry =
        (next, .node ⟨production.lhs, some id, under,
          some ⟨following.raw, before.symbol, before.mode, true⟩, 0, false⟩
            (children.map Prod.snd)) := by
  subst top
  obtain ⟨more, extras, readsHere⟩ := stands.reads
  obtain rfl : token.extras = more := extras
  obtain ⟨core, rest⟩ := readsHere.unique progresses reads
  have raw : token.raw = following.raw := by rw [← core]; rfl
  have stepped := step_of_reduce stands.current
    (by rw [stands.top, stands.symbol]; exact action) found
  rw [stands.symbol] at stepped
  obtain ⟨stack', idle, _, _⟩ := current_ok stands.current
  have placed := (reaches.placed knowsNoEnd inside (by simp [fresh])).current knowsNoEnd inside
    stands.current (some before.symbol)
  have same := middle.sameBut_reduce input id production
    { token with symbol := some before.symbol }
  have present : token.missing = false := readsHere.present.1
  have ordinary : ({ token with symbol := some before.symbol } : Lexeme).isOrdinary = true := by
    simp [Lexeme.isOrdinary, stands.fresh, present, raw, real]
  obtain ⟨entry, shape, made⟩ := exists_reduce input id (stack'.trans stack) placed.stack
    placed.atHand.start ordinary profiles first final count leads rfl
  rw [raw, stands.mode] at made
  refine ⟨_, _, stepped, ⟨current_of_lookahead rfl, same.pending.trans stands.alone, stands.fresh,
    List.forall_mem_nil _, ?_, rfl, stands.mode, ⟨token.extras, rfl, ?_⟩,
    same.scannerState.trans stands.scanner⟩, rfl,
    same.missingInsertedAt.trans (missingInsertedAt_current stands.current), entry, shape, made⟩
  · rw [topState]
    dsimp only
    rw [shape]
    exact congrArg Prod.fst made
  · change input.language.Reads _ _ _ _ (middle.reduce input id production _).cursor.rest
    rw [same.cursor]
    exact readsHere

/-- The node of a production is built where its children have been. -/
theorem Built.complete {between : ParseState} {before : Juncture} {done' : List Leaf}
    {children : List (StateId × Subtree)}
    (built : Built input state done here children before between token middle done')
    (reaches : Reaches input state) (top : state.topState = here.state)
    (first : ∃ first, children.head? = some first ∧ first.2.isExtra = false)
    (final : ∃ final, children.getLast? = some final ∧ final.2.isExtra = false)
    {following : Lexeme} {farther : List Char}
    (reads : input.language.Reads before.mode before.text before.scanner following farther)
    (real : following.raw ≠ errorSymbol) {id : ProductionId} {production : ProductionInfo}
    (action : input.language.action before.state before.symbol = .reduce id)
    (found : input.language.production? id = some production)
    (count : (children.filter fun child => !child.2.isExtra).length = production.rhs.length)
    {next : StateId} (goto_ : input.language.goto? here.state production.lhs = some next) :
    ∃ after token' middle', between.step input = .ok (.next after) ∧
      after.lookahead = some token' ∧ token'.symbol = some before.symbol ∧
      Built input state done here [(next, .node ⟨production.lhs, some id, here.state,
        some ⟨following.raw, before.symbol, before.mode, true⟩, 0, false⟩
          (children.map Prod.snd))] { before with state := next } after token' middle' [] := by
  obtain ⟨leads, stands, ⟨above, stack, whole⟩, inserted⟩ := built
  -- the children end with no extra, so none that was passed stands behind them
  obtain rfl : done' = [] := by
    rcases List.eq_nil_or_concat done' with none_ | ⟨front, leaf, rfl⟩
    · exact none_
    · obtain ⟨item, isLast, isStructural⟩ := final
      have ends := congrArg List.getLast? whole
      rw [List.getLast?_append, List.getLast?_append, isLast] at ends
      simp only [List.concat_eq_append, passedItems, List.map_append, List.map_cons, List.map_nil,
        List.getLast?_concat, Option.some_or, Option.some.injEq] at ends
      have extra := stands.passed leaf (by simp)
      rw [← ends] at isStructural
      exact absurd isStructural (by simp [Subtree.bare, Subtree.isExtra, Leaf.bare, extra])
  rw [passedItems, List.map_nil, List.append_nil] at whole
  obtain ⟨early, late, shape, earlyItems, lateItems⟩ := List.map_eq_append_iff.mp whole
  have split : between.stack = late.reverse ++ (early.reverse ++ state.stack) := by
    rw [stack, ← List.append_assoc, ← List.reverse_append, ← shape, List.reverse_reverse]
  have under : ({ between with stack := early.reverse ++ state.stack } : ParseState).topState =
      here.state := by
    rcases List.eq_nil_or_concat early with rfl | ⟨front, entry, rfl⟩
    · exact top
    · have listed : profile entry ∈ passedItems here.state done := by
        rw [← earlyItems]
        simp
      obtain ⟨leaf, _, same⟩ := List.mem_map.mp listed
      simp only [topState, List.concat_eq_append, List.reverse_append, List.reverse_cons,
        List.reverse_nil, List.nil_append, List.cons_append, List.head?_cons, Option.map_some,
        Option.getD_some]
      exact (congrArg Prod.fst same).symm
  obtain ⟨after, middle', stepped, stands', lookahead, inserted', entry, stack', made⟩ :=
    stands.reduce knowsNoEnd progresses inside fresh (leads.reaches reaches) split
      (by rw [List.reverse_reverse]; exact lateItems) first final reads real action found count
      under goto_
  refine ⟨after, _, middle', stepped, lookahead, rfl, leads.tail stepped, stands',
    ⟨entry :: early.reverse, by rw [stack']; rfl, ?_⟩, inserted'.trans inserted⟩
  simp only [List.reverse_cons, List.reverse_reverse, List.map_append, earlyItems, List.map_cons,
    List.map_nil, made, passedItems, List.append_nil]

/-- What is built from a moment on is built by every parse that comes to it. -/
theorem exists_built (builds : input.language.Builds here items last) (reaches : Reaches input state)
    (stands : StandsAt input state token middle done here) :
    ∃ after token' middle' done', Built input state done here items last after token' middle'
      done' := by
  induction builds generalizing state token middle done with
  | nil here =>
      exact ⟨state, token, middle, done, .refl, stands, ⟨[], rfl, (List.append_nil _).symm⟩, rfl⟩
  | @extra here last content behind after symbol rest first real isExtra _ ih =>
      obtain ⟨more, extras, reads⟩ := stands.reads
      obtain ⟨rest', rfl, reads⟩ := reads.extra_first first real isExtra
      rw [List.append_cons] at extras
      have passed : ∀ leaf ∈ done ++ [extraLeaf symbol (utf8Length (here.text.takeWhile isBlank))
          (utf8Length content) here.mode here.scanner after], leaf.extra = true := by
        intro leaf member
        rcases List.mem_append.mp member with before | last_
        · exact stands.passed leaf before
        · exact List.mem_singleton.mp last_ ▸ rfl
      obtain ⟨after, final, middle', done', leads, stands', ⟨above, stack, whole⟩, same⟩ :=
        ih reaches ⟨stands.current, stands.alone, stands.fresh, passed, stands.top, stands.symbol,
          stands.mode, ⟨rest', extras, reads⟩, stands.scanner⟩
      refine ⟨after, final, middle', done', leads, stands', ⟨above, stack, ?_⟩, same⟩
      rw [whole, passedItems, List.map_append, List.append_assoc]
      rfl
  | token reads alone _ _ _ action readsNext _ ih =>
      obtain ⟨between, token', middle', built⟩ :=
        stands.shift knowsNoEnd progresses fresh reads alone action readsNext
      obtain ⟨after, final, last', done', rest⟩ := ih (built.leads.reaches reaches) built.stands
      exact ⟨after, final, last', done', built.trans rest⟩
  | node _ first final reads real action found count leads _ ihChildren ih =>
      obtain ⟨between, token', middle', done', inner⟩ := ihChildren reaches stands
      obtain ⟨whole, token'', middle'', _, _, _, built⟩ := inner.complete knowsNoEnd progresses inside
        fresh reaches stands.top first final reads real action found count leads
      obtain ⟨after, final, last', done'', rest⟩ := ih (built.leads.reaches reaches) built.stands
      exact ⟨after, final, last', done'', built.trans rest⟩

end running

end ParseState

end Lalr
