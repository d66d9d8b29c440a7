import Lalr.Proofs.Parser.Clean
import Lalr.Proofs.Parser.Weight

set_option autoImplicit false

/-!
What a parse without an old tree has built. The subtrees on top of its stack, as far as nothing in
them is wrong, are those that are built from some moment on until the token at hand; so a node that
a later parse may take over is built from the text that it stands for.
-/

namespace Lalr

open Lalr.Text

/-- A token with the extras before it is built where it is read. -/
theorem Language.Reads.builds {language : Language} {mode : ValidExternals}
    {text behind farther : List Char} {scanner : ScannerState} {lexeme following : Lexeme}
    (reads : language.Reads mode text scanner lexeme behind) (inside : lexeme.raw ≠ endSymbol)
    (real : lexeme.raw ≠ errorSymbol) {state next : StateId} {symbol : SymbolId}
    (standsFor : lexeme.StandsFor language symbol)
    (action : language.action state symbol = .shift next)
    (readsNext : language.Reads (language.lexMode next) behind lexeme.scannerAfter following
      farther) :
    language.Builds ⟨state, symbol, text, scanner, mode⟩
      ((lexeme.extras.map fun leaf => (state, (Subtree.leaf leaf).bare)) ++
        [(next, (Subtree.leaf (lexeme.toLeaf symbol state)).bare)])
      ⟨next, resolveSymbol language next following, behind, lexeme.scannerAfter,
        language.lexMode next⟩ := by
  induction reads with
  | token stands ordinary =>
      exact .token (.token stands ordinary) rfl inside real standsFor action readsNext (.nil _)
  | extra stands inside_ isExtra _ ih =>
      exact .extra stands inside_ isExtra (ih inside real standsFor readsNext)

theorem Subtree.isFragile_of_mem {children : List Subtree} (none_ : anyIsFragile children = false)
    {child : Subtree} (member : child ∈ children) : child.isFragile = false := by
  induction children with
  | nil => cases member
  | cons first children ih =>
      obtain ⟨here, behind⟩ := Bool.or_eq_false_iff.mp none_
      rcases List.mem_cons.mp member with rfl | later
      · exact here
      · exact ih behind later

/-- A subtree is built from a text at a place in it. -/
def Language.BuildsAt (language : Language) (text : List Char) (place : Nat) (subtree : Subtree) :
    Prop :=
  ∃ front here last next, text = front ++ here.text ∧ utf8Length front = place ∧
    language.Builds here [(next, subtree.bare)] last

theorem Language.buildsAt_bare {language : Language} {text : List Char} (place : Nat)
    (subtree : Subtree) :
    language.BuildsAt text place subtree.bare ↔ language.BuildsAt text place subtree := by
  rw [BuildsAt, BuildsAt, Subtree.bare_bare]

namespace ParseState

open StackEntry

variable {input : ParseInput} {grammar : FlatGrammar} {state middle after : ParseState}
  {token : Lexeme}

/-- An entry that is no error, and not the start symbol. -/
structure Tidy (grammar : FlatGrammar) (entry : StackEntry) : Prop where
  error : entry.subtree.containsError = false
  fragile : entry.subtree.isFragile = false
  inner : entry.isExtra = true ∨ entry.subtree.symbol.toNat ≠ grammar.start

/-- A moment in which a stack ends. -/
structure StandsOn (input : ParseInput) (stack : List StackEntry) (here : Juncture) : Prop where
  top : (stack.head?.map StackEntry.state).getD 0 = here.state
  text : ∃ front, input.text = front ++ here.text ∧ utf8Length front = totalLength stack

/-- The moment of a parse in which a token is at hand. -/
structure AtHand (input : ParseInput) (state : ParseState) (token : Lexeme) (middle : ParseState)
    (here : Juncture) : Prop where
  stands : StandsOn input state.stack here
  symbol : state.symbolOf input token = here.symbol
  mode : token.mode = here.mode
  standsFor : token.StandsFor input.language here.symbol
  reads : ∃ last, input.language.Reads here.mode here.text here.scanner token.core last ∧
    (middle.pending = [] → last = middle.cursor.rest ∧ middle.scannerState = token.scannerAfter)

/-- The subtrees on top of the stack that are no errors are built until the token at hand. -/
def Tracks (input : ParseInput) (grammar : FlatGrammar) (state : ParseState) : Prop :=
  ∀ token middle, state.current input = .ok (token, middle) → token.isOrdinary = true →
    ∀ above below, state.stack = above ++ below → (∀ entry ∈ above, Tidy grammar entry) →
      ∃ here there, AtHand input state token middle there ∧ StandsOn input below here ∧
        input.language.Builds here (above.reverse.map profile) there

theorem isOrdinary_iff : token.isOrdinary = true ↔
    token.fresh = true ∧ token.missing = false ∧ token.raw ≠ errorSymbol := by
  simp [Lexeme.isOrdinary, and_assoc]

/-- What is built on a stack leads on to where the stack ends with it. -/
theorem StandsOn.onward {taken below : List StackEntry} {here there : Juncture}
    (stands : StandsOn input below here)
    (builds : input.language.Builds here (taken.reverse.map profile) there) :
    StandsOn input (taken ++ below) there := by
  constructor
  · rw [builds.state_eq, ← stands.top]
    cases taken with
    | nil => rfl
    | cons entry taken => simp [profile]
  · obtain ⟨front, text, length⟩ := stands.text
    obtain ⟨piece, shape, extent⟩ := builds.utf8Length_eq
    refine ⟨front ++ piece, by rw [text, shape, List.append_assoc], ?_⟩
    have bare : (taken.reverse.map profile).map Prod.snd =
        (taken.reverse.map StackEntry.subtree).map Subtree.bare := by simp
    rw [utf8Length_append, length, extent, bare, ← Subtree.bares_eq_map, Subtree.lengths_bares,
      ← totalLength_eq, totalLength_reverse, totalLength_append, Nat.add_comm]

/-- What is built on a stack can be parted like the stack. -/
theorem StandsOn.split {above taken below : List StackEntry} {here there : Juncture}
    (stands : StandsOn input below here)
    (builds : input.language.Builds here ((above ++ taken).reverse.map profile) there) :
    ∃ middle, input.language.Builds here (taken.reverse.map profile) middle ∧
      StandsOn input (taken ++ below) middle ∧
      input.language.Builds middle (above.reverse.map profile) there := by
  rw [List.reverse_append, List.map_append] at builds
  obtain ⟨middle, early, late⟩ := builds.split
  exact ⟨middle, early, stands.onward early, late⟩

theorem Tracks.of_cons (exists_ : ∀ token middle, state.current input = .ok (token, middle) →
      token.isOrdinary = true → ∃ there, AtHand input state token middle there)
    (built : ∀ token middle, state.current input = .ok (token, middle) →
      token.isOrdinary = true → ∀ entry above below, state.stack = entry :: above ++ below →
        (∀ other ∈ entry :: above, Tidy grammar other) →
        ∃ here there, AtHand input state token middle there ∧ StandsOn input below here ∧
          input.language.Builds here ((entry :: above).reverse.map profile) there) :
    Tracks input grammar state := by
  intro token middle taken ordinary above below stack tidy
  cases above with
  | nil =>
      obtain ⟨there, atHand⟩ := exists_ token middle taken ordinary
      rw [List.nil_append] at stack
      exact ⟨there, there, atHand, stack ▸ atHand.stands, .nil there⟩
  | cons entry above => exact built token middle taken ordinary entry above below stack tidy

theorem Tracks.of_error (exists_ : ∀ token middle, state.current input = .ok (token, middle) →
      token.isOrdinary = true → ∃ there, AtHand input state token middle there)
    (untidy : ∀ entry rest, state.stack = entry :: rest → ¬ Tidy grammar entry) :
    Tracks input grammar state :=
  .of_cons exists_ fun _ _ _ _ entry _ _ stack tidy =>
    absurd (tidy entry List.mem_cons_self) (untidy entry _ stack)

/-- A token on the stack that is no error was read in the normal course. -/
theorem Tidy.isOrdinary {entry : StackEntry} (tidy : Tidy grammar entry) {symbol : SymbolId}
    {parent : StateId} (leaf : entry.subtree = .leaf (token.toLeaf symbol parent)) :
    token.isOrdinary = true := by
  obtain ⟨error, fragile, _⟩ := tidy
  rw [leaf] at error fragile
  simp only [Subtree.containsError, Subtree.isFragile, Lexeme.toLeaf, Bool.or_eq_false_iff,
    beq_eq_false_iff_ne] at error fragile
  refine isOrdinary_iff.mpr ⟨?_, error.2, error.1⟩
  simpa [error.2] using fragile

/-- The children of a node without errors are no errors. -/
theorem Reduction.tidy {id : ProductionId} {production : ProductionInfo} {known : Lexeme}
    {trailing children below : List StackEntry} {next top : StateId} {symbol : SymbolId}
    (reduction : Reduction input state id production known trailing children below next)
    (represents : input.language.tables.Represents grammar) (filled : grammar.Filled)
    (action : input.language.action top symbol = .reduce id)
    (found : input.language.production? id = some production)
    (error : Subtree.anyContainsError (children.reverse.map StackEntry.subtree) = false)
    (fragile : Subtree.anyIsFragile (children.reverse.map StackEntry.subtree) = false) :
    ∀ entry ∈ children, Tidy grammar entry := by
  intro entry member
  have listed : entry.subtree ∈ children.reverse.map StackEntry.subtree :=
    List.mem_map_of_mem (List.mem_reverse.mpr member)
  refine ⟨Subtree.anyContainsError_iff.mp error _ listed,
    Subtree.isFragile_of_mem fragile listed, ?_⟩
  cases extra : entry.isExtra with
  | true => exact .inl rfl
  | false =>
      exact .inr (reduction.symbol_ne_start represents filled action found entry
        (List.mem_filter.mpr ⟨member, by simp [extra]⟩))

/-- A node that is no error stands on top with all that was above its children inside it. -/
theorem Reduction.of_tidy {id : ProductionId} {production : ProductionInfo} {known : Lexeme}
    {trailing children below rest : List StackEntry} {next : StateId} {symbol : SymbolId}
    {entry : StackEntry}
    (reduction : Reduction input state id production known trailing children below next)
    (represents : input.language.tables.Represents grammar) (filled : grammar.Filled)
    (sound : state.Sound input.language grammar)
    (action : input.language.action state.topState symbol = .reduce id)
    (found : input.language.production? id = some production)
    (stack : (state.reduce input id production known).stack = entry :: rest)
    (tidy : Tidy grammar entry) (isStructural : entry.isExtra = false) :
    trailing = [] ∧ below = rest ∧ production.rhs ≠ [] ∧
      ∀ other ∈ children, Tidy grammar other := by
  obtain ⟨head, named, _, forest_⟩ := reduction.exists_forest
  have last : (state.reduce input id production known).forest.getLast? = some entry.subtree := by
    simp [forest, stack]
  rw [forest_] at last
  -- an extra behind the children would be on top
  obtain rfl : trailing = [] := by
    cases trailing with
    | nil => rfl
    | cons extra others =>
        simp only [List.reverse_cons, List.map_append, List.map_singleton] at last
        rw [← List.cons_append, ← List.append_assoc, List.getLast?_concat] at last
        have isExtra := reduction.extras extra List.mem_cons_self
        rw [StackEntry.isExtra, Option.some.inj last] at isExtra
        exact absurd isExtra (by simpa [StackEntry.isExtra] using isStructural)
  rw [List.reverse_nil, List.map_nil, List.getLast?_concat] at last
  obtain ⟨error, fragile, inner⟩ := tidy
  rw [StackEntry.isExtra] at isStructural inner
  rw [← Option.some.inj last] at error fragile inner isStructural
  refine ⟨rfl, ?_, ?_, reduction.tidy represents filled action found
    (Bool.or_eq_false_iff.mp error).2 fragile⟩
  · rw [reduction.reduced] at stack
    exact (List.cons.inj stack).2
  · intro empty
    rcases inner with extra | other
    · rw [isStructural] at extra
      cases extra
    · refine other ?_
      rw [Subtree.symbol, named]
      exact (sound.structural_eq_nil represents filled action found empty).2

section running

variable (represents : input.language.tables.Represents grammar)
  (knowsNoEnd : input.language.lexer.KnowsNoEnd)
  (progresses : input.language.lexer.Progresses)
  (inside : input.language.scanner.StaysInside) (fresh : input.reuse = [])
  (filled : grammar.Filled)

include represents knowsNoEnd inside fresh

theorem Reaches.exists_atHand (reaches : Reaches input state)
    (taken : state.current input = .ok (token, middle)) (ordinary : token.isOrdinary = true) :
    ∃ there, AtHand input state token middle there := by
  obtain ⟨_, present, _⟩ := isOrdinary_iff.mp ordinary
  obtain ⟨front, text, scanner, last, whole, length, reads, behind⟩ :=
    reaches.exists_reads represents knowsNoEnd fresh inside taken present
  exact ⟨⟨state.topState, state.symbolOf input token, text, scanner, token.mode⟩,
    ⟨rfl, front, whole, length⟩, rfl, rfl, standsFor_symbolOf (standsRight_current knowsNoEnd
      (reaches.standsRight knowsNoEnd fresh) taken token List.mem_cons_self), last, reads, behind⟩

omit inside in
/-- An ordinary token that is accepted is built, if the one behind it is ordinary too. -/
theorem AtHand.shift (reaches : Reaches input state)
    (taken : state.current input = .ok (token, middle)) (ordinary : token.isOrdinary = true)
    {there : Juncture} (atHand : AtHand input state token middle there) {next : StateId}
    (action : input.language.action state.topState (state.symbolOf input token) = .shift next)
    {known token' : Lexeme} {middle' : ParseState}
    (named : known = { token with symbol := some (state.symbolOf input token) })
    (taken' : (middle.shift next (state.symbolOf input token) known).current input =
      .ok (token', middle')) (ordinary' : token'.isOrdinary = true) :
    ∃ above there', (middle.shift next (state.symbolOf input token) known).stack =
        above ++ state.stack ∧
      AtHand input (middle.shift next (state.symbolOf input token) known) token' middle' there' ∧
      input.language.Builds there (above.reverse.map profile) there' := by
  obtain ⟨isFresh, present, real⟩ := isOrdinary_iff.mp ordinary
  have notEnd := reaches.ordinary_of_shift represents knowsNoEnd fresh taken action
  have alone := reaches.pending_of_shift represents knowsNoEnd fresh taken present taken'
    (isOrdinary_iff.mp ordinary').1
  obtain ⟨stack, idle, _, _⟩ := current_ok taken
  obtain ⟨last, reads, behind⟩ := atHand.reads
  obtain ⟨rfl, scanner⟩ := behind alone
  have core : known.core = token.core := by rw [named]; rfl
  have extras : known.extras = token.extras := by rw [named]
  have frame : middle.SameBut (middle.shift next (state.symbolOf input token) known) :=
    sameBut_push_token ..
  obtain ⟨above, shape, profiles⟩ := middle.exists_stack_push_token known next
    (.leaf (known.toLeaf (state.symbolOf input token) middle.topState))
  -- the token behind is read right now, in the mode of the state that the token leads to
  have read : (middle.shift next (state.symbolOf input token) known).readLexeme input
      (input.language.lexMode next) = .ok (token', middle') := by
    have now := taken'
    rw [current, frame.lookahead, idle] at now
    simp only [nextLexeme, frame.pending, alone] at now
    exact now
  obtain ⟨⟨lexeme, cursor⟩, lexed, result⟩ := exists_of_bind_eq_ok read
  obtain ⟨rfl, rfl⟩ := Prod.mk.inj (Except.ok.inj result)
  rw [frame.cursor, frame.scannerState, scanner] at lexed
  have readsNext := reads_of_lex lexed
  have top : middle.topState = there.state := by
    rw [← atHand.stands.top, topState, stack]
  rw [atHand.symbol] at action shape profiles ⊢
  rw [show state.topState = there.state from atHand.stands.top] at action
  have builds : input.language.Builds there (above.reverse.map profile)
      ⟨next, resolveSymbol input.language next lexeme.core, middle.cursor.rest, token.scannerAfter,
        input.language.lexMode next⟩ := by
    rw [profiles, leaf_eq_of_core core (by rw [named]; exact isFresh), top, extras]
    exact reads.builds notEnd real atHand.standsFor action readsNext
  have whole : (middle.shift next there.symbol known).stack = above ++ state.stack :=
    shape.trans (congrArg _ stack)
  have mode : lexeme.mode = input.language.lexMode next := readsNext.present.2
  refine ⟨above, _, whole, ⟨?_, ?_, mode, Lexeme.standsFor_resolveSymbol _ next lexeme,
    cursor.rest, readsNext, fun _ => ⟨rfl, rfl⟩⟩, builds⟩
  · rw [whole]
    exact atHand.stands.onward builds
  · rw [symbolOf, ← asRead_of_lex knowsNoEnd lexed]
    rfl

omit represents in
/-- A node is built where its children were. -/
theorem Tracks.reduce (tracks : Tracks input grammar state) (reaches : Reaches input state)
    (taken : state.current input = .ok (token, middle)) (ordinary : token.isOrdinary = true)
    {id : ProductionId} {production : ProductionInfo}
    (action : input.language.action state.topState (state.symbolOf input token) = .reduce id)
    (found : input.language.production? id = some production) {known : Lexeme}
    (named : known = { token with symbol := some (state.symbolOf input token) })
    {children above below : List StackEntry} {next : StateId}
    (reduction : Reduction input middle id production known [] children (above ++ below) next)
    (more : production.rhs ≠ []) (tidy : ∀ entry ∈ children ++ above, Tidy grammar entry) :
    ∃ entry here start there,
      (middle.reduce input id production known).stack = entry :: (above ++ below) ∧
      AtHand input { middle.reduce input id production known with lookahead := some known } known
        { middle.reduce input id production known with lookahead := none } there ∧
      StandsOn input below here ∧ input.language.Builds here (above.reverse.map profile) start ∧
      StandsOn input (above ++ below) start ∧
      input.language.Builds start [profile entry] there := by
  obtain ⟨stack, _, _, _⟩ := current_ok taken
  have shape := reduction.shape
  rw [List.nil_append, ← List.append_assoc] at shape
  obtain ⟨here, there, atHand, stands, builds⟩ :=
    tracks token middle taken ordinary _ _ (stack.symm.trans shape) tidy
  obtain ⟨start, early, standsAbove, late⟩ := stands.split builds
  have placed := (reaches.placed knowsNoEnd inside (by simp [fresh])).current knowsNoEnd inside
    taken (some (state.symbolOf input token))
  rw [← named] at placed
  have ordinary_ : known.isOrdinary = true := by rw [named]; exact ordinary
  obtain ⟨last, reads, behind⟩ := atHand.reads
  have first : ∃ first, (children.reverse.map profile).head? = some first ∧
      first.2.isExtra = false := by
    obtain ⟨entry, listed, isStructural⟩ := reduction.first more
    exact ⟨profile entry, by simp [listed], by rwa [isExtra_profile]⟩
  have final : ∃ final, (children.reverse.map profile).getLast? = some final ∧
      final.2.isExtra = false := by
    obtain ⟨entry, listed, isStructural⟩ := reduction.final more
    exact ⟨profile entry, by simp [listed], by rwa [isExtra_profile]⟩
  have count : ((children.reverse.map profile).filter fun child => !child.2.isExtra).length =
      production.rhs.length := by
    rw [← reduction.symbols, structuralSymbols_entries, List.length_map, structural,
      List.filter_map, List.length_map]
    simp only [Function.comp_def, isExtra_profile]
  have top := standsAbove.top
  obtain ⟨entry, made, shown⟩ := exists_reduce input id
    (by rw [← List.nil_append children]; exact reduction.shape.trans (by simp)) placed.stack
    placed.atHand.start ordinary_ rfl first final count reduction.leads
    (congrArg Lexeme.symbol named)
  have real : token.core.raw ≠ errorSymbol := (isOrdinary_iff.mp ordinary).2.2
  have under : ({ middle with stack := above ++ below } : ParseState).topState = start.state := top
  have leads := reduction.leads
  rw [under] at leads shown
  rw [atHand.symbol, show state.topState = there.state from atHand.stands.top] at action
  have node := Language.Builds.node late first final reads real action found count leads (.nil _)
  have same : profile entry = (next, .node ⟨production.lhs, some id, start.state,
      some ⟨token.core.raw, there.symbol, there.mode, true⟩, 0, false⟩
        ((children.reverse.map profile).map Prod.snd)) := by
    rw [shown, ← atHand.symbol, ← atHand.mode, named]
    rfl
  rw [← same] at node
  have frame := middle.sameBut_reduce input id production known
  refine ⟨entry, here, start, { there with state := next }, made,
    ⟨?_, ?_, ?_, ?_, last, ?_, ?_⟩, stands, early, standsAbove, node⟩
  · have whole := standsAbove.onward
      (show input.language.Builds start ([entry].reverse.map profile) _ from node)
    rw [List.singleton_append, ← made] at whole
    exact whole
  · rw [symbolOf, ← atHand.symbol, named]
    rfl
  · rw [← atHand.mode, named]
  · rw [named]
    exact atHand.standsFor
  · rw [named]
    exact reads
  · intro alone
    change (middle.reduce input id production known).pending = [] at alone
    change _ = (middle.reduce input id production known).cursor.rest ∧
      (middle.reduce input id production known).scannerState = known.scannerAfter
    rw [frame.cursor, frame.scannerState, named]
    exact behind (frame.pending.symm.trans alone)

theorem Tracks.shift (tracks : Tracks input grammar state) (reaches : Reaches input state)
    (taken : state.current input = .ok (token, middle)) {next : StateId}
    (action : input.language.action state.topState (state.symbolOf input token) = .shift next)
    {known token' : Lexeme} {middle' : ParseState}
    (named : known = { token with symbol := some (state.symbolOf input token) })
    (taken' : (middle.shift next (state.symbolOf input token) known).current input =
      .ok (token', middle')) (ordinary' : token'.isOrdinary = true) {entry : StackEntry}
    {above below : List StackEntry}
    (stack : (middle.shift next (state.symbolOf input token) known).stack =
      entry :: above ++ below) (tidy : ∀ other ∈ entry :: above, Tidy grammar other) :
    ∃ here there,
      AtHand input (middle.shift next (state.symbolOf input token) known) token' middle' there ∧
      StandsOn input below here ∧
      input.language.Builds here ((entry :: above).reverse.map profile) there := by
  have ordinary : token.isOrdinary = true := by
    have leaf : entry.subtree =
        .leaf (known.toLeaf (state.symbolOf input token) middle.topState) := by
      rw [← (List.cons.inj stack).1]
      rfl
    have read := (tidy entry List.mem_cons_self).isOrdinary leaf
    rw [named] at read
    exact read
  obtain ⟨there, base⟩ := reaches.exists_atHand represents knowsNoEnd inside fresh taken ordinary
  have onward := fun {there} (base : AtHand input state token middle there) =>
    base.shift represents knowsNoEnd fresh reaches taken ordinary action named taken' ordinary'
  obtain ⟨new, _, whole, _, _⟩ := onward base
  rw [whole] at stack
  rcases List.append_eq_append_iff.mp stack with ⟨more, upper, lower⟩ | ⟨more, upper, lower⟩
  · -- some of what was there before is asked for too
    have tidy' : ∀ entry ∈ more, Tidy grammar entry := fun entry member =>
      tidy entry (upper ▸ List.mem_append_right _ member)
    obtain ⟨here, there, base, stands, builds⟩ :=
      tracks token middle taken ordinary more below lower tidy'
    obtain ⟨new', last, whole', atHand', builds'⟩ := onward base
    obtain rfl := List.append_cancel_right (whole'.symm.trans whole)
    refine ⟨here, last, atHand', stands, ?_⟩
    rw [upper, List.reverse_append, List.map_append]
    exact builds.append builds'
  · -- only the token and the last of its extras
    obtain ⟨new', last, whole', atHand', builds'⟩ := onward base
    obtain rfl := List.append_cancel_right (whole'.symm.trans whole)
    rw [upper] at builds'
    obtain ⟨start, _, stands, builds⟩ := base.stands.split builds'
    rw [lower]
    exact ⟨start, last, atHand', stands, builds⟩

include filled

theorem Tracks.step (tracks : Tracks input grammar state) (reaches : Reaches input state)
    (stepped : state.step input = .ok (.next after)) : Tracks input grammar after := by
  have reached := reaches.step stepped
  have atHand : ∀ token middle, after.current input = .ok (token, middle) →
      token.isOrdinary = true → ∃ there, AtHand input after token middle there :=
    fun _ _ taken ordinary =>
      reached.exists_atHand represents knowsNoEnd inside fresh taken ordinary
  have wrong (children : List Subtree) (under : ParseState) (next : StateId)
      (stack : after.stack = (under.push next (.ofError children)).stack) :
      Tracks input grammar after := by
    refine .of_error atHand fun entry rest shape tidy => ?_
    rw [stack] at shape
    rw [← (List.cons.inj shape).1] at tidy
    cases tidy.error
  obtain ⟨token, middle, taken, effect⟩ := effect_of_step fresh stepped
  cases effect with
  | shift action =>
      exact .of_cons atHand fun _ _ taken' ordinary' _ _ _ stack tidy =>
        tracks.shift represents knowsNoEnd inside fresh reaches taken action rfl taken' ordinary'
          stack tidy
  | @reduce id production action found =>
      refine .of_cons atHand fun token' middle' taken' ordinary' entry above below shape tidy => ?_
      generalize named : ({ token with symbol := some (state.symbolOf input token) } : Lexeme) =
        known at *
      obtain ⟨rfl, rfl⟩ := Prod.mk.inj (Except.ok.inj ((current_of_lookahead rfl).symm.trans taken'))
      obtain ⟨_, sound, stack⟩ := (reaches.sound represents rfl fresh).current taken
      have same : middle.topState = state.topState := by simp only [topState, stack]
      have action_ := action
      rw [← same] at action_
      obtain ⟨trailing, children, under, next, reduction⟩ :=
        sound.exists_reduction represents action_ found known
      have top := tidy entry List.mem_cons_self
      have isStructural : entry.isExtra = false := by
        refine Bool.eq_false_iff.mpr fun extra => ?_
        have error := reached.endsInError fresh entry _ shape extra
        rw [top.error] at error
        cases error
      obtain ⟨rfl, rfl, more, tidyChildren⟩ :=
        reduction.of_tidy represents filled sound action_ found shape top isStructural
      have ordinary : token.isOrdinary = true := by rw [← named] at ordinary'; exact ordinary'
      obtain ⟨entry', here, start, there, made, atHand, stands, early, _, late⟩ :=
        tracks.reduce knowsNoEnd inside fresh reaches taken ordinary action found named.symm
          reduction more fun other member => (List.mem_append.mp member).elim (tidyChildren other)
            fun listed => tidy other (List.mem_cons_of_mem _ listed)
      obtain ⟨rfl, _⟩ := List.cons.inj (made.symm.trans shape)
      refine ⟨here, there, atHand, stands, ?_⟩
      rw [List.reverse_cons, List.map_append]
      exact early.append late
  | insert =>
      intro token' middle' taken' ordinary'
      obtain ⟨rfl, _⟩ := Prod.mk.inj (Except.ok.inj ((current_of_lookahead rfl).symm.trans taken'))
      cases ordinary'
  | skip => exact wrong _ _ _ rfl
  | pop _ _ _ found =>
      simp only [ParseState.popEntries, found] at wrong ⊢
      exact wrong _ _ _ rfl
  | wrap => exact wrong _ _ _ rfl

theorem Reaches.tracks (reaches : Reaches input state) : Tracks input grammar state := by
  induction reaches with
  | initial =>
      intro token middle taken ordinary above below stack _
      obtain ⟨rfl, rfl⟩ := List.append_eq_nil_iff.mp (Eq.symm stack)
      obtain ⟨there, atHand⟩ :=
        Reaches.initial.exists_atHand represents knowsNoEnd inside fresh taken ordinary
      exact ⟨there, there, atHand, atHand.stands, .nil there⟩
  | step reaches stepped ih =>
      exact ih.step represents knowsNoEnd inside fresh filled reaches stepped

include progresses

/-- A node that can be used again is built from its text. -/
theorem Reaches.locates_step (reaches : Reaches input state)
    (locates : state.Locates (input.language.BuildsAt input.text))
    (stepped : state.step input = .ok (.next after)) :
    after.Locates (input.language.BuildsAt input.text) := by
  obtain ⟨token, middle, taken, effect⟩ := effect_of_step fresh stepped
  obtain ⟨_, sound, stack⟩ := (reaches.sound represents rfl fresh).current taken
  have top : middle.topState = state.topState := by simp only [topState, stack]
  refine (locates.of_stack stack).effect (fun id production action found => ?_) effect
  generalize named : ({ token with symbol := some (state.symbolOf input token) } : Lexeme) = known
  have action_ := action
  rw [← top] at action_
  obtain ⟨trailing, children, below, next, reduction⟩ :=
    sound.exists_reduction represents action_ found known
  refine (locates.of_stack stack).reduce reduction.shape reduction.reduced fun reusable => ?_
  have placed := (reaches.placed knowsNoEnd inside (by simp [fresh])).current knowsNoEnd inside
    taken (some (state.symbolOf input token))
  rw [named] at placed
  have more : production.rhs ≠ [] := by
    intro empty
    have long := Subtree.padding_lt_of_isReusable reusable
    rw [reduction.empty empty] at long
    exact absurd long (Nat.not_lt_zero _)
  have weighty := reaches.weighty represents knowsNoEnd progresses inside fresh filled
  have same : middle.forest = state.forest := by rw [forest, stack]; rfl
  rw [← same] at weighty
  simp only [Subtree.isReusable, Subtree.isReusableWith, Subtree.summary, Bool.and_eq_true,
    Bool.not_eq_true'] at reusable
  obtain ⟨⟨⟨⟨⟨_, error⟩, fragile⟩, _⟩, again⟩, _⟩ := reusable
  obtain ⟨rfl, ordinary⟩ := reduction.trailing_eq_nil represents filled action_ found weighty
    placed.stack placed.atHand.start more again
  have tidy := reduction.tidy represents filled action_ found (Bool.or_eq_false_iff.mp error).2
    fragile
  have whole : ∀ entry ∈ children ++ [], Tidy grammar entry := by simpa using tidy
  obtain ⟨entry, _, start, there, made, _, _, _, stands, builds⟩ :=
    (reaches.tracks represents knowsNoEnd inside fresh filled).reduce knowsNoEnd inside fresh reaches
      taken (by rw [← named] at ordinary; exact ordinary) action found named.symm reduction more
      whole
  obtain ⟨front, text, length⟩ := stands.text
  refine ⟨front, start, there, entry.state, text, length, ?_⟩
  rw [reduction.reduced] at made
  obtain ⟨rfl, _⟩ := List.cons.inj made
  exact builds

theorem Reaches.locates (reaches : Reaches input state) :
    state.Locates (input.language.BuildsAt input.text) := by
  induction reaches with
  | initial => exact trivial
  | step reaches stepped ih =>
      exact reaches.locates_step represents knowsNoEnd progresses inside fresh filled ih stepped

/-- Every node in a tree that can be used again is built from its text. -/
theorem Reaches.located (reaches : Reaches input state) {root : Subtree} {stats : ParseStats}
    (stepped : state.step input = .ok (.done root stats)) :
    Subtree.Located (input.language.BuildsAt input.text) 0 root := by
  have locates := reaches.locates represents knowsNoEnd progresses inside fresh filled
  obtain ⟨token, middle, taken, effect⟩ := effect_of_step fresh stepped
  obtain ⟨_, sound, stack⟩ := (reaches.sound represents rfl fresh).current taken
  have top : middle.topState = state.topState := by simp only [topState, stack]
  have same := locates.of_stack stack
  cases effect with
  | accept action =>
      rw [← top] at action
      exact same.accept _ fun _ member structural_ =>
        sound.isNode_of_accept represents action member structural_
  | wrapAll => exact same.wrapAll _

end running

end ParseState

end Lalr
