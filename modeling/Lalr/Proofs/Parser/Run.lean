import Lalr.Parser.Basic
import Lalr.Proofs.Parser.Effect
import Lalr.Proofs.Parser.Stack

set_option autoImplicit false

/-!
The run of a parse. Every step, recovery included, leaves a sound stack, also where subtrees
that are derivations are taken over; and the tree that a parse without an old tree ends with
follows the productions.
-/

namespace Lalr

/-! ## Lexemes -/

/-- The leaves before the token are extras. -/
def Lexeme.OnlyExtras (lexeme : Lexeme) : Prop :=
  ∀ leaf ∈ lexeme.extras, leaf.extra = true

theorem onlyExtras_of_lexFrom {language : Language} {start : Nat} {mode : ValidExternals}
    {limit : Nat} {extras : List Leaf} {examinedEnd : Nat} {cursor : Text.Cursor}
    {scanner : ScannerState} {result : Lexeme × Text.Cursor}
    (passed : ∀ leaf ∈ extras, leaf.extra = true)
    (read : lexFrom language start mode limit extras examinedEnd cursor scanner = .ok result) :
    result.1.OnlyExtras := by
  induction limit generalizing extras examinedEnd cursor scanner with
  | zero => cases read
  | succ limit hypothesis =>
      obtain ⟨found, _, rest⟩ := exists_of_bind_eq_ok read
      split at rest
      case isTrue =>
          refine hypothesis ?_ rest
          intro leaf member
          rcases List.mem_cons.mp member with rfl | old
          · rfl
          · exact passed leaf old
      case isFalse =>
          obtain rfl := Except.ok.inj rest
          intro leaf member
          exact passed leaf (List.mem_reverse.mp member)

theorem onlyExtras_of_lex {language : Language} {cursor after : Text.Cursor}
    {mode : ValidExternals} {scanner : ScannerState} {lexeme : Lexeme}
    (read : lex language cursor mode scanner = .ok (lexeme, after)) : lexeme.OnlyExtras :=
  onlyExtras_of_lexFrom (by simp) read

theorem ReadInTurn.onlyExtras {language : Language} {cursor last : Text.Cursor}
    {scanner final : ScannerState} {lexemes : List Lexeme}
    (inTurn : ReadInTurn language cursor scanner lexemes last final) :
    ∀ lexeme ∈ lexemes, lexeme.OnlyExtras := by
  induction inTurn with
  | nil => simp
  | cons read _ ih =>
      intro lexeme member
      rcases List.mem_cons.mp member with rfl | later
      · exact onlyExtras_of_lex read
      · exact ih lexeme later

/-- Subtrees on offer are derivations and no extras. -/
def ReuseIndex.Derive (index : ReuseIndex) (language : Language) : Prop :=
  ∀ candidate ∈ index, candidate.subtree.isExtra = false ∧
    candidate.subtree.IsDerivation language ∧ candidate.subtree.FollowsProductions language

namespace ParseState

/-! ## Sound states -/

/-- What holds of the state of a parse after every step. -/
structure Sound (language : Language) (grammar : FlatGrammar) (state : ParseState) : Prop where
  stack : StackSound language grammar state.stack
  lookahead : ∀ lexeme ∈ state.lookahead, lexeme.OnlyExtras
  pending : ∀ lexeme ∈ state.pending, lexeme.OnlyExtras

variable {language : Language} {grammar : FlatGrammar} {input : ParseInput} {state : ParseState}

theorem sound_initial (text : List Char) : (initial text).Sound language grammar :=
  ⟨.nil, nofun, nofun⟩

namespace Sound

theorem topState_eq (sound : state.Sound language grammar) :
    state.topState = structuralTop state.stack :=
  sound.stack.onPath.top_eq

/-- An extra is pushed with the state on top. -/
theorem push_extra (sound : state.Sound language grammar) (subtree : Subtree)
    (extra : subtree.isExtra = true) (follows : subtree.FollowsProductions language) :
    (state.push state.topState subtree).Sound language grammar :=
  ⟨sound.stack.cons_extra extra sound.topState_eq follows, sound.lookahead, sound.pending⟩

/-- Extras are pushed with the state on top, which stays there. -/
theorem pushAll (sound : state.Sound language grammar) {subtrees : List Subtree}
    (extras : ∀ subtree ∈ subtrees, subtree.isExtra = true)
    (follow : ∀ subtree ∈ subtrees, subtree.FollowsProductions language) :
    (state.pushAll state.topState subtrees).Sound language grammar ∧
      (state.pushAll state.topState subtrees).topState = state.topState := by
  induction subtrees generalizing state with
  | nil => exact ⟨sound, rfl⟩
  | cons subtree subtrees hypothesis =>
      have pushed := sound.push_extra subtree (extras subtree List.mem_cons_self)
        (follow subtree List.mem_cons_self)
      exact hypothesis pushed (fun other member => extras other (List.mem_cons_of_mem _ member))
        fun other member => follow other (List.mem_cons_of_mem _ member)

theorem pushExtras (sound : state.Sound language grammar) {lexeme : Lexeme}
    (onlyExtras : lexeme.OnlyExtras) :
    (state.pushExtras state.topState lexeme).Sound language grammar ∧
      (state.pushExtras state.topState lexeme).topState = state.topState := by
  refine sound.pushAll ?_ ?_
  · intro subtree member
    obtain ⟨leaf, listed, rfl⟩ := List.mem_map.mp member
    exact onlyExtras leaf listed
  · intro subtree member
    obtain ⟨leaf, _, rfl⟩ := List.mem_map.mp member
    exact Subtree.followsProductions_leaf leaf

/-- The extras before a token and an error node behind them. -/
theorem push_error (sound : state.Sound language grammar) {lexeme : Lexeme}
    (onlyExtras : lexeme.OnlyExtras) {children : List Subtree}
    (follow : ∀ child ∈ children, child.FollowsProductions language) :
    ((state.pushExtras state.topState lexeme).push state.topState
      (.ofError children)).Sound language grammar := by
  obtain ⟨pushed, top⟩ := sound.pushExtras onlyExtras
  have errorPushed := pushed.push_extra _ (Subtree.isExtra_ofError children)
    (Subtree.followsProductions_ofError follow)
  rwa [top] at errorPushed

theorem shift (sound : state.Sound language grammar)
    (represents : language.tables.Represents grammar) {lexeme : Lexeme}
    (onlyExtras : lexeme.OnlyExtras) {next : StateId} {symbol : SymbolId}
    (action : language.action state.topState symbol = .shift next) :
    (state.shift next symbol lexeme).Sound language grammar := by
  obtain ⟨pushed, top⟩ := sound.pushExtras onlyExtras
  obtain ⟨terminal, edge⟩ := represents.edge_of_shift action
  rw [← represents.isTerminal_eq] at terminal
  refine ⟨pushed.stack.cons_structural rfl ?_ ?_ (Subtree.followsProductions_leaf _),
    pushed.lookahead, pushed.pending⟩
  · rwa [← pushed.topState_eq, top]
  · simpa [StackEntry.ofSubtree, Lexeme.toLeaf, Subtree.IsDerivation] using terminal

theorem reduce (sound : state.Sound language grammar)
    (represents : language.tables.Represents grammar) (token : Lexeme) {id : ProductionId}
    {symbol : SymbolId} (same : input.language = language)
    (action : language.action state.topState symbol = .reduce id)
    {production : ProductionInfo} (found : language.production? id = some production) :
    (state.reduce input id production token).Sound language grammar := by
  subst same
  rw [sound.topState_eq] at action
  obtain ⟨info, trailing, taken, below, next, known, shape, taking, extras, popping, symbols,
    leads⟩ := reduction_spec represents sound.stack action
  obtain rfl := Option.some.inj (known.symm.trans found)
  have all := sound.stack
  rw [shape, List.append_assoc] at all
  have belowSound : ({ state with stack := below } : ParseState).Sound input.language grammar :=
    ⟨all.suffix.suffix, sound.lookahead, sound.pending⟩
  have under := belowSound.topState_eq
  obtain ⟨terminal, edge⟩ := represents.goto?_eq_some_iff.mp leads
  unfold ParseState.reduce
  simp only [taking, popping, under, leads, Option.getD_some]
  have matched : Subtree.Matches input.language id info.lhs
      (taken.reverse.map StackEntry.subtree) := ⟨info, found, rfl, symbols⟩
  refine (@pushAll _ grammar { state with stack := _ :: below } ⟨?_, sound.lookahead,
    sound.pending⟩ _ ?_ ?_).1
  · refine belowSound.stack.cons_structural rfl edge ?_ ?_
    · simp only [StackEntry.ofEntries, Subtree.IsDerivation]
      refine ⟨⟨id, rfl, matched⟩, Subtree.allDerivations_iff.mpr ?_⟩
      intro subtree member
      obtain ⟨entry, listed, rfl⟩ := List.mem_map.mp member
      cases extra : entry.isExtra with
      | true => exact .inl extra
      | false =>
          exact .inr (all.suffix.derivations entry
            (List.mem_append_left _ (List.mem_reverse.mp listed)) extra)
    · simp only [StackEntry.ofEntries, Subtree.FollowsProductions]
      refine ⟨fun other same => Option.some.inj same ▸ matched,
        Subtree.allFollowProductions_iff.mpr ?_⟩
      intro subtree member
      obtain ⟨entry, listed, rfl⟩ := List.mem_map.mp member
      exact all.suffix.follow entry (List.mem_append_left _ (List.mem_reverse.mp listed))
  · intro subtree member
    obtain ⟨entry, listed, rfl⟩ := List.mem_map.mp member
    exact extras entry (List.mem_reverse.mp listed)
  · intro subtree member
    obtain ⟨entry, listed, rfl⟩ := List.mem_map.mp member
    exact all.follow entry (List.mem_append_left _ (List.mem_reverse.mp listed))

end Sound

/-! ## Reading -/

/-- The token at hand is taken without touching the stack. -/
theorem Sound.current (sound : state.Sound language grammar) {token : Lexeme}
    {after : ParseState} (taken : state.current input = .ok (token, after)) :
    token.OnlyExtras ∧ after.Sound language grammar ∧ after.stack = state.stack := by
  obtain ⟨stack, idle, whole, inTurn⟩ := current_ok taken
  have all : ∀ lexeme ∈ token :: after.pending, lexeme.OnlyExtras := by
    intro lexeme member
    rw [whole, List.append_assoc] at member
    rcases List.mem_append.mp member with waits | later
    · exact sound.lookahead lexeme (Option.mem_toList.mp waits)
    · exact (List.mem_append.mp later).elim (sound.pending lexeme) (inTurn.onlyExtras lexeme)
  refine ⟨all token List.mem_cons_self, ⟨stack ▸ sound.stack, by simp [idle], ?_⟩, stack⟩
  exact fun lexeme member => all lexeme (List.mem_cons_of_mem _ member)

/-- Looking ahead only reads. -/
theorem Sound.readsAhead (sound : state.Sound language grammar) {read : List Lexeme}
    {after : ParseState} (ahead : ReadsAhead input state read after) :
    after.Sound language grammar :=
  ⟨ahead.stack ▸ sound.stack, ahead.lookahead ▸ sound.lookahead,
    ahead.forall_pending sound.pending ahead.inTurn.onlyExtras⟩

/-! ## Recovery -/

theorem Sound.insertMissing (sound : state.Sound language grammar) {token : Lexeme}
    (onlyExtras : token.OnlyExtras) (symbol : SymbolId) :
    (state.insertMissing input symbol token).Sound language grammar := by
  refine ⟨sound.stack, ?_, ?_⟩
  · intro lexeme same
    obtain rfl := Option.some.inj same
    exact fun leaf member => absurd member List.not_mem_nil
  · intro lexeme member
    rcases List.mem_cons.mp member with rfl | old
    · exact onlyExtras
    · exact sound.pending lexeme old

/-- Skipped tokens go into an error node. -/
theorem Sound.skipTo (sound : state.Sound language grammar) {token next : Lexeme}
    (onlyExtras : token.OnlyExtras) {skipped pending : List Lexeme}
    (whole : state.pending = skipped ++ next :: pending) :
    (state.skipTo token skipped next pending).Sound language grammar := by
  have kept : ∀ lexeme ∈ next :: pending, lexeme.OnlyExtras := fun lexeme member =>
    sound.pending lexeme (whole ▸ List.mem_append_right _ member)
  have leaves : ∀ child ∈ Subtree.leaf (token.toLeaf token.raw state.topState) ::
      skipped.flatMap (skippedSubtrees state.topState), child.FollowsProductions language := by
    intro child member
    rcases List.mem_cons.mp member with rfl | later
    · exact Subtree.followsProductions_leaf _
    · obtain ⟨lexeme, _, listed⟩ := List.mem_flatMap.mp later
      rcases List.mem_append.mp listed with extra | own
      · obtain ⟨leaf, _, rfl⟩ := List.mem_map.mp extra
        exact Subtree.followsProductions_leaf leaf
      · obtain rfl := List.mem_singleton.mp own
        exact Subtree.followsProductions_leaf _
  refine ⟨(sound.push_error onlyExtras leaves).stack, ?_, fun lexeme member =>
    kept lexeme (List.mem_cons_of_mem _ member)⟩
  intro lexeme same
  obtain rfl := Option.some.inj same
  exact kept next List.mem_cons_self

theorem Sound.popEntries (sound : state.Sound language grammar) (input : ParseInput)
    {token : Lexeme} (onlyExtras : token.OnlyExtras) :
    (state.popEntries input token).2.Sound language grammar := by
  unfold ParseState.popEntries
  split
  case h_1 => exact sound
  case h_2 depth _ =>
      obtain ⟨taken, below, shape, popping, _⟩ := popStructural_spec [] depth state.stack
      have all := sound.stack
      rw [shape] at all
      have remaining : ({ state with stack := below } : ParseState).Sound language grammar :=
        ⟨all.suffix, sound.lookahead, sound.pending⟩
      simp only [popping]
      have pushed := remaining.push_extra
        (.ofError ((taken.reverse ++ []).map StackEntry.subtree)) rfl
        (Subtree.followsProductions_ofError fun child member => by
          obtain ⟨entry, listed, rfl⟩ := List.mem_map.mp member
          exact all.follow entry (List.mem_append_left _ (by simpa using listed)))
      refine ⟨pushed.stack, ?_, pushed.pending⟩
      intro lexeme same
      obtain rfl := Option.some.inj same
      exact onlyExtras

theorem Sound.wrapToken (sound : state.Sound language grammar) {token : Lexeme}
    (onlyExtras : token.OnlyExtras) : (state.wrapToken token).Sound language grammar := by
  refine sound.push_error onlyExtras fun child member => ?_
  obtain rfl := List.mem_singleton.mp member
  exact Subtree.followsProductions_leaf _

/-! ## Reachable states -/

/-- The states that a parse can pass through. -/
inductive Reaches (input : ParseInput) : ParseState → Prop where
  | initial : Reaches input (.initial input.text)
  | step {state after : ParseState} :
      Reaches input state → state.step input = .ok (.next after) → Reaches input after

theorem Sound.takeOver (sound : state.Sound input.language grammar)
    (represents : input.language.tables.Represents grammar) {token : Lexeme}
    (onlyExtras : token.OnlyExtras) (derive : input.reuse.Derive input.language)
    {symbol : SymbolId} {after : ParseState} (takes : TakesOver input state symbol token after) :
    after.Sound input.language grammar := by
  cases takes with
  | behind tries _ read _ =>
      obtain ⟨pushed, top⟩ := sound.pushExtras onlyExtras
      obtain ⟨head, children, shape, _, _, leads⟩ := tries.node
      obtain ⟨isStructural, derivation, follows⟩ := derive _ tries.listed
      obtain ⟨_, edge⟩ := represents.goto?_eq_some_iff.mp leads
      refine ⟨pushed.stack.cons_structural isStructural ?_ derivation follows, ?_,
        pushed.pending⟩
      · rw [← pushed.topState_eq, top]
        simp only [StackEntry.ofSubtree, shape]
        exact edge
      · intro lexeme same
        obtain rfl := Option.some.inj same
        have extras := onlyExtras_of_lex read
        exact extras

theorem Sound.step_of_derive (sound : state.Sound language grammar)
    (represents : language.tables.Represents grammar) (same : input.language = language)
    (derive : input.reuse.Derive language) {after : ParseState}
    (stepped : state.step input = .ok (.next after)) : after.Sound language grammar := by
  subst same
  obtain ⟨token, middle, taken, outcome⟩ := effect_or_takesOver_of_step stepped
  obtain ⟨onlyExtras, middleSound, stack⟩ := sound.current taken
  have top : middle.topState = state.topState := by simp only [topState, stack]
  have named : ({ token with symbol := some (state.symbolOf input token) } : Lexeme).OnlyExtras :=
    onlyExtras
  rw [← top] at outcome
  rcases outcome with effect | ⟨_, _, _, takes, same⟩
  case inr =>
      obtain rfl := ParseStep.next.inj same
      exact middleSound.takeOver represents named derive takes
  cases effect with
  | shift action => exact middleSound.shift represents named action
  | reduce action found =>
      have reduced := middleSound.reduce represents
        { token with symbol := some (state.symbolOf input token) } rfl action found
      refine ⟨reduced.stack, fun lexeme known => ?_, reduced.pending⟩
      obtain rfl := Option.some.inj known
      exact named
  | insert => exact middleSound.insertMissing named _
  | skip _ _ _ _ searched whole _ =>
      obtain ⟨⟨_, ahead⟩, _⟩ := findAcceptable_ok searched
      exact (middleSound.readsAhead ahead).skipTo named whole
  | pop _ _ inVain =>
      obtain ⟨_, ahead⟩ := inVain.readsAhead
      exact (middleSound.readsAhead ahead).popEntries input named
  | wrap _ _ inVain =>
      obtain ⟨_, ahead⟩ := inVain.readsAhead
      exact (middleSound.readsAhead ahead).wrapToken named

theorem Sound.step (sound : state.Sound language grammar)
    (represents : language.tables.Represents grammar) (same : input.language = language)
    (fresh : input.reuse = []) {after : ParseState}
    (stepped : state.step input = .ok (.next after)) : after.Sound language grammar :=
  sound.step_of_derive represents same (by simp [ReuseIndex.Derive, fresh]) stepped

/-- Every state that a parse without an old tree passes through is sound. -/
theorem Reaches.sound (reaches : Reaches input state)
    (represents : language.tables.Represents grammar) (same : input.language = language)
    (fresh : input.reuse = []) : state.Sound language grammar := by
  induction reaches with
  | initial => exact sound_initial input.text
  | step _ stepped hypothesis => exact hypothesis.step represents same fresh stepped

theorem exists_last_of_runSteps {limit : Nat} {result : Subtree × ParseStats}
    (reaches : Reaches input state) (ran : runSteps input limit state = .ok result) :
    ∃ last, Reaches input last ∧ last.step input = .ok (.done result.1 result.2) := by
  induction limit generalizing state with
  | zero => cases ran
  | succ limit hypothesis =>
      unfold runSteps at ran
      split at ran
      case h_1 => cases ran
      case h_2 root stats stepped =>
          obtain rfl := Except.ok.inj ran
          exact ⟨state, reaches, stepped⟩
      case h_3 after stepped => exact hypothesis (reaches.step stepped) ran

end ParseState

open ParseState in
/-- A parse that returns a tree ends with a last step from a state it passed through. -/
theorem exists_last_of_runParse {input : ParseInput} {root : Subtree} {stats : ParseStats}
    (ran : runParse input = .ok (root, stats)) :
    ∃ last, Reaches input last ∧ last.step input = .ok (.done root stats) :=
  exists_last_of_runSteps .initial ran

end Lalr
