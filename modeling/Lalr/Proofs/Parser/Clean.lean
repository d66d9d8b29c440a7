import Lalr.Proofs.Parser.Parts
import Lalr.Proofs.Parser.Reading
import Lalr.Proofs.Parser.Result
import Lalr.Proofs.Parser.Termination

set_option autoImplicit false

/-!
Parses without errors. Where the tree that a parse returns holds no error, no step recovered from
one, and the table alone has read the tree: leaving out the extras, token by token and node by
node as its shifts and reductions say.
-/

namespace Lalr

/-! ## Trees without extras -/

namespace Subtree

mutual

/-- The symbols of a tree, the extras in it left out. -/
def skeleton : Subtree → SymbolTree
  | .leaf token => .token token.symbol
  | .node head children => .node head.symbol (skeletons children)

/-- The symbols of several trees, the extras among them and in them left out. -/
def skeletons : List Subtree → List SymbolTree
  | [] => []
  | child :: children =>
      if child.isExtra then skeletons children else child.skeleton :: skeletons children

end

theorem skeletons_eq (subtrees : List Subtree) :
    skeletons subtrees = (subtrees.filter fun subtree => !subtree.isExtra).map skeleton := by
  induction subtrees with
  | nil => rfl
  | cons subtree subtrees ih =>
      cases extra : subtree.isExtra <;> simp [skeletons, extra, ih]

theorem skeletons_append (first second : List Subtree) :
    skeletons (first ++ second) = skeletons first ++ skeletons second := by
  simp [skeletons_eq]

theorem skeletons_extras {leaves : List Leaf} (extras : ∀ leaf ∈ leaves, leaf.extra = true) :
    skeletons (leaves.map .leaf) = [] := by
  rw [skeletons_eq, List.map_eq_nil_iff, List.filter_eq_nil_iff]
  intro child member
  obtain ⟨leaf, listed, rfl⟩ := List.mem_map.mp member
  simp [isExtra, extras leaf listed]

theorem symbol_skeleton (subtree : Subtree) : subtree.skeleton.symbol = subtree.symbol := by
  cases subtree <;> rfl

/-- A node that is an extra is an error. -/
def OnlyErrorsExtra (subtree : Subtree) : Prop :=
  ∀ head children, subtree = .node head children → head.extra = true → head.symbol = errorSymbol

theorem lenient_onlyErrorsExtra : Lenient OnlyErrorsExtra where
  ofError children head below same _ := by
    obtain ⟨rfl, _⟩ := Subtree.node.inj same
    rfl
  root symbol production children head below same extra := by
    obtain ⟨rfl, _⟩ := Subtree.node.inj same
    cases extra

theorem anyContainsError_iff {subtrees : List Subtree} :
    anyContainsError subtrees = false ↔ ∀ subtree ∈ subtrees, subtree.containsError = false := by
  induction subtrees with
  | nil => simp [anyContainsError]
  | cons subtree subtrees ih => simp [anyContainsError, ih]

/-- What lies in a tree without errors lies in its skeleton, or it is a leaf. -/
theorem LiesAt.isPartOf_skeleton {part whole : Subtree} {offset : Nat}
    (lies : part.LiesAt offset whole) (clean : whole.containsError = false)
    (extras : whole.Everywhere OnlyErrorsExtra) :
    part.skeleton.IsPartOf whole.skeleton ∨ ∃ leaf, part = .leaf leaf := by
  induction lies with
  | whole => exact .inl .whole
  | @inside offset head before behind child lies ih =>
      have member : child ∈ before ++ child :: behind := by simp
      rw [containsError, Bool.or_eq_false_iff, anyContainsError_iff] at clean
      have below := (everywhere_node.mp extras).2 child member
      cases extra : child.isExtra with
      | false =>
          refine (ih (clean.2 child member) below).imp_left fun inside => ?_
          refine SymbolTree.IsPartOf.inside ?_ inside
          rw [skeletons_eq]
          exact List.mem_map_of_mem (List.mem_filter.mpr ⟨member, by simp [extra]⟩)
      | true =>
          cases child with
          | leaf token =>
              cases lies
              exact .inr ⟨token, rfl⟩
          | node head children =>
              have error := below.here head children rfl extra
              have none_below := clean.2 _ member
              simp [containsError, error] at none_below

/-- What is said of all trees in the skeleton of a tree without errors, and of tokens, can be said
of all its parts. -/
theorem everywhere_of_skeleton {property : SymbolTree → Prop} {whole : Subtree}
    (clean : whole.containsError = false) (extras : whole.Everywhere OnlyErrorsExtra)
    (tokens : ∀ symbol, property (.token symbol)) (holds : whole.skeleton.Everywhere property) :
    whole.Everywhere fun part => property part.skeleton := by
  intro part offset lies
  rcases lies.isPartOf_skeleton clean extras with inside | ⟨leaf, rfl⟩
  · exact holds _ inside
  · exact tokens leaf.symbol

end Subtree

namespace ParseState

open LanguageTables BuildConfiguration

variable {language : Language} {grammar : FlatGrammar} {input : ParseInput}
  {state after middle : ParseState} {token : Lexeme}

/-! ## No step recovers -/

/-- Nothing on the stack holds an error, and the token at hand is none that was put in. -/
structure Clean (state : ParseState) : Prop where
  stack : ∀ entry ∈ state.stack, entry.subtree.containsError = false
  lookahead : ∀ token ∈ state.lookahead, token.missing = false

theorem stack_pushAll (next : StateId) (subtrees : List Subtree) :
    ∃ above, (state.pushAll next subtrees).stack = above ++ state.stack ∧
      above.map StackEntry.subtree = subtrees.reverse := by
  induction subtrees generalizing state with
  | nil => exact ⟨[], rfl, rfl⟩
  | cons subtree subtrees ih =>
      obtain ⟨above, shape, same⟩ := @ih (state.push next subtree)
      refine ⟨above ++ [.ofSubtree next subtree state.stackEnd], ?_, ?_⟩
      · rw [List.append_assoc]
        exact shape
      · simp [same, StackEntry.ofSubtree]

theorem Clean.of_shift {next : StateId} {symbol : SymbolId}
    (clean : (state.shift next symbol token).Clean) :
    (∀ entry ∈ state.stack, entry.subtree.containsError = false) ∧ token.missing = false := by
  obtain ⟨above, shape, _⟩ := state.stack_pushAll state.topState (token.extras.map .leaf)
  refine ⟨fun entry member => clean.stack entry (List.mem_cons_of_mem _ ?_), ?_⟩
  · exact shape ▸ List.mem_append_right above member
  · have leaf := clean.stack _ List.mem_cons_self
    simp only [StackEntry.ofSubtree, Subtree.containsError, Bool.or_eq_false_iff] at leaf
    exact leaf.2

theorem Clean.of_reduce {id : ProductionId} {production : ProductionInfo}
    (clean : ∀ entry ∈ (state.reduce input id production token).stack,
      entry.subtree.containsError = false) :
    ∀ entry ∈ state.stack, entry.subtree.containsError = false := by
  obtain ⟨trailing, taken, below, shape, _, _, reduced⟩ := reduce_eq input state id production token
  rw [reduced] at clean
  obtain ⟨above, pushed, same⟩ := stack_pushAll _ _
  rw [pushed] at clean
  have node := clean _ (List.mem_append_right _ List.mem_cons_self)
  simp only [StackEntry.ofEntries, Subtree.containsError, Bool.or_eq_false_iff,
    Subtree.anyContainsError_iff] at node
  rw [shape]
  intro entry member
  rcases List.mem_append.mp member with extra | structural
  · have listed : entry.subtree ∈ above.map StackEntry.subtree := by
      rw [same]
      simpa using ⟨entry, extra, rfl⟩
    obtain ⟨other, inside, subtree⟩ := List.mem_map.mp listed
    exact subtree ▸ clean other (List.mem_append_left _ inside)
  · rcases List.mem_append.mp structural with child | under
    · exact node.2 entry.subtree (List.mem_map_of_mem (List.mem_reverse.mpr child))
    · exact clean entry (List.mem_append_right _ (List.mem_cons_of_mem _ under))

/-- What a step of a parse without errors does: it takes a token that was read, and shifts it or
makes a reduction. -/
inductive Proceeds (input : ParseInput) (state : ParseState) : ParseState → Prop where
  | shift {token : Lexeme} {middle : ParseState} {next : StateId} :
      state.current input = .ok (token, middle) →
      input.language.action state.topState (state.symbolOf input token) = .shift next →
      Proceeds input state (middle.shift next (state.symbolOf input token)
        { token with symbol := some (state.symbolOf input token) })
  | reduce {token : Lexeme} {middle : ParseState} {id : ProductionId}
      {production : ProductionInfo} : state.current input = .ok (token, middle) →
      input.language.action state.topState (state.symbolOf input token) = .reduce id →
      input.language.production? id = some production →
      Proceeds input state
        { middle.reduce input id production
            { token with symbol := some (state.symbolOf input token) } with
          lookahead := some { token with symbol := some (state.symbolOf input token) } }

/-- An error stays in the tree, so a step that ends without one started without one and did not
recover. -/
theorem Clean.of_step (fresh : input.reuse = []) (clean : after.Clean)
    (stepped : state.step input = .ok (.next after)) :
    state.Clean ∧ state.Proceeds input after := by
  obtain ⟨token, middle, taken, effect⟩ := effect_of_step fresh stepped
  have stack := (current_ok taken).1
  have starts : (∀ entry ∈ middle.stack, entry.subtree.containsError = false) →
      token.missing = false → state.Clean := by
    refine fun kept present => ⟨stack ▸ kept, fun other waits => ?_⟩
    obtain rfl : other = token := by
      rw [current, Option.mem_def.mp waits] at taken
      exact (Prod.mk.inj (Except.ok.inj taken)).1
    exact present
  have error_free : ∀ {children : List Subtree} {next : StateId} {start : Nat},
      StackEntry.ofSubtree next (.ofError children) start ∉ after.stack := by
    intro children next start member
    cases clean.stack _ member
  cases effect with
  | shift action =>
      obtain ⟨kept, present⟩ := Clean.of_shift clean
      exact ⟨starts kept present, .shift taken action⟩
  | reduce action found =>
      have present := clean.lookahead _ (Option.mem_some_self _)
      exact ⟨starts (Clean.of_reduce clean.stack) present, .reduce taken action found⟩
  | insert => cases clean.lookahead _ rfl
  | skip => exact absurd List.mem_cons_self error_free
  | pop _ _ _ depth =>
      simp only [popEntries, depth] at error_free
      exact absurd List.mem_cons_self error_free
  | wrap => exact absurd List.mem_cons_self error_free

/-! ## What the table has read -/

/-- The stack of the machine behind the stack of a parse. -/
def standing (stack : List StackEntry) : List (StateId × SymbolTree) :=
  (structural stack).map fun entry => (entry.state, entry.subtree.skeleton)

theorem topOf_standing (stack : List StackEntry) : topOf (standing stack) = structuralTop stack := by
  simp only [topOf, standing, structuralTop, List.head?_map, Option.map_map]
  rfl

theorem standing_append (first second : List StackEntry) :
    standing (first ++ second) = standing first ++ standing second := by
  simp [standing]

theorem standing_of_extras {above stack : List StackEntry}
    (extras : ∀ entry ∈ above, entry.isExtra = true) :
    standing (above ++ stack) = standing stack := by
  simp [standing, structural_of_extras extras]

theorem standing_cons {entry : StackEntry} (isStructural : entry.isExtra = false)
    (stack : List StackEntry) :
    standing (entry :: stack) = (entry.state, entry.subtree.skeleton) :: standing stack := by
  simp [standing, structural, isStructural]

theorem skeletons_entries (entries : List StackEntry) :
    Subtree.skeletons (entries.map StackEntry.subtree) = (standing entries).map Prod.snd := by
  simp [Subtree.skeletons_eq, standing, structural, List.filter_map, Function.comp_def,
    StackEntry.isExtra]

theorem standing_pushAll {next : StateId} {subtrees : List Subtree}
    (extras : ∀ subtree ∈ subtrees, subtree.isExtra = true) :
    standing (state.pushAll next subtrees).stack = standing state.stack := by
  obtain ⟨above, shape, same⟩ := state.stack_pushAll next subtrees
  rw [shape, standing_of_extras]
  intro entry member
  refine extras entry.subtree ?_
  rw [← List.mem_reverse, ← same]
  exact List.mem_map_of_mem member

theorem standing_shift (onlyExtras : token.OnlyExtras) (next : StateId) (symbol : SymbolId) :
    standing (state.shift next symbol token).stack =
      (next, .token symbol) :: standing state.stack := by
  have pushed : standing (state.pushExtras state.topState token).stack = standing state.stack :=
    standing_pushAll fun subtree member => by
      obtain ⟨leaf, listed, rfl⟩ := List.mem_map.mp member
      exact onlyExtras leaf listed
  rw [← pushed]
  exact standing_cons rfl _

/-- A reduction takes the trees of its production off the stack of the machine and puts them under
one node. -/
theorem standing_reduce (token : Lexeme) (represents : input.language.tables.Represents grammar)
    (sound : StackSound input.language grammar state.stack) {symbol : SymbolId} {id : ProductionId}
    (action : input.language.action (structuralTop state.stack) symbol = .reduce id)
    {production : ProductionInfo} (found : input.language.production? id = some production) :
    ∃ pushed under next, standing state.stack = pushed ++ under ∧
      (pushed.map Prod.snd).reverse.map SymbolTree.symbol = production.rhs ∧
      input.language.goto? (topOf under) production.lhs = some next ∧
      standing (state.reduce input id production token).stack =
        (next, .node production.lhs (pushed.map Prod.snd).reverse) :: under := by
  obtain ⟨info, trailing, taken, below, next, known, shape, taking, extras, popping, symbols,
    leads⟩ := reduction_spec represents sound action
  obtain rfl := Option.some.inj (known.symm.trans found)
  have belowTop : ({ state with stack := below } : ParseState).topState = structuralTop below :=
    (shape ▸ sound).suffix.onPath.top_eq
  have children : Subtree.skeletons (taken.reverse.map StackEntry.subtree) =
      ((standing taken).map Prod.snd).reverse := by
    rw [skeletons_entries]
    simp [standing, structural]
  refine ⟨standing taken, standing below, next, ?_, ?_, ?_, ?_⟩
  · rw [shape, List.append_assoc, standing_of_extras extras, standing_append]
  · rw [← children, ← symbols, Subtree.skeletons_eq, Subtree.structuralSymbols, List.map_map]
    exact List.map_congr_left fun subtree _ => subtree.symbol_skeleton
  · rwa [topOf_standing]
  · unfold ParseState.reduce
    simp only [taking, popping, belowTop, leads, Option.getD_some]
    rw [standing_pushAll fun subtree member => ?_, standing_cons rfl]
    · simp only [StackEntry.ofEntries, Subtree.skeleton, children]
    · obtain ⟨entry, listed, rfl⟩ := List.mem_map.mp member
      exact extras entry (List.mem_reverse.mp listed)

/-- Whatever word may follow the token at hand, the trees on the stack have been read before
it. -/
structure Follows (input : ParseInput) (state : ParseState) : Prop where
  known : ∀ token ∈ state.lookahead, token.symbol.isSome = true
  stands : ∀ rest, (∀ token ∈ state.lookahead, token.symbol = some (nextTerminal rest)) →
    input.language.tables.Stands (standing state.stack) rest
  parts : state.Holds Subtree.OnlyErrorsExtra

theorem follows_initial (input : ParseInput) : (initial input.text).Follows input :=
  ⟨nofun, fun _ _ => trivial, nofun⟩

theorem Follows.stands_current (follows : state.Follows input)
    (taken : state.current input = .ok (token, middle)) {rest : List SymbolId}
    (next : nextTerminal rest = state.symbolOf input token) :
    input.language.tables.Stands (standing middle.stack) rest := by
  rw [(current_ok taken).1]
  refine follows.stands rest fun other waits => ?_
  obtain rfl : other = token := by
    rw [current, Option.mem_def.mp waits] at taken
    exact (Prod.mk.inj (Except.ok.inj taken)).1
  obtain ⟨symbol, known⟩ := Option.isSome_iff_exists.mp (follows.known _ waits)
  rw [next, symbolOf, known]
  rfl

theorem Follows.step (follows : state.Follows input) (sound : state.Sound input.language grammar)
    (represents : input.language.tables.Represents grammar)
    (proceeds : state.Proceeds input after) : after.Follows input := by
  have everywhere : ∀ leaf, (Subtree.leaf leaf).Everywhere Subtree.OnlyErrorsExtra :=
    fun leaf => Subtree.everywhere_leaf nofun
  cases proceeds with
  | @shift token middle next taken action =>
      obtain ⟨onlyExtras, middleSound, stack⟩ := sound.current taken
      have named : ({ token with symbol := some (state.symbolOf input token) } :
        Lexeme).OnlyExtras := onlyExtras
      have frame : middle.SameBut (middle.shift next (state.symbolOf input token)
        { token with symbol := some (state.symbolOf input token) }) := sameBut_push_token ..
      have idle := frame.lookahead.trans (current_ok taken).2.1
      refine ⟨fun other waits => by simp [idle] at waits, fun rest _ => ?_, ?_⟩
      · rw [standing_shift named]
        refine (follows.stands_current taken rfl).shift ?_
        rwa [topOf_standing, ← middleSound.topState_eq, topState, stack]
      · exact (follows.parts.of_stack stack).push_token _ _ (fun leaf _ => (everywhere leaf).here)
          (everywhere _)
  | @reduce token middle id production taken action found =>
      obtain ⟨_, middleSound, stack⟩ := sound.current taken
      have top : middle.topState = state.topState := by simp only [topState, stack]
      rw [← top, middleSound.topState_eq] at action
      obtain ⟨pushed, under, target, split, symbols, leads, reduced⟩ := standing_reduce
        { token with symbol := some (state.symbolOf input token) } represents middleSound.stack
        action found
      refine ⟨fun other same => Option.some.inj same ▸ rfl, fun rest next => ?_, ?_⟩
      · have atHand : nextTerminal rest = state.symbolOf input token :=
          (Option.some.inj (next _ (Option.mem_some_self _))).symm
        have stands := follows.stands_current taken atHand
        rw [split] at stands
        rw [← topOf_standing, split, ← atHand] at action
        exact reduced ▸ stands.reduce action found symbols leads
      · obtain ⟨trailing, below, _, shape, _, _, reduced⟩ := reduce_eq input middle id production
          { token with symbol := some (state.symbolOf input token) }
        refine (Holds.reduce (follows.parts.of_stack stack) shape reduced ?_).of_stack rfl
        intro head children same extra
        obtain ⟨rfl, _⟩ := Subtree.node.inj same
        cases extra

theorem Reaches.follows (reaches : Reaches input state)
    (represents : input.language.tables.Represents grammar) (fresh : input.reuse = [])
    (clean : state.Clean) : state.Follows input := by
  induction reaches with
  | initial => exact follows_initial input
  | step reaches stepped ih =>
      obtain ⟨before, proceeds⟩ := clean.of_step fresh stepped
      exact (ih before).step (reaches.sound represents rfl fresh) represents proceeds

/-! ## The tree -/

theorem skeletons_unwrapped (entries : List StackEntry) :
    Subtree.skeletons (entries.flatMap fun entry =>
        if entry.isExtra then [entry.subtree] else entry.subtree.children) =
      (structural entries).flatMap fun entry => Subtree.skeletons entry.subtree.children := by
  induction entries with
  | nil => rfl
  | cons entry entries ih =>
      rw [List.flatMap_cons, Subtree.skeletons_append, ih]
      cases extra : entry.isExtra with
      | true =>
          have isExtra : entry.subtree.isExtra = true := extra
          simp [structural, extra, Subtree.skeletons, isExtra]
      | false => simp [structural, extra]

/-- The root of an accepted text without errors stands for the one tree on the stack. -/
theorem accept_spec (token : Lexeme) (represents : input.language.tables.Represents grammar)
    (sound : state.Sound input.language grammar) (onlyExtras : token.OnlyExtras)
    (action : input.language.action state.topState endSymbol = .accept) :
    ((state.accept input token).containsError = false →
      ∀ entry ∈ state.stack, entry.subtree.containsError = false) ∧
    ∃ final, standing state.stack = [(final, (state.accept input token).skeleton)] := by
  have nodes := fun entry (member : entry ∈ state.stack) =>
    sound.isNode_of_accept represents action member
  rw [sound.topState_eq] at action
  obtain ⟨entry, alone, _⟩ := acceptance_spec represents sound.stack action
  have found : state.stack.find? (fun entry => !entry.isExtra) = some entry := by
    rw [← List.head?_filter]
    exact congrArg List.head? alone
  have listed : entry ∈ structural state.stack := alone ▸ List.mem_cons_self
  obtain ⟨inside, isStructural⟩ := List.mem_filter.mp listed
  obtain ⟨head, children, shape⟩ := nodes entry inside (by simpa using isStructural)
  unfold ParseState.accept
  simp only [found]
  refine ⟨fun clean other member => ?_, entry.state, ?_⟩
  · simp only [Subtree.root, Subtree.containsError, Bool.or_eq_false_iff,
      Subtree.anyContainsError_iff] at clean
    have child : ∀ subtree ∈ (if other.isExtra then [other.subtree] else other.subtree.children),
        subtree.containsError = false := fun subtree below =>
      clean.2 subtree (List.mem_append_left _
        (List.mem_flatMap.mpr ⟨other, List.mem_reverse.mpr member, below⟩))
    cases extra : other.isExtra with
    | true => exact child _ (by simp [extra])
    | false =>
        have same : other ∈ structural state.stack := by simp [structural, member, extra]
        rw [alone, List.mem_singleton] at same
        subst same
        simp only [extra, Bool.false_eq_true, if_false] at child
        rw [shape] at child clean ⊢
        simp only [Subtree.containsError, Bool.or_eq_false_iff, Subtree.anyContainsError_iff]
        exact ⟨clean.1, child⟩
  · have reversed : structural state.stack.reverse = [entry] := by
      rw [structural, List.filter_reverse]
      exact congrArg List.reverse alone
    rw [standing, alone, List.map_singleton, Subtree.root, Subtree.skeleton,
      Subtree.skeletons_append, Subtree.skeletons_extras onlyExtras, skeletons_unwrapped, reversed,
      shape]
    simp [shape, Subtree.skeleton, Subtree.symbol, Subtree.children]

end ParseState

open ParseState in
/-- Where a parse without an old tree returns a tree without errors, the table has read it, unless
there is nothing in it. -/
theorem reads_of_no_error {grammar : FlatGrammar} {input : ParseInput}
    (represents : input.language.tables.Represents grammar)
    (knowsNoEnd : input.language.lexer.KnowsNoEnd) (fresh : input.reuse = []) {root : Subtree}
    {stats : ParseStats} (ran : runParse input = .ok (root, stats))
    (clean : root.containsError = false) :
    root.Everywhere Subtree.OnlyErrorsExtra ∧
      ((∃ final, input.language.tables.Reads 0 [root.skeleton] final []) ∨
        root.skeleton = .node input.language.startSymbol []) := by
  obtain ⟨last, reaches, stepped⟩ := exists_last_of_runParse ran
  have sound := reaches.sound represents rfl fresh
  obtain ⟨token, middle, taken, ended⟩ := done_cases stepped
  obtain ⟨onlyExtras, middleSound, stack⟩ := sound.current taken
  have leaves : ∀ leaf ∈ token.extras, Subtree.OnlyErrorsExtra (.leaf leaf) := fun _ _ => nofun
  rcases ended with ⟨action, rfl⟩ | ⟨_, _, _, rfl⟩
  case inl =>
      have atEnd := represents.eq_end_of_accept action
      rw [atEnd] at action clean ⊢
      have top : middle.topState = last.topState := by simp only [topState, stack]
      rw [← top] at action
      obtain ⟨kept, final, standing⟩ := accept_spec { token with symbol := some endSymbol }
        represents middleSound onlyExtras action
      obtain ⟨log, faithful⟩ := reaches.faithful represents knowsNoEnd fresh
      have held := (faithful.current knowsNoEnd taken).atHand
      have lastClean : last.Clean := by
        refine ⟨stack ▸ kept clean, fun other waits => ?_⟩
        obtain rfl : other = token := by
          rw [current, Option.mem_def.mp waits] at taken
          exact (Prod.mk.inj (Except.ok.inj taken)).1
        exact held.real ((held.symbol _ rfl).mp atEnd)
      have follows := reaches.follows represents fresh lastClean
      have stands : input.language.tables.Stands (ParseState.standing middle.stack) [] :=
        follows.stands_current taken atEnd.symm
      rw [standing] at stands
      exact ⟨(follows.parts.of_stack stack).accept Subtree.lenient_onlyErrorsExtra leaves,
        .inl ⟨final, stands.1⟩⟩
  case inr =>
      have empty : middle.stack = [] := by
        by_contra filled
        exact absurd clean (by simp [containsError_wrapAll filled])
      have parts : middle.Holds Subtree.OnlyErrorsExtra := by simp [Holds, empty]
      refine ⟨parts.wrapAll Subtree.lenient_onlyErrorsExtra leaves, .inr ?_⟩
      have wrapped : ∀ token : Lexeme, middle.wrapAll input token =
          .root input.language.startSymbol none (token.extras.map .leaf) :=
        fun token => by simp [wrapAll, empty]
      rw [wrapped, Subtree.root, Subtree.skeleton, Subtree.skeletons_extras onlyExtras]

end Lalr
