import Lalr.Parser.Run
import Lalr.Proofs.Automaton.Table

set_option autoImplicit false

/-!
The stack of a parse. The entries that are no extras form a path of the automaton, extras
keep the state below them, and every node was built from the symbols of its production.
-/

namespace Lalr

/-! ## Trees -/

namespace Subtree

/-- The symbols of those of several subtrees that are no extras. -/
def structuralSymbols (subtrees : List Subtree) : List SymbolId :=
  (subtrees.filter fun subtree => !subtree.isExtra).map symbol

/-- Whether a production has a left-hand side, and as right-hand side the symbols of some
children, extras left out. -/
def Matches (language : Language) (id : ProductionId) (symbol : SymbolId)
    (children : List Subtree) : Prop :=
  ∃ production, language.production? id = some production ∧ production.lhs = symbol ∧
    structuralSymbols children = production.rhs

mutual

/-- Every node that carries a production has the children the production names. -/
def FollowsProductions (language : Language) : Subtree → Prop
  | .leaf _ => True
  | .node head children =>
      (∀ id, head.production = some id → Matches language id head.symbol children) ∧
        AllFollowProductions language children

/-- Every node in several subtrees that carries a production has the children it names. -/
def AllFollowProductions (language : Language) : List Subtree → Prop
  | [] => True
  | child :: children =>
      child.FollowsProductions language ∧ AllFollowProductions language children

end

mutual

/-- A tree of terminals and productions once the extras in it are left out. -/
def IsDerivation (language : Language) : Subtree → Prop
  | .leaf token => language.tables.isTerminal token.symbol = true
  | .node head children =>
      (∃ id, head.production = some id ∧ Matches language id head.symbol children) ∧
        AllDerivations language children

/-- Several subtrees that are extras or trees of terminals and productions. -/
def AllDerivations (language : Language) : List Subtree → Prop
  | [] => True
  | child :: children =>
      (child.isExtra = true ∨ child.IsDerivation language) ∧ AllDerivations language children

end

theorem allFollowProductions_iff {language : Language} {subtrees : List Subtree} :
    AllFollowProductions language subtrees ↔
      ∀ subtree ∈ subtrees, subtree.FollowsProductions language := by
  induction subtrees with
  | nil => simp [AllFollowProductions]
  | cons subtree subtrees hypothesis => simp [AllFollowProductions, hypothesis]

theorem allDerivations_iff {language : Language} {subtrees : List Subtree} :
    AllDerivations language subtrees ↔
      ∀ subtree ∈ subtrees, subtree.isExtra = true ∨ subtree.IsDerivation language := by
  induction subtrees with
  | nil => simp [AllDerivations]
  | cons subtree subtrees hypothesis => simp [AllDerivations, hypothesis]

theorem followsProductions_leaf {language : Language} (leaf : Leaf) :
    (Subtree.leaf leaf).FollowsProductions language := by
  simp [FollowsProductions]

theorem followsProductions_ofError {language : Language} {children : List Subtree}
    (follow : ∀ child ∈ children, child.FollowsProductions language) :
    (ofError children).FollowsProductions language := by
  simp only [ofError, FollowsProductions]
  exact ⟨nofun, allFollowProductions_iff.mpr follow⟩

@[simp] theorem isExtra_ofError (children : List Subtree) : (ofError children).isExtra = true :=
  rfl

@[simp] theorem structuralSymbols_append (first second : List Subtree) :
    structuralSymbols (first ++ second) = structuralSymbols first ++ structuralSymbols second := by
  simp [structuralSymbols]

theorem structuralSymbols_eq_nil (subtrees : List Subtree)
    (extras : ∀ subtree ∈ subtrees, subtree.isExtra = true) : structuralSymbols subtrees = [] := by
  simpa [structuralSymbols] using extras

/-- Extras around the children of a node change nothing for its production. -/
theorem Matches.of_extras {language : Language} {id : ProductionId} {symbol : SymbolId}
    {before children after : List Subtree} (matched : Matches language id symbol children)
    (extras : ∀ child ∈ before ++ after, child.isExtra = true) :
    Matches language id symbol (before ++ children ++ after) := by
  obtain ⟨production, found, lhs, rhs⟩ := matched
  refine ⟨production, found, lhs, ?_⟩
  have front := structuralSymbols_eq_nil before fun child member =>
    extras child (List.mem_append_left _ member)
  have back := structuralSymbols_eq_nil after fun child member =>
    extras child (List.mem_append_right _ member)
  simp [front, back, rhs]

theorem followsProductions_root_of_extras {language : Language} {head : NodeHead}
    {before children after : List Subtree}
    (follows : (Subtree.node head children).FollowsProductions language)
    (around : ∀ child ∈ before ++ after,
      child.isExtra = true ∧ child.FollowsProductions language) :
    (root head.symbol head.production (before ++ children ++ after)).FollowsProductions
      language := by
  simp only [root, FollowsProductions, allFollowProductions_iff] at follows ⊢
  refine ⟨fun id built => (follows.1 id built).of_extras fun child member =>
    (around child member).1, ?_⟩
  intro child member
  simp only [List.mem_append] at member around
  rcases member with (front | own) | back
  · exact (around child (.inl front)).2
  · exact follows.2 child own
  · exact (around child (.inr back)).2

theorem isDerivation_root_of_extras {language : Language} {head : NodeHead}
    {before children after : List Subtree}
    (derivation : (Subtree.node head children).IsDerivation language)
    (extras : ∀ child ∈ before ++ after, child.isExtra = true) :
    (root head.symbol head.production (before ++ children ++ after)).IsDerivation language := by
  simp only [root, IsDerivation, allDerivations_iff] at derivation ⊢
  obtain ⟨⟨id, built, matched⟩, derivations⟩ := derivation
  refine ⟨⟨id, built, matched.of_extras extras⟩, ?_⟩
  intro child member
  simp only [List.mem_append] at member extras
  rcases member with (front | own) | back
  · exact .inl (extras child (.inl front))
  · exact derivations child own
  · exact .inl (extras child (.inr back))

end Subtree

/-! ## Cutting the stack -/

/-- Extras are taken off the top until an entry that is no extra. -/
theorem takeTrailing_spec (trailing stack : List StackEntry) :
    ∃ taken rest, stack = taken ++ rest ∧
      takeTrailing trailing stack = (taken.reverse ++ trailing, rest) ∧
      ∀ entry ∈ taken, entry.isExtra = true := by
  induction stack generalizing trailing with
  | nil => exact ⟨[], [], rfl, rfl, by simp⟩
  | cons entry stack hypothesis =>
      cases extra : entry.isExtra with
      | false => exact ⟨[], entry :: stack, rfl, by simp [takeTrailing, extra], by simp⟩
      | true =>
          obtain ⟨taken, rest, rfl, result, extras⟩ := hypothesis (entry :: trailing)
          refine ⟨entry :: taken, rest, rfl, ?_, ?_⟩
          · simp [takeTrailing, extra, result]
          · intro other member
            rcases List.mem_cons.mp member with rfl | later
            · exact extra
            · exact extras other later

/-- The entries that are no extras. -/
def structural (stack : List StackEntry) : List StackEntry :=
  stack.filter fun entry => !entry.isExtra

@[simp] theorem structural_append (first second : List StackEntry) :
    structural (first ++ second) = structural first ++ structural second := by
  simp [structural]

/-- A cut takes as many entries that are no extras as were asked for, if there are enough. -/
theorem popStructural_spec (removed : List StackEntry) (count : Nat) (stack : List StackEntry) :
    ∃ taken rest, stack = taken ++ rest ∧
      ParseState.popStructural removed count stack = (taken.reverse ++ removed, rest) ∧
      (count ≤ (structural stack).length → (structural taken).length = count) := by
  induction stack generalizing removed count with
  | nil =>
      refine ⟨[], [], rfl, ?_, ?_⟩
      · cases count <;> rfl
      · intro enough
        exact (Nat.le_zero.mp enough).symm
  | cons entry stack hypothesis =>
      cases count with
      | zero => exact ⟨[], entry :: stack, rfl, rfl, fun _ => rfl⟩
      | succ count =>
          cases extra : entry.isExtra with
          | true =>
              obtain ⟨taken, rest, rfl, result, counted⟩ :=
                hypothesis (entry :: removed) (count + 1)
              refine ⟨entry :: taken, rest, rfl, ?_, ?_⟩
              · simp [ParseState.popStructural, extra, result]
              · simpa [structural, extra] using counted
          | false =>
              obtain ⟨taken, rest, rfl, result, counted⟩ := hypothesis (entry :: removed) count
              refine ⟨entry :: taken, rest, rfl, ?_, ?_⟩
              · simp [ParseState.popStructural, extra, result]
              · simpa [structural, extra] using counted

/-- Some entry is taken off the stack, and no more than there are. -/
theorem ParseState.popDepth?_bounds {input : ParseInput} {state : ParseState} {token : Lexeme}
    {depth : Nat} (found : state.popDepth? input token = some depth) :
    0 < depth ∧ depth ≤ (structural state.stack).length := by
  have listed := List.mem_of_find?_eq_some found
  obtain ⟨place, inside, rfl⟩ := List.getElem_of_mem listed
  have bound : (List.range state.structuralStates.length).length =
      (structural state.stack).length + 1 := by
    simp [ParseState.structuralStates, structural]
  simp only [List.getElem_drop, List.getElem_range]
  rw [List.length_drop, bound] at inside
  omega

/-- What a reduction says of the node it makes of some entries above a state. -/
def ParseState.reducedHead (under : ParseState) (id : ProductionId) (production : ProductionInfo)
    (token : Lexeme) (children : List StackEntry) : NodeHead :=
  let start := (children.head?.map StackEntry.start).getD under.stackEnd
  let finish := start + StackEntry.totalLength children
  let dependencyEnd := children.foldl
    (fun last entry => max last (entry.finish + entry.subtree.lookaheadBytes)) token.examinedEnd
  { symbol := production.lhs
    production := some id
    state := under.topState
    lookahead := some
      { raw := token.raw
        symbol := token.symbol.getD token.raw
        mode := token.mode
        reusable := token.isOrdinary && token.start == finish }
    lookaheadBytes := dependencyEnd - finish
    extra := false }

/-- A reduction puts a node in place of the entries it takes, below the extras on top. -/
theorem ParseState.reduce_eq (input : ParseInput) (state : ParseState) (id : ProductionId)
    (production : ProductionInfo) (token : Lexeme) :
    ∃ trailing taken below,
      let under := { state with stack := below }
      let start := (taken.reverse.head?.map StackEntry.start).getD under.stackEnd
      let next := (input.language.goto? under.topState production.lhs).getD under.topState
      state.stack = trailing ++ (taken ++ below) ∧ (∀ entry ∈ trailing, entry.isExtra = true) ∧
      ParseState.popStructural [] production.rhs.length (taken ++ below) =
        (taken.reverse, below) ∧
      state.reduce input id production token =
        { under with
          stack := .ofEntries next (under.reducedHead id production token taken.reverse)
            taken.reverse start :: below }.pushAll next
              (trailing.reverse.map StackEntry.subtree) := by
  obtain ⟨trailing, rest, shape, taking, extras⟩ := takeTrailing_spec [] state.stack
  obtain ⟨taken, below, rfl, popping, _⟩ := popStructural_spec [] production.rhs.length rest
  rw [List.append_nil] at taking popping
  refine ⟨trailing, taken, below, shape, extras, popping, ?_⟩
  unfold ParseState.reduce
  simp only [taking, popping]
  rfl

/-- A reduction adds nothing to what its children and the token behind them depend on. -/
theorem ParseState.reduce_spec (input : ParseInput) (state : ParseState) (id : ProductionId)
    (production : ProductionInfo) (token : Lexeme) :
    ∃ trailing taken below next head,
      let under := { state with stack := below }
      let start := (taken.reverse.head?.map StackEntry.start).getD under.stackEnd
      state.stack = trailing ++ (taken ++ below) ∧
      state.reduce input id production token =
        { under with stack := .ofEntries next head taken.reverse start :: below }.pushAll next
          (trailing.reverse.map StackEntry.subtree) ∧
      head.extra = false ∧
      head.lookaheadBytes = taken.reverse.foldl (fun last entry =>
        max last (entry.finish + entry.subtree.lookaheadBytes)) token.examinedEnd -
          (start + StackEntry.totalLength taken.reverse) := by
  obtain ⟨trailing, taken, below, shape, _, _, reduced⟩ := reduce_eq input state id production token
  exact ⟨trailing, taken, below, _, _, shape, reduced, rfl, rfl⟩

/-! ## The invariant -/

/-- The symbols of the entries that are no extras with their states, the top first. -/
def structuralPath (stack : List StackEntry) : List (Nat × Nat) :=
  (structural stack).map fun entry => (entry.subtree.symbol.toNat, entry.state.toNat)

/-- The state of the nearest entry that is no extra, or else the first state. -/
def structuralTop (stack : List StackEntry) : StateId :=
  ((structural stack).head?.map StackEntry.state).getD 0

/-- The entries that are no extras form a path of the automaton, and extras keep the state
below them. -/
structure OnPath (automaton : Automaton) (stack : List StackEntry) : Prop where
  path : automaton.Path (structuralPath stack)
  extras : ∀ above entry below, stack = above ++ entry :: below → entry.isExtra = true →
    entry.state = structuralTop below

@[simp] theorem structuralPath_append (first second : List StackEntry) :
    structuralPath (first ++ second) = structuralPath first ++ structuralPath second := by
  simp [structuralPath]

theorem pathEnd_structuralPath (stack : List StackEntry) :
    Automaton.pathEnd (structuralPath stack) = (structuralTop stack).toNat := by
  simp only [Automaton.pathEnd, structuralPath, structuralTop, List.head?_map, Option.map_map]
  cases (structural stack).head? <;> rfl

theorem structural_of_extras {entries : List StackEntry}
    (extras : ∀ entry ∈ entries, entry.isExtra = true) : structural entries = [] := by
  simpa [structural] using extras

namespace OnPath

variable {automaton : Automaton} {stack : List StackEntry}

theorem nil : OnPath automaton [] :=
  ⟨.start, fun above entry below shape => by simp at shape⟩

theorem tail {entry : StackEntry} (onPath : OnPath automaton (entry :: stack)) :
    OnPath automaton stack := by
  refine ⟨?_, fun above other below shape => ?_⟩
  · have path := onPath.path
    rw [← List.singleton_append, structuralPath_append] at path
    have dropped := path.drop (structuralPath [entry]).length
    rwa [List.drop_left] at dropped
  · exact onPath.extras (entry :: above) other below (congrArg (entry :: ·) shape)

theorem suffix {above : List StackEntry} (onPath : OnPath automaton (above ++ stack)) :
    OnPath automaton stack := by
  induction above with
  | nil => exact onPath
  | cons entry above hypothesis => exact hypothesis onPath.tail

/-- The state on top is that of the nearest entry that is no extra. -/
theorem top_eq (onPath : OnPath automaton stack) :
    (stack.head?.map StackEntry.state).getD 0 = structuralTop stack := by
  cases stack with
  | nil => rfl
  | cons entry stack =>
      cases extra : entry.isExtra with
      | true => simpa [structuralTop, structural, extra] using onPath.extras [] entry stack rfl extra
      | false => simp [structuralTop, structural, extra]

theorem cons_extra {entry : StackEntry} (onPath : OnPath automaton stack)
    (extra : entry.isExtra = true) (same : entry.state = structuralTop stack) :
    OnPath automaton (entry :: stack) := by
  refine ⟨?_, fun above other below shape isExtra => ?_⟩
  · simpa [structuralPath, structural, extra] using onPath.path
  · cases above with
    | nil =>
        obtain ⟨rfl, rfl⟩ := List.cons.inj shape
        exact same
    | cons first above => exact onPath.extras above other below (List.cons.inj shape).2 isExtra

theorem cons_structural {entry : StackEntry} (onPath : OnPath automaton stack)
    (isStructural : entry.isExtra = false)
    (edge : automaton.Edge (structuralTop stack).toNat entry.subtree.symbol.toNat
      entry.state.toNat) : OnPath automaton (entry :: stack) := by
  refine ⟨?_, fun above other below shape isExtra => ?_⟩
  · rw [← pathEnd_structuralPath] at edge
    simpa [structuralPath, structural, isStructural] using onPath.path.step edge
  · cases above with
    | nil =>
        obtain ⟨rfl, rfl⟩ := List.cons.inj shape
        exact absurd isExtra (by simp [isStructural])
    | cons first above => exact onPath.extras above other below (List.cons.inj shape).2 isExtra

end OnPath

/-- What holds of the stack throughout a parse. -/
structure StackSound (language : Language) (grammar : FlatGrammar) (stack : List StackEntry) :
    Prop where
  onPath : OnPath grammar.automaton stack
  derivations : ∀ entry ∈ stack, entry.isExtra = false → entry.subtree.IsDerivation language
  follow : ∀ entry ∈ stack, entry.subtree.FollowsProductions language

namespace StackSound

variable {language : Language} {grammar : FlatGrammar} {stack : List StackEntry}

theorem nil : StackSound language grammar [] :=
  ⟨.nil, by simp, by simp⟩

theorem suffix {above : List StackEntry} (sound : StackSound language grammar (above ++ stack)) :
    StackSound language grammar stack where
  onPath := sound.onPath.suffix
  derivations entry member := sound.derivations entry (List.mem_append_right _ member)
  follow entry member := sound.follow entry (List.mem_append_right _ member)

theorem cons_extra {entry : StackEntry} (sound : StackSound language grammar stack)
    (extra : entry.isExtra = true) (same : entry.state = structuralTop stack)
    (follows : entry.subtree.FollowsProductions language) :
    StackSound language grammar (entry :: stack) where
  onPath := sound.onPath.cons_extra extra same
  derivations other member isStructural := by
    rcases List.mem_cons.mp member with rfl | later
    · exact absurd extra (by simp [isStructural])
    · exact sound.derivations other later isStructural
  follow other member := by
    rcases List.mem_cons.mp member with rfl | later
    · exact follows
    · exact sound.follow other later

theorem cons_structural {entry : StackEntry} (sound : StackSound language grammar stack)
    (isStructural : entry.isExtra = false)
    (edge : grammar.automaton.Edge (structuralTop stack).toNat entry.subtree.symbol.toNat
      entry.state.toNat)
    (derivation : entry.subtree.IsDerivation language)
    (follows : entry.subtree.FollowsProductions language) :
    StackSound language grammar (entry :: stack) where
  onPath := sound.onPath.cons_structural isStructural edge
  derivations other member _ := by
    rcases List.mem_cons.mp member with rfl | later
    · exact derivation
    · exact sound.derivations other later (by assumption)
  follow other member := by
    rcases List.mem_cons.mp member with rfl | later
    · exact follows
    · exact sound.follow other later

end StackSound

/-! ## Reductions -/

theorem structuralSymbols_entries (entries : List StackEntry) :
    Subtree.structuralSymbols (entries.map StackEntry.subtree) =
      (structural entries).map fun entry => entry.subtree.symbol := by
  simp [Subtree.structuralSymbols, structural, List.filter_map, Function.comp_def,
    StackEntry.isExtra]

/-- Words with equal numbers are equal. -/
theorem eq_of_map_toNat {first second : List SymbolId}
    (same : first.map UInt16.toNat = second.map UInt16.toNat) : first = second :=
  List.map_injective_iff.mpr (fun _ _ => UInt16.toNat_inj.mp) same

/-- What a complete production finds on the stack: extras on top, then as many other entries
as it has symbols, with just these symbols, and a state below that leads on. -/
theorem reduction_spec {language : Language} {grammar : FlatGrammar}
    (represents : language.tables.Represents grammar) {stack : List StackEntry}
    (sound : StackSound language grammar stack) {symbol : SymbolId} {id : ProductionId}
    (action : language.action (structuralTop stack) symbol = .reduce id) :
    ∃ production trailing taken below next, language.production? id = some production ∧
      stack = trailing ++ taken ++ below ∧
      takeTrailing [] stack = (trailing.reverse, taken ++ below) ∧
      (∀ entry ∈ trailing, entry.isExtra = true) ∧
      ParseState.popStructural [] production.rhs.length (taken ++ below) =
        (taken.reverse, below) ∧
      Subtree.structuralSymbols (taken.reverse.map StackEntry.subtree) = production.rhs ∧
      language.goto? (structuralTop below) production.lhs = some next := by
  obtain ⟨production, found, has⟩ := represents.hasItem_of_reduce action
  obtain ⟨info, stored, lhs, rhs⟩ := represents.exists_production found
  have lengths : info.rhs.length = production.steps.length := by
    simpa [Production.rhs] using congrArg List.length rhs
  rw [← pathEnd_structuralPath] at has
  obtain ⟨enough, symbols, target, edge⟩ :=
    FlatGrammar.path_of_complete represents.numbered sound.onPath.path found has
  obtain ⟨trailing, rest, shape, taking, extras⟩ := takeTrailing_spec [] stack
  obtain ⟨taken, below, rfl, popping, counted⟩ :=
    popStructural_spec [] info.rhs.length rest
  have path : structuralPath stack = structuralPath taken ++ structuralPath below := by
    rw [shape, structuralPath_append, structuralPath_append]
    simp [structuralPath, structural_of_extras extras]
  have whole : (structuralPath taken).length = production.steps.length := by
    rw [structuralPath, List.length_map, ← lengths]
    refine counted ?_
    have length : (structural (taken ++ below)).length = (structuralPath stack).length := by
      rw [path]
      simp [structuralPath]
    omega
  rw [path, ← whole, List.take_left] at symbols
  rw [path, ← whole, List.drop_left, pathEnd_structuralPath] at edge
  have range := represents.numbered.lhs_range production (Array.mem_of_getElem? found)
  refine ⟨info, trailing, taken, below, target.toUInt32, stored, ?_, ?_, extras, ?_, ?_, ?_⟩
  · rw [shape, List.append_assoc]
  · simpa using taking
  · simpa using popping
  · refine eq_of_map_toNat ?_
    rw [rhs, ← symbols, structuralSymbols_entries]
    simp [structuralPath, structural, Function.comp_def]
  · refine represents.goto?_eq_some_iff.mpr ⟨?_, ?_⟩
    · simp only [FlatGrammar.isTerminal, lhs, decide_eq_false_iff_not]
      omega
    · rwa [lhs, represents.target_toNat edge]

/-- An accepted text has left nothing but the start symbol and extras. -/
theorem acceptance_spec {language : Language} {grammar : FlatGrammar}
    (represents : language.tables.Represents grammar) {stack : List StackEntry}
    (sound : StackSound language grammar stack) {symbol : SymbolId}
    (action : language.action (structuralTop stack) symbol = .accept) :
    ∃ entry, structural stack = [entry] ∧ entry.subtree.symbol.toNat = grammar.start := by
  have has := (represents.hasLookahead_of_accept action).hasItem
  rw [← pathEnd_structuralPath] at has
  obtain ⟨target, single⟩ :=
    FlatGrammar.path_of_accept represents.numbered sound.onPath.path has
  obtain ⟨entry, alone, same⟩ := List.map_eq_singleton_iff.mp single
  exact ⟨entry, alone, (Prod.mk.inj same).1⟩

end Lalr
