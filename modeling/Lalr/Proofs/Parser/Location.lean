import Lalr.Proofs.Parser.Parts
import Lalr.Proofs.Parser.Placement
import Lalr.Proofs.Tree.Bare

set_option autoImplicit false

/-!
What holds of the subtrees that may be taken over, at the places where they stand. A parse moves
no subtree, so a property of such subtrees and their places only has to be checked of the nodes
that reductions make.
-/

namespace Lalr

namespace Subtree

section
variable (known : Nat → Subtree → Prop)

mutual

/-- A property holds of every reusable part of a subtree that starts at byte `place`. -/
def Located (place : Nat) : Subtree → Prop
  | .leaf _ => True
  | .node head children =>
      ((Subtree.node head children).isReusable = true → known place (.node head children)) ∧
        LocatedAll place children

/-- A property holds of every reusable part of several subtrees in a row. -/
def LocatedAll (place : Nat) : List Subtree → Prop
  | [] => True
  | child :: children => Located place child ∧ LocatedAll (place + child.length) children

end

end

variable {known : Nat → Subtree → Prop} {place : Nat}

theorem locatedAll_append {first second : List Subtree} :
    LocatedAll known place (first ++ second) ↔
      LocatedAll known place first ∧ LocatedAll known (place + lengths first) second := by
  induction first generalizing place with
  | nil => simp [LocatedAll, lengths]
  | cons child first ih => simp [LocatedAll, ih, lengths, and_assoc, Nat.add_assoc]

theorem locatedAll_of_leaves {subtrees : List Subtree}
    (leaves : ∀ subtree ∈ subtrees, ∃ leaf, subtree = .leaf leaf) :
    LocatedAll known place subtrees := by
  induction subtrees generalizing place with
  | nil => trivial
  | cons subtree subtrees ih =>
      obtain ⟨leaf, rfl⟩ := leaves subtree List.mem_cons_self
      exact ⟨trivial, ih fun other member => leaves other (List.mem_cons_of_mem _ member)⟩

theorem locatedAll_map_leaf (leaves : List Leaf) :
    LocatedAll known place (leaves.map Subtree.leaf) :=
  locatedAll_of_leaves fun _ member =>
    have ⟨token, _, same⟩ := List.mem_map.mp member
    ⟨token, same.symm⟩

/-- Nodes that recovery makes and roots are never taken over themselves. -/
theorem located_of_idle {head : NodeHead} {children : List Subtree}
    (idle : head.production = none ∨ head.lookahead = none)
    (all : LocatedAll known place children) : Located known place (.node head children) := by
  refine ⟨fun reusable => ?_, all⟩
  rcases idle with none_ | none_ <;> simp [isReusable, isReusableWith, none_] at reusable

theorem Located.here {subtree : Subtree} (located : Located known place subtree)
    (reusable : subtree.isReusable = true) : known place subtree := by
  cases subtree with
  | leaf token => cases reusable
  | node head children => exact located.1 reusable

theorem Located.children {subtree : Subtree} (located : Located known place subtree) :
    LocatedAll known place subtree.children := by
  cases subtree with
  | leaf token => trivial
  | node head children => exact located.2

theorem Located.part {part whole : Subtree} {offset : Nat} (lies : part.LiesAt offset whole)
    (located : Located known place whole) : Located known (place + offset) part := by
  induction lies generalizing place with
  | whole => exact located
  | inside _ ih =>
      have child := (locatedAll_append.mp located.2).2.1
      rw [← Nat.add_assoc]
      exact ih child

mutual

/-- A property of all reusable parts at their places is found by looking at the parts. -/
theorem located_of_forall {place : Nat} (subtree : Subtree)
    (all : ∀ part offset, part.LiesAt offset subtree → part.isReusable = true →
      known (place + offset) part) : Located known place subtree := by
  cases subtree with
  | leaf token => trivial
  | node head children =>
      refine ⟨all _ 0 .whole, locatedAll_of_forall children ?_⟩
      rintro before child behind rfl part offset lies
      rw [Nat.add_assoc]
      exact all part _ (.inside lies)

theorem locatedAll_of_forall {place : Nat} (children : List Subtree)
    (all : ∀ before child behind, children = before ++ child :: behind → ∀ part offset,
      part.LiesAt offset child → part.isReusable = true →
        known (place + lengths before + offset) part) : LocatedAll known place children := by
  cases children with
  | nil => trivial
  | cons child children =>
      refine ⟨located_of_forall child (all [] child children rfl), locatedAll_of_forall children ?_⟩
      rintro before other behind rfl part offset lies
      have inside := all (child :: before) other behind rfl part offset lies
      rwa [lengths, ← Nat.add_assoc] at inside

end

mutual

theorem located_bare (blind : ∀ place subtree, known place subtree.bare ↔ known place subtree)
    {place : Nat} (subtree : Subtree) :
    Located known place subtree.bare ↔ Located known place subtree := by
  cases subtree with
  | leaf token => rfl
  | node head children =>
      have own := blind place (.node head children)
      have same := isReusable_bare (.node head children)
      rw [bare] at own same
      simp only [bare, Located, locatedAll_bares blind children, own, same]

theorem locatedAll_bares
    (blind : ∀ place subtree, known place subtree.bare ↔ known place subtree)
    {place : Nat} (children : List Subtree) :
    LocatedAll known place (bares children) ↔ LocatedAll known place children := by
  cases children with
  | nil => rfl
  | cons child children =>
      simp only [bares, LocatedAll, located_bare blind child, locatedAll_bares blind children,
        length_bare]

end

end Subtree

namespace ParseState

open Subtree

variable {known : Nat → Subtree → Prop} {input : ParseInput} {state : ParseState} {token : Lexeme}

/-- The subtrees on the stack in the order of the text. -/
def forest (state : ParseState) : List Subtree :=
  state.stack.reverse.map StackEntry.subtree

@[simp] theorem forest_push (next : StateId) (subtree : Subtree) :
    (state.push next subtree).forest = state.forest ++ [subtree] := by
  simp [forest, push, StackEntry.ofSubtree]

@[simp] theorem forest_pushAll (next : StateId) (subtrees : List Subtree) :
    (state.pushAll next subtrees).forest = state.forest ++ subtrees := by
  induction subtrees generalizing state with
  | nil => rw [List.append_nil]; rfl
  | cons subtree subtrees ih =>
      exact ih.trans (by rw [forest_push, List.append_assoc]; rfl)

@[simp] theorem forest_pushExtras (next : StateId) (token : Lexeme) :
    (state.pushExtras next token).forest = state.forest ++ token.extras.map .leaf :=
  forest_pushAll ..

theorem lengths_forest (state : ParseState) :
    lengths state.forest = StackEntry.totalLength state.stack := by
  rw [forest, ← StackEntry.totalLength_eq, StackEntry.totalLength_reverse]

/-- A property holds of every reusable part of the subtrees on the stack. -/
def Locates (known : Nat → Subtree → Prop) (state : ParseState) : Prop :=
  LocatedAll known 0 state.forest

namespace Locates

theorem of_stack {after : ParseState} (locates : state.Locates known)
    (stack : after.stack = state.stack) : after.Locates known := by
  unfold Locates forest
  rwa [stack]

theorem push (locates : state.Locates known) (next : StateId) {subtree : Subtree}
    (located : Located known (StackEntry.totalLength state.stack) subtree) :
    (state.push next subtree).Locates known := by
  rw [Locates, forest_push, locatedAll_append, Nat.zero_add, lengths_forest]
  exact ⟨locates, located, trivial⟩

theorem pushExtras (locates : state.Locates known) (next : StateId) (token : Lexeme) :
    (state.pushExtras next token).Locates known := by
  rw [Locates, forest_pushExtras, locatedAll_append]
  exact ⟨locates, locatedAll_map_leaf _⟩

/-- A reduction keeps a property of reusable parts if the node it makes has it. -/
theorem reduce (locates : state.Locates known) {id : ProductionId} {production : ProductionInfo}
    {trailing taken below : List StackEntry} {next : StateId} {head : NodeHead} {start : Nat}
    (shape : state.stack = trailing ++ (taken ++ below))
    (reduced : state.reduce input id production token =
      { state with stack := .ofEntries next head taken.reverse start :: below }.pushAll next
        (trailing.reverse.map StackEntry.subtree))
    (made : (Subtree.node head (taken.reverse.map StackEntry.subtree)).isReusable = true →
      known (StackEntry.totalLength below)
        (.node head (taken.reverse.map StackEntry.subtree))) :
    (state.reduce input id production token).Locates known := by
  have all : LocatedAll known 0 (below.reverse.map StackEntry.subtree ++
      (taken.reverse.map StackEntry.subtree ++ trailing.reverse.map StackEntry.subtree)) := by
    have whole : state.forest = below.reverse.map StackEntry.subtree ++
        (taken.reverse.map StackEntry.subtree ++ trailing.reverse.map StackEntry.subtree) := by
      simp [forest, shape]
    exact whole ▸ locates
  have start_eq : lengths (below.reverse.map StackEntry.subtree) =
      StackEntry.totalLength below := by
    rw [← StackEntry.totalLength_eq, StackEntry.totalLength_reverse]
  rw [locatedAll_append, locatedAll_append, Nat.zero_add, start_eq] at all
  obtain ⟨front, inner, behind⟩ := all
  have forest_eq : (state.reduce input id production token).forest =
      below.reverse.map StackEntry.subtree ++
        (Subtree.node head (taken.reverse.map StackEntry.subtree) ::
          trailing.reverse.map StackEntry.subtree) := by
    rw [reduced, forest_pushAll]
    simp [forest, StackEntry.ofEntries]
  rw [Locates, forest_eq, locatedAll_append, Nat.zero_add, start_eq]
  exact ⟨front, ⟨made, inner⟩, behind⟩

theorem popEntries (locates : state.Locates known) :
    (state.popEntries input token).2.Locates known := by
  unfold ParseState.popEntries
  split
  case h_1 => exact locates
  case h_2 depth _ =>
      obtain ⟨taken, below, shape, popping, _⟩ := popStructural_spec [] depth state.stack
      rw [List.append_nil] at popping
      simp only [popping]
      have whole : state.forest =
          below.reverse.map StackEntry.subtree ++ taken.reverse.map StackEntry.subtree := by
        simp [forest, shape]
      rw [Locates, whole, locatedAll_append, Nat.zero_add] at locates
      have under : ({ state with stack := below } : ParseState).Locates known := locates.1
      have start_eq : lengths (below.reverse.map StackEntry.subtree) =
          StackEntry.totalLength below := by
        rw [← StackEntry.totalLength_eq, StackEntry.totalLength_reverse]
      refine (under.push _ (located_of_idle (.inl rfl) ?_)).of_stack rfl
      rw [← start_eq]
      exact locates.2

/-- An effect keeps a property of reusable parts if the reduction, if it is one, does. -/
theorem effect {top : StateId} {symbol : SymbolId} {after : ParseState}
    (locates : state.Locates known)
    (reduces : ∀ id production, input.language.action top symbol = .reduce id →
      input.language.production? id = some production →
      (state.reduce input id production token).Locates known)
    (effect : Effect input state top symbol token (.next after)) : after.Locates known := by
  cases effect with
  | shift => exact (locates.pushExtras _ _).push _ trivial
  | reduce action found => exact (reduces _ _ action found).of_stack rfl
  | insert => exact locates.of_stack rfl
  | skip _ _ _ _ searched _ _ =>
      obtain ⟨⟨_, ahead⟩, _⟩ := findAcceptable_ok searched
      refine (((locates.of_stack ahead.stack).pushExtras _ _).push _
        (located_of_idle (.inl rfl) (locatedAll_of_leaves fun child member => ?_))).of_stack rfl
      rcases List.mem_cons.mp member with rfl | behind
      · exact ⟨_, rfl⟩
      · obtain ⟨lexeme, _, inside⟩ := List.mem_flatMap.mp behind
        rcases List.mem_append.mp inside with extra | last
        · obtain ⟨leaf, _, rfl⟩ := List.mem_map.mp extra
          exact ⟨leaf, rfl⟩
        · exact ⟨_, List.mem_singleton.mp last⟩
  | pop _ _ inVain =>
      obtain ⟨_, ahead⟩ := inVain.readsAhead
      exact (locates.of_stack ahead.stack).popEntries
  | wrap _ _ inVain =>
      obtain ⟨_, ahead⟩ := inVain.readsAhead
      exact ((locates.of_stack ahead.stack).pushExtras _ _).push _
        (located_of_idle (.inl rfl) ⟨trivial, trivial⟩)

theorem accept (locates : state.Locates known) (token : Lexeme)
    (nodes : ∀ entry ∈ state.stack, entry.isExtra = false → ∃ head children,
      entry.subtree = .node head children) :
    Located known 0 (state.accept input token) := by
  have opened : ∀ (place : Nat) (entries : List StackEntry),
      (∀ entry ∈ entries, entry.isExtra = false → ∃ head children,
        entry.subtree = .node head children) →
      LocatedAll known place (entries.map StackEntry.subtree) →
      LocatedAll known place (entries.flatMap fun entry =>
        if entry.isExtra then [entry.subtree] else entry.subtree.children) := by
    intro place entries
    induction entries generalizing place with
    | nil => exact fun _ _ => trivial
    | cons entry entries ih =>
        rintro nodes ⟨here, behind⟩
        have rest := ih _ (fun other member => nodes other (List.mem_cons_of_mem _ member)) behind
        rw [List.flatMap_cons]
        -- a node that is opened leaves its children where they stand
        cases extra : entry.isExtra with
        | true => exact ⟨here, rest⟩
        | false =>
            obtain ⟨head, children, shape⟩ := nodes entry List.mem_cons_self extra
            rw [shape] at here rest ⊢
            exact locatedAll_append.mpr ⟨here.2, rest⟩
  have all := locatedAll_append.mpr ⟨opened 0 state.stack.reverse
    (fun entry member => nodes entry (List.mem_reverse.mp member)) locates,
    locatedAll_map_leaf token.extras⟩
  unfold ParseState.accept
  split <;> exact located_of_idle (.inr rfl) all

theorem wrapAll (locates : state.Locates known) (token : Lexeme) :
    Located known 0 (state.wrapAll input token) := by
  refine located_of_idle (.inr rfl) (locatedAll_append.mpr ⟨?_, locatedAll_map_leaf _⟩)
  split
  case isTrue => trivial
  case isFalse => exact ⟨located_of_idle (.inl rfl) locates, trivial⟩

end Locates

end ParseState

end Lalr
