import Lalr.Proofs.Parser.Stack
import Lalr.Proofs.Tree.Candidate

set_option autoImplicit false

/-!
What holds of every part of every subtree on the stack. The steps of a parse put subtrees
together but never change them, so a property of all parts only has to be checked of the leaves
that tokens become and of the nodes that reductions make.
-/

namespace Lalr

namespace Subtree

variable {known : Subtree → Prop} {children : List Subtree}

/-- The nodes that recovery makes and the roots of trees have a property whatever they hold. -/
structure Lenient (known : Subtree → Prop) : Prop where
  ofError : ∀ children, known (ofError children)
  root : ∀ symbol production children, known (root symbol production children)

theorem Lenient.everywhere_ofError (lenient : Lenient known)
    (all : ∀ child ∈ children, child.Everywhere known) :
    (Subtree.ofError children).Everywhere known :=
  everywhere_node.mpr ⟨lenient.ofError children, all⟩

theorem Lenient.everywhere_root (lenient : Lenient known) {symbol : SymbolId}
    {production : Option ProductionId} (all : ∀ child ∈ children, child.Everywhere known) :
    (Subtree.root symbol production children).Everywhere known :=
  everywhere_node.mpr ⟨lenient.root symbol production children, all⟩

end Subtree

/-- The leaves that a token and the extras before it become have a property. -/
def Lexeme.Yields (lexeme : Lexeme) (known : Subtree → Prop) (symbol : SymbolId) : Prop :=
  ∀ top, ∀ leaf ∈ lexeme.leavesAs symbol top, known (.leaf leaf)

namespace Lexeme.Yields

variable {lexeme : Lexeme} {known : Subtree → Prop} {symbol : SymbolId}

theorem extras (yields : lexeme.Yields known symbol) :
    ∀ leaf ∈ lexeme.extras, known (.leaf leaf) :=
  fun leaf member => yields 0 leaf (List.mem_append_left _ member)

theorem token (yields : lexeme.Yields known symbol) (top : StateId) :
    known (.leaf (lexeme.toLeaf symbol top)) :=
  yields top _ (List.mem_append_right _ List.mem_cons_self)

end Lexeme.Yields

namespace ParseState

open Subtree

variable {known : Subtree → Prop} {input : ParseInput} {state : ParseState} {token : Lexeme}

theorem mem_pushAll (next : StateId) (subtrees : List Subtree) {entry : StackEntry}
    (member : entry ∈ state.stack) : entry ∈ (state.pushAll next subtrees).stack := by
  induction subtrees generalizing state with
  | nil => exact member
  | cons subtree subtrees ih => exact ih (List.mem_cons_of_mem _ member)

/-- The node that a reduction puts below the extras on top is a derivation. -/
theorem derivation_of_pushAll {language : Language} {grammar : FlatGrammar} {next : StateId}
    {entry : StackEntry} {below : List StackEntry} {subtrees : List Subtree}
    (sound : StackSound language grammar
      (({ state with stack := entry :: below } : ParseState).pushAll next subtrees).stack)
    (isStructural : entry.isExtra = false) :
    entry.subtree.IsDerivation language ∧ entry.subtree.FollowsProductions language :=
  have listed : entry ∈ (({ state with stack := entry :: below } : ParseState).pushAll next
      subtrees).stack := mem_pushAll next subtrees List.mem_cons_self
  ⟨sound.derivations entry listed isStructural, sound.follow entry listed⟩

/-- Every part of every subtree on the stack has a property. -/
def Holds (known : Subtree → Prop) (state : ParseState) : Prop :=
  ∀ entry ∈ state.stack, entry.subtree.Everywhere known

/-- The nodes that recovery makes have a property if they hold the token at hand or something
that was on the stack. -/
def Admits (known : Subtree → Prop) (state : ParseState) (token : Lexeme) : Prop :=
  ∀ children child, child ∈ children →
    ((token.raw ≠ endSymbol ∧ ∃ top, child = .leaf (token.toLeaf token.raw top)) ∨
      ∃ entry ∈ state.stack, child = entry.subtree) → known (.ofError children)

theorem Admits.of_stack {after : ParseState} (admits : state.Admits known token)
    (stack : after.stack = state.stack) : after.Admits known token := by
  unfold Admits
  rwa [stack]

theorem admits_of_lenient (lenient : Lenient known) : state.Admits known token :=
  fun children _ _ _ => lenient.ofError children

namespace Holds

theorem of_stack {after : ParseState} (holds : state.Holds known)
    (stack : after.stack = state.stack) : after.Holds known := by
  unfold Holds
  rwa [stack]

theorem suffix {above below : List StackEntry} (holds : state.Holds known)
    (shape : state.stack = above ++ below) :
    ({ state with stack := below } : ParseState).Holds known :=
  fun entry member => holds entry (shape ▸ List.mem_append_right _ member)

theorem push (holds : state.Holds known) (next : StateId) {subtree : Subtree}
    (all : subtree.Everywhere known) : (state.push next subtree).Holds known := by
  intro entry member
  rcases List.mem_cons.mp member with rfl | below
  · exact all
  · exact holds entry below

theorem pushAll (holds : state.Holds known) (next : StateId) {subtrees : List Subtree}
    (all : ∀ subtree ∈ subtrees, subtree.Everywhere known) :
    (state.pushAll next subtrees).Holds known := by
  induction subtrees generalizing state with
  | nil => exact holds
  | cons subtree subtrees ih =>
      exact ih (holds.push next (all subtree List.mem_cons_self))
        fun other member => all other (List.mem_cons_of_mem _ member)

theorem push_token (holds : state.Holds known) (top next : StateId) {subtree : Subtree}
    (extras : ∀ leaf ∈ token.extras, known (.leaf leaf)) (all : subtree.Everywhere known) :
    ((state.pushExtras top token).push next subtree).Holds known := by
  refine (holds.pushAll top fun subtree member => ?_).push next all
  obtain ⟨leaf, listed, rfl⟩ := List.mem_map.mp member
  exact everywhere_leaf (extras leaf listed)

theorem reduce (holds : state.Holds known) {id : ProductionId} {production : ProductionInfo}
    {trailing taken below : List StackEntry} {next : StateId} {head : NodeHead} {start : Nat}
    (shape : state.stack = trailing ++ (taken ++ below))
    (reduced : state.reduce input id production token =
      { state with stack := .ofEntries next head taken.reverse start :: below }.pushAll next
        (trailing.reverse.map StackEntry.subtree))
    (made : known (.node head (taken.reverse.map StackEntry.subtree))) :
    (state.reduce input id production token).Holds known := by
  have all : ∀ entry ∈ trailing ++ (taken ++ below), entry.subtree.Everywhere known :=
    fun entry member => holds entry (shape ▸ member)
  rw [reduced]
  refine pushAll (fun entry member => ?_) _ fun subtree member => ?_
  · rcases List.mem_cons.mp member with rfl | under
    · refine everywhere_node.mpr ⟨made, fun child listed => ?_⟩
      obtain ⟨entry, member, rfl⟩ := List.mem_map.mp listed
      exact all entry (List.mem_append_right _
        (List.mem_append_left _ (List.mem_reverse.mp member)))
    · exact all entry (List.mem_append_right _ (List.mem_append_right _ under))
  · obtain ⟨entry, listed, rfl⟩ := List.mem_map.mp member
    exact all entry (List.mem_append_left _ (List.mem_reverse.mp listed))

theorem skipTo (holds : state.Holds known) (admits : state.Admits known token)
    (ordinary : token.raw ≠ endSymbol) {skipped pending : List Lexeme} {next : Lexeme}
    (yields : ∀ lexeme ∈ token :: skipped, lexeme.Yields known lexeme.raw) :
    (state.skipTo token skipped next pending).Holds known := by
  have own := yields token List.mem_cons_self
  refine (holds.push_token state.topState state.topState own.extras (everywhere_node.mpr
    ⟨admits _ _ List.mem_cons_self (.inl ⟨ordinary, _, rfl⟩), fun child member => ?_⟩)).of_stack rfl
  rcases List.mem_cons.mp member with rfl | behind
  · exact everywhere_leaf (own.token _)
  · obtain ⟨lexeme, listed, inside⟩ := List.mem_flatMap.mp behind
    have all := yields lexeme (List.mem_cons_of_mem _ listed)
    rcases List.mem_append.mp inside with extra | last
    · obtain ⟨leaf, before, rfl⟩ := List.mem_map.mp extra
      exact everywhere_leaf (all.extras leaf before)
    · obtain rfl := List.mem_singleton.mp last
      exact everywhere_leaf (all.token _)

theorem popEntries (holds : state.Holds known) (admits : state.Admits known token) :
    (state.popEntries input token).2.Holds known := by
  unfold ParseState.popEntries
  split
  case h_1 => exact holds
  case h_2 depth found =>
      obtain ⟨some_, inside⟩ := popDepth?_bounds found
      obtain ⟨taken, below, shape, popping, counted⟩ := popStructural_spec [] depth state.stack
      have filled : taken ≠ [] := by
        rintro rfl
        exact absurd (counted inside) (Nat.ne_of_lt some_)
      rw [List.append_nil] at popping
      simp only [popping]
      have listed : ∀ entry ∈ taken.reverse, entry ∈ state.stack := fun entry member =>
        shape ▸ List.mem_append_left _ (List.mem_reverse.mp member)
      obtain ⟨first, member⟩ := List.exists_mem_of_ne_nil taken.reverse (by simpa using filled)
      refine ((holds.suffix shape).push _ (everywhere_node.mpr ⟨admits _ _
        (List.mem_map_of_mem member) (.inr ⟨first, listed first member, rfl⟩), ?_⟩)).of_stack rfl
      intro child member
      obtain ⟨entry, inside, rfl⟩ := List.mem_map.mp member
      exact holds entry (listed entry inside)

/-- An effect keeps the property of all parts if the leaves that the tokens at hand become have
it, those read ahead of them included, and if the reduction, if it is one, keeps it. -/
theorem effect {top : StateId} {symbol : SymbolId} {after : ParseState} (holds : state.Holds known)
    (admits : state.Admits known token) (extras : ∀ leaf ∈ token.extras, known (.leaf leaf))
    (shifted : ∀ next, input.language.action top symbol = .shift next →
      token.Yields known symbol)
    (wrapped : token.raw ≠ endSymbol → token.Yields known token.raw)
    (skipped : ∀ read later, ReadsAhead input state read later →
      ∀ lexeme ∈ later.pending.dropLast, lexeme.Yields known lexeme.raw)
    (reduces : ∀ id production, input.language.action top symbol = .reduce id →
      input.language.production? id = some production →
      (state.reduce input id production token).Holds known)
    (effect : Effect input state top symbol token (.next after)) : after.Holds known := by
  cases effect with
  | shift action =>
      exact holds.push_token _ _ extras (everywhere_leaf ((shifted _ action).token _))
  | reduce action found => exact (reduces _ _ action found).of_stack rfl
  | insert => exact holds.of_stack rfl
  | skip _ _ ordinary _ searched whole _ =>
      obtain ⟨⟨_, ahead⟩, _⟩ := findAcceptable_ok searched
      refine (holds.of_stack ahead.stack).skipTo (admits.of_stack ahead.stack) ordinary
        fun lexeme member => ?_
      rcases List.mem_cons.mp member with rfl | behind
      · exact wrapped ordinary
      · refine skipped _ _ ahead lexeme ?_
        rw [whole, List.dropLast_append_of_ne_nil (List.cons_ne_nil _ _)]
        exact List.mem_append_left _ behind
  | pop _ _ inVain =>
      obtain ⟨_, ahead⟩ := inVain.readsAhead
      exact (holds.of_stack ahead.stack).popEntries (admits.of_stack ahead.stack)
  | wrap _ _ inVain _ ordinary =>
      obtain ⟨_, ahead⟩ := inVain.readsAhead
      refine (holds.of_stack ahead.stack).push_token _ _ extras (everywhere_node.mpr
        ⟨admits _ _ List.mem_cons_self (.inl ⟨ordinary, _, rfl⟩), fun child member => ?_⟩)
      exact List.mem_singleton.mp member ▸ everywhere_leaf ((wrapped ordinary).token _)

theorem accept_children (holds : state.Holds known)
    (extras : ∀ leaf ∈ token.extras, known (.leaf leaf)) :
    ∀ child ∈ (state.accept input token).children, child.Everywhere known := by
  have all : ∀ child ∈ state.stack.reverse.flatMap (fun entry =>
      if entry.isExtra then [entry.subtree] else entry.subtree.children) ++
        token.extras.map .leaf, child.Everywhere known := by
    intro child member
    rcases List.mem_append.mp member with inside | extra
    · obtain ⟨entry, listed, kept⟩ := List.mem_flatMap.mp inside
      have whole := holds entry (List.mem_reverse.mp listed)
      split at kept
      case isTrue => exact List.mem_singleton.mp kept ▸ whole
      case isFalse =>
          cases shape : entry.subtree with
          | leaf token => simp [shape, children] at kept
          | node head below =>
              rw [shape] at kept whole
              exact (everywhere_node.mp whole).2 child kept
    · obtain ⟨leaf, listed, rfl⟩ := List.mem_map.mp extra
      exact everywhere_leaf (extras leaf listed)
  unfold ParseState.accept
  split <;> exact all

theorem accept (holds : state.Holds known) (lenient : Lenient known)
    (extras : ∀ leaf ∈ token.extras, known (.leaf leaf)) :
    (state.accept input token).Everywhere known := by
  obtain ⟨symbol, production, shape⟩ : ∃ symbol production, state.accept input token =
      .root symbol production (state.accept input token).children := by
    unfold ParseState.accept
    split <;> exact ⟨_, _, rfl⟩
  rw [shape]
  exact lenient.everywhere_root (holds.accept_children extras)

theorem wrapAll_children (holds : state.Holds known) (admits : state.Admits known token)
    (extras : ∀ leaf ∈ token.extras, known (.leaf leaf)) :
    ∀ child ∈ (state.wrapAll input token).children, child.Everywhere known := by
  intro child member
  rcases List.mem_append.mp member with wrapped | extra
  · split at wrapped
    case isTrue => exact absurd wrapped List.not_mem_nil
    case isFalse filled =>
        obtain rfl := List.mem_singleton.mp wrapped
        have listed : ∀ child ∈ state.stack.reverse.map StackEntry.subtree,
            ∃ entry ∈ state.stack, child = entry.subtree := by
          intro child member
          obtain ⟨entry, inside, rfl⟩ := List.mem_map.mp member
          exact ⟨entry, List.mem_reverse.mp inside, rfl⟩
        obtain ⟨first, member⟩ := List.exists_mem_of_ne_nil _ (mt List.isEmpty_iff.mpr filled)
        refine everywhere_node.mpr ⟨admits _ first member (.inr (listed first member)), ?_⟩
        intro other inside
        obtain ⟨entry, member, rfl⟩ := listed other inside
        exact holds entry member
  · obtain ⟨leaf, listed, rfl⟩ := List.mem_map.mp extra
    exact everywhere_leaf (extras leaf listed)

theorem wrapAll (holds : state.Holds known) (lenient : Lenient known)
    (extras : ∀ leaf ∈ token.extras, known (.leaf leaf)) :
    (state.wrapAll input token).Everywhere known := by
  have below : ∀ child ∈ (state.wrapAll input token).children, child.Everywhere known :=
    holds.wrapAll_children (admits_of_lenient lenient) extras
  exact lenient.everywhere_root below

end Holds

end ParseState

end Lalr
