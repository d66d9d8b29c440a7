import Mathlib.Data.Finset.Powerset
import Mathlib.Data.List.Flatten
import Lalr.Proofs.Automaton.Closure

set_option autoImplicit false

/-!
The exploration of the states. Its invariant says what a completed state knows of its
successors, and that no kernel is entered twice. Kernels are ordered lists of items without
repetition, so there are no more of them than sets of items, and every state is completed
before the limit is reached.
-/

namespace Lalr

/-! ## Kernels -/

namespace Item

/-- Strictly before, in the order of items. -/
def Precedes (first second : Item) : Prop :=
  first.before second = true ∧ first ≠ second

theorem before_iff {first second : Item} :
    first.before second = true ↔
      first.production < second.production ∨
        first.production = second.production ∧ first.dot ≤ second.dot := by
  simp [before]

theorem before_trans (first second third : Item) (left : first.before second = true)
    (right : second.before third = true) : first.before third = true := by
  rw [before_iff] at *
  omega

theorem before_total (first second : Item) :
    (first.before second || second.before first) = true := by
  rw [Bool.or_eq_true, before_iff, before_iff]
  omega

theorem before_antisymm {first second : Item} (left : first.before second = true)
    (right : second.before first = true) : first = second := by
  obtain ⟨production, dot⟩ := first
  obtain ⟨otherProduction, otherDot⟩ := second
  simp only [before_iff] at left right
  rw [Item.mk.injEq]
  omega

theorem precedes_advance {first second : Item} (precedes : first.Precedes second) :
    first.advance.Precedes second.advance := by
  obtain ⟨production, dot⟩ := first
  obtain ⟨otherProduction, otherDot⟩ := second
  simp only [Precedes, before_iff, advance, ne_eq, Item.mk.injEq] at *
  omega

/-- Ordered lists without repetition are equal if they have the same members. -/
theorem eq_of_precedes {first second : List Item} (firstOrdered : first.Pairwise Precedes)
    (secondOrdered : second.Pairwise Precedes) (same : ∀ item, item ∈ first ↔ item ∈ second) :
    first = second := by
  have distinct : ∀ {items : List Item}, items.Pairwise Precedes → items.Nodup :=
    fun ordered => ordered.imp fun precedes => precedes.2
  refine ((List.perm_ext_iff_of_nodup (distinct firstOrdered) (distinct secondOrdered)).mpr
    same).eq_of_pairwise ?_ firstOrdered secondOrdered
  intro left right _ _ forward backward
  exact before_antisymm forward.1 backward.1

end Item

namespace FlatGrammar

variable {grammar : FlatGrammar}

/-- The kernel of a state: valid items in order, each moved on from the start of its
production, apart from the start item. -/
structure IsKernel (grammar : FlatGrammar) (kernel : List Item) : Prop where
  ordered : kernel.Pairwise Item.Precedes
  inside : ∀ item ∈ kernel, item.dot ≤ (grammar.items.symbols item.production).length
  known : ∀ item ∈ kernel, item.production < grammar.items.rhs.size
  moved : ∀ item ∈ kernel, 0 < item.dot ∨ item.production = grammar.productions.size

theorem isKernel_start : grammar.IsKernel [⟨grammar.items.startProduction, 0⟩] where
  ordered := List.pairwise_singleton _ _
  inside := by simp
  known := by simp [ItemGrammar.startProduction, ItemGrammar.ofGrammar]
  moved := by simp [items_startProduction]

theorem nodup_added (numbered : grammar.WellNumbered) {kernel : List Item} :
    ((grammar.items.predicted kernel).flatMap fun symbol =>
      (grammar.items.productionsOf.getD (grammar.items.place symbol) []).map fun production =>
        (⟨production, 0⟩ : Item)).Nodup := by
  have listed : ∀ symbol ∈ grammar.items.predicted kernel,
      grammar.items.productionsOf.getD (grammar.items.place symbol) [] =
        grammar.productionsOf symbol :=
    fun symbol member =>
      items_productionsOf numbered (le_of_expects numbered ((mem_predicted numbered).mp member))
  refine List.nodup_flatMap.mpr ⟨?_, ?_⟩
  · intro symbol member
    rw [listed symbol member]
    refine List.Nodup.map ?_ (List.Nodup.filter _ List.nodup_range)
    intro left right same
    exact (Item.mk.inj same).1
  · refine List.Pairwise.imp_of_mem ?_ (nodup_predicted kernel)
    intro left right leftMember rightMember different item leftItem rightItem
    simp only [listed left leftMember] at leftItem
    simp only [listed right rightMember] at rightItem
    obtain ⟨index, leftListed, rfl⟩ := List.mem_map.mp leftItem
    obtain ⟨other, rightListed, same⟩ := List.mem_map.mp rightItem
    obtain rfl := (Item.mk.inj same).1
    obtain ⟨production, found, rfl⟩ := mem_productionsOf.mp leftListed
    obtain ⟨again, foundAgain, rfl⟩ := mem_productionsOf.mp rightListed
    exact different (congrArg Production.lhs (Option.some.inj (found.symm.trans foundAgain)))

theorem ordered_closure (numbered : grammar.WellNumbered) {kernel : List Item}
    (isKernel : grammar.IsKernel kernel) :
    (grammar.items.closure kernel).Pairwise Item.Precedes := by
  have distinct : (grammar.items.closure kernel).Nodup := by
    refine (List.mergeSort_perm _ _).nodup_iff.mpr (List.nodup_append.mpr
      ⟨isKernel.ordered.imp fun precedes => precedes.2, nodup_added numbered, ?_⟩)
    rintro item member other added rfl
    obtain ⟨symbol, expected, mapped⟩ := List.mem_flatMap.mp added
    obtain ⟨index, listed, rfl⟩ := List.mem_map.mp mapped
    rw [items_productionsOf numbered
      (le_of_expects numbered ((mem_predicted numbered).mp expected))] at listed
    obtain ⟨production, found, _⟩ := mem_productionsOf.mp listed
    have bound := (Array.getElem?_eq_some_iff.mp found).1
    have moved := isKernel.moved _ member
    simp only at moved
    omega
  exact (List.pairwise_mergeSort Item.before_trans Item.before_total _).and distinct

theorem next?_bound {item : Item} {symbol : Nat}
    (next : grammar.items.next? item = some symbol) :
    item.dot < (grammar.items.symbols item.production).length ∧
      item.production < grammar.items.rhs.size := by
  have short := (List.getElem?_eq_some_iff.mp next).1
  refine ⟨short, ?_⟩
  by_contra outside
  simp [ItemGrammar.symbols, Array.getElem?_eq_none (Nat.le_of_not_lt outside)] at short

/-- The items behind a symbol are the kernel of a state. -/
theorem isKernel_successor (numbered : grammar.WellNumbered) {kernel next : List Item}
    {symbol : Nat} (isKernel : grammar.IsKernel kernel)
    (member : (symbol, next) ∈ grammar.items.successors (grammar.items.closure kernel)) :
    grammar.IsKernel next := by
  obtain ⟨_, rfl⟩ := ItemGrammar.mem_successors.mp member
  have origin : ∀ item ∈ ((grammar.items.closure kernel).filter fun item =>
      grammar.items.next? item == some symbol).map Item.advance,
      ∃ before, grammar.items.next? before = some symbol ∧ before.advance = item := by
    intro item listed
    obtain ⟨before, filtered, rfl⟩ := List.mem_map.mp listed
    exact ⟨before, by simpa using (List.mem_filter.mp filtered).2, rfl⟩
  refine ⟨?_, ?_, ?_, ?_⟩
  · exact List.Pairwise.map _ (fun _ _ => Item.precedes_advance)
      ((ordered_closure numbered isKernel).filter _)
  · intro item listed
    obtain ⟨before, nextSymbol, rfl⟩ := origin item listed
    exact (next?_bound nextSymbol).1
  · intro item listed
    obtain ⟨before, nextSymbol, rfl⟩ := origin item listed
    exact (next?_bound nextSymbol).2
  · intro item listed
    obtain ⟨before, _, rfl⟩ := origin item listed
    exact .inl (Nat.succ_pos _)

end FlatGrammar

/-! ## Entering states -/

/-- The kernel of the state in a place. -/
def kernelAt (states : Array ItemState) (place : Nat) : Option (List Item) :=
  (states[place]?).map ItemState.kernel

/-- No two states have the same kernel. -/
def KernelsDistinct (states : Array ItemState) : Prop :=
  ∀ place other kernel, kernelAt states place = some kernel →
    kernelAt states other = some kernel → place = other

theorem kernelAt_eq_some_iff {states : Array ItemState} {place : Nat} {kernel : List Item} :
    kernelAt states place = some kernel ↔
      ∃ state, states[place]? = some state ∧ state.kernel = kernel := by
  simp [kernelAt]

/-- States are only added, and those added are not completed yet. -/
structure Extends (kernels : List (List Item)) (before after : Array ItemState) : Prop where
  kept : ∀ (place : Nat) state, before[place]? = some state → after[place]? = some state
  added : ∀ (place : Nat) state, after[place]? = some state →
    before[place]? = some state ∨ before.size ≤ place ∧ ∃ kernel ∈ kernels, state = ⟨kernel, [], []⟩
  distinct : KernelsDistinct before → KernelsDistinct after

namespace Extends

theorem refl {kernels : List (List Item)} (states : Array ItemState) :
    Extends kernels states states :=
  ⟨fun _ _ found => found, fun _ _ found => .inl found, id⟩

theorem size_le {kernels : List (List Item)} {before after : Array ItemState}
    (grown : Extends kernels before after) : before.size ≤ after.size := by
  by_contra smaller
  have bound : after.size < before.size := Nat.lt_of_not_le smaller
  have found := grown.kept after.size _ (Array.getElem?_eq_getElem bound)
  simp at found

theorem trans {first second : List (List Item)} {before middle after : Array ItemState}
    (left : Extends first before middle) (right : Extends second middle after) :
    Extends (first ++ second) before after := by
  refine ⟨fun place state found => right.kept place state (left.kept place state found), ?_,
    fun distinct => right.distinct (left.distinct distinct)⟩
  intro place state found
  rcases right.added place state found with old | ⟨beyond, kernel, listed, same⟩
  · rcases left.added place state old with older | ⟨beyond, kernel, listed, same⟩
    · exact .inl older
    · exact .inr ⟨beyond, kernel, List.mem_append_left _ listed, same⟩
  · exact .inr ⟨Nat.le_trans left.size_le beyond, kernel, List.mem_append_right _ listed, same⟩

theorem kernelAt {kernels : List (List Item)} {before after : Array ItemState}
    (grown : Extends kernels before after) {place : Nat} {kernel : List Item}
    (found : kernelAt before place = some kernel) : Lalr.kernelAt after place = some kernel := by
  obtain ⟨state, old, same⟩ := kernelAt_eq_some_iff.mp found
  exact kernelAt_eq_some_iff.mpr ⟨state, grown.kept place state old, same⟩

end Extends

/-- A kernel has a state of its own once it is entered. -/
theorem enterKernel_spec (states : Array ItemState) (kernel : List Item) :
    Extends [kernel] states (enterKernel states kernel).2 ∧
      kernelAt (enterKernel states kernel).2 (enterKernel states kernel).1 = some kernel := by
  unfold enterKernel
  cases found : states.findIdx? fun state => state.kernel == kernel with
  | some index =>
      obtain ⟨bound, matched, _⟩ := Array.findIdx?_eq_some_iff_getElem.mp found
      refine ⟨.refl states, kernelAt_eq_some_iff.mpr ⟨states[index], ?_, by simpa using matched⟩⟩
      exact Array.getElem?_eq_getElem bound
  | none =>
      have fresh : ∀ state ∈ states, state.kernel ≠ kernel := by
        simpa using Array.findIdx?_eq_none_iff.mp found
      have absent : ∀ place, kernelAt states place ≠ some kernel := by
        intro place found
        obtain ⟨state, old, same⟩ := kernelAt_eq_some_iff.mp found
        exact fresh state (Array.mem_of_getElem? old) same
      refine ⟨⟨?_, ?_, ?_⟩, by simp [kernelAt]⟩
      · intro place state old
        have bound := (Array.getElem?_eq_some_iff.mp old).1
        simp [Array.getElem?_push, Nat.ne_of_lt bound, old]
      · intro place state new
        rw [Array.getElem?_push] at new
        split at new
        · exact .inr ⟨by omega, kernel, by simp, (Option.some.inj new).symm⟩
        · exact .inl new
      · intro distinct place other shared first second
        simp only [kernelAt, Array.getElem?_push] at first second
        split at first <;> split at second
        · omega
        · obtain rfl : kernel = shared := by simpa using first
          exact absurd second (absent other)
        · obtain rfl : kernel = shared := by simpa using second
          exact absurd first (absent place)
        · exact distinct place other shared first second

/-- The transitions of a state lead to the states of its successors. -/
theorem enterSuccessors_spec (states : Array ItemState) (successors : List (Nat × List Item)) :
    Extends (successors.map Prod.snd) states (enterSuccessors states successors).1 ∧
      List.Forall₂ (fun successor transition => successor.1 = transition.1 ∧
          kernelAt (enterSuccessors states successors).1 transition.2 = some successor.2)
        successors (enterSuccessors states successors).2 := by
  induction successors generalizing states with
  | nil => exact ⟨.refl states, .nil⟩
  | cons successor rest hypothesis =>
      obtain ⟨symbol, kernel⟩ := successor
      obtain ⟨entered, placed⟩ := enterKernel_spec states kernel
      obtain ⟨grown, transitions⟩ := hypothesis (enterKernel states kernel).2
      exact ⟨entered.trans grown, .cons ⟨rfl, grown.kernelAt placed⟩ transitions⟩

/-! ## The invariant -/

/-- A state whose predictions and transitions are settled. -/
structure ItemGrammar.Completed (grammar : ItemGrammar) (states : Array ItemState)
    (state : ItemState) : Prop where
  predicted : state.predicted = grammar.predicted state.kernel
  transitions : List.Forall₂ (fun successor transition => successor.1 = transition.1 ∧
      kernelAt states transition.2 = some successor.2)
    (grammar.successors (grammar.closure state.kernel)) state.transitions

namespace ItemGrammar.Completed

variable {grammar : ItemGrammar} {states : Array ItemState} {state : ItemState}

theorem exists_target (completed : grammar.Completed states state) {symbol : Nat}
    {next : List Item}
    (member : (symbol, next) ∈ grammar.successors (grammar.closure state.kernel)) :
    ∃ target, (symbol, target) ∈ state.transitions ∧ kernelAt states target = some next := by
  obtain ⟨index, inside, same⟩ := List.getElem_of_mem member
  have length := completed.transitions.length_eq
  have matched := completed.transitions.get inside (length ▸ inside)
  simp only [List.get_eq_getElem, same] at matched
  refine ⟨state.transitions[index].2, ?_, matched.2⟩
  rw [matched.1]
  exact List.getElem_mem _

theorem exists_successor (completed : grammar.Completed states state) {symbol target : Nat}
    (member : (symbol, target) ∈ state.transitions) :
    ∃ next, (symbol, next) ∈ grammar.successors (grammar.closure state.kernel) ∧
      kernelAt states target = some next := by
  obtain ⟨index, inside, same⟩ := List.getElem_of_mem member
  have length := completed.transitions.length_eq
  have bound : index < (grammar.successors (grammar.closure state.kernel)).length :=
    length.symm ▸ inside
  have matched := completed.transitions.get bound inside
  simp only [List.get_eq_getElem, same] at matched
  refine ⟨_, ?_, matched.2⟩
  rw [← matched.1]
  exact List.getElem_mem _

theorem nodup_keys (completed : grammar.Completed states state) :
    (state.transitions.map Prod.fst).Nodup := by
  have keys : state.transitions.map Prod.fst =
      (grammar.successors (grammar.closure state.kernel)).map Prod.fst := by
    refine List.forall₂_eq_eq_eq ▸ List.forall₂_map_left_iff.mpr (List.forall₂_map_right_iff.mpr ?_)
    exact (completed.transitions.imp fun _ _ matched => matched.1.symm).flip
  rw [keys]
  exact nodup_successors

end ItemGrammar.Completed

namespace FlatGrammar

variable {grammar : FlatGrammar}

/-- The states before `index` are completed; those from `index` on wait for it. -/
structure Explored (grammar : FlatGrammar) (index : Nat) (states : Array ItemState) : Prop where
  first : kernelAt states 0 = some [⟨grammar.items.startProduction, 0⟩]
  later : ∀ place kernel, 0 < place → kernelAt states place = some kernel →
    ∀ item ∈ kernel, 0 < item.dot
  origin : ∀ place kernel, 0 < place → kernelAt states place = some kernel →
    ∃ source before symbol, source < place ∧ kernelAt states source = some before ∧
      (symbol, kernel) ∈ grammar.items.successors (grammar.items.closure before)
  kernels : ∀ place kernel, kernelAt states place = some kernel → grammar.IsKernel kernel
  distinct : KernelsDistinct states
  completed : ∀ (place : Nat) state, place < index → states[place]? = some state →
    grammar.items.Completed states state
  waiting : ∀ (place : Nat) state, index ≤ place → states[place]? = some state →
    state.predicted = [] ∧ state.transitions = []

theorem explored_start :
    grammar.Explored 0 #[⟨[⟨grammar.items.startProduction, 0⟩], [], []⟩] := by
  have only : ∀ place kernel,
      kernelAt #[⟨[⟨grammar.items.startProduction, 0⟩], [], []⟩] place = some kernel →
        place = 0 ∧ kernel = [⟨grammar.items.startProduction, 0⟩] := by
    intro place kernel found
    obtain ⟨state, placed, rfl⟩ := kernelAt_eq_some_iff.mp found
    obtain ⟨bound, rfl⟩ := Array.getElem?_eq_some_iff.mp placed
    have zero : place = 0 := by simpa using bound
    subst zero
    exact ⟨rfl, rfl⟩
  refine ⟨rfl, ?_, ?_, ?_, ?_, ?_, ?_⟩
  · intro place kernel positive found
    have := (only place kernel found).1
    omega
  · intro place kernel positive found
    have := (only place kernel found).1
    omega
  · intro place kernel found
    rw [(only place kernel found).2]
    exact isKernel_start
  · intro place other kernel left right
    rw [(only place kernel left).1, (only other kernel right).1]
  · intro place state early
    omega
  · intro place state _ found
    obtain ⟨bound, rfl⟩ := Array.getElem?_eq_some_iff.mp found
    have zero : place = 0 := by simpa using bound
    subst zero
    exact ⟨rfl, rfl⟩

/-- Completing one state keeps the invariant. -/
theorem Explored.complete (numbered : grammar.WellNumbered) {index : Nat}
    {states : Array ItemState} (explored : grammar.Explored index states) {state : ItemState}
    (found : states[index]? = some state) :
    let successors := grammar.items.successors (grammar.items.closure state.kernel)
    let entered := enterSuccessors states successors
    grammar.Explored (index + 1)
      (entered.1.set! index ⟨state.kernel, grammar.items.predicted state.kernel, entered.2⟩) := by
  intro successors entered
  obtain ⟨grown, transitions⟩ := enterSuccessors_spec states successors
  have here : entered.1[index]? = some state := grown.kept index state found
  have inside := (Array.getElem?_eq_some_iff.mp here).1
  have isKernel := explored.kernels index state.kernel
    (kernelAt_eq_some_iff.mpr ⟨state, found, rfl⟩)
  generalize completedStates : entered.1.set! index
    ⟨state.kernel, grammar.items.predicted state.kernel, entered.2⟩ = completed
  have at_index : completed[index]? = 
      some ⟨state.kernel, grammar.items.predicted state.kernel, entered.2⟩ := by
    simp [← completedStates, inside]
  have elsewhere : ∀ place, place ≠ index → completed[place]? = entered.1[place]? := by
    intro place other
    simp [← completedStates, other.symm]
  have same : ∀ place, kernelAt completed place = kernelAt entered.1 place := by
    intro place
    by_cases other : place = index
    · subst other
      simp [kernelAt, at_index, here]
    · simp [kernelAt, elsewhere place other]
  have origin : ∀ place kernel, kernelAt completed place = some kernel →
      kernelAt states place = some kernel ∨
        states.size ≤ place ∧ ∃ symbol, (symbol, kernel) ∈ successors := by
    intro place kernel placed
    rw [same] at placed
    obtain ⟨other, old, rfl⟩ := kernelAt_eq_some_iff.mp placed
    rcases grown.added place other old with older | ⟨beyond, kernel, listed, rfl⟩
    · exact .inl (kernelAt_eq_some_iff.mpr ⟨other, older, rfl⟩)
    · obtain ⟨⟨symbol, behind⟩, member, rfl⟩ := List.mem_map.mp listed
      exact .inr ⟨beyond, symbol, member⟩
  refine ⟨?_, ?_, ?_, ?_, ?_, ?_, ?_⟩
  · rw [same]
    exact grown.kernelAt explored.first
  · intro place kernel positive placed
    rcases origin place kernel placed with old | ⟨_, symbol, listed⟩
    · exact explored.later place kernel positive old
    · obtain ⟨_, rfl⟩ := ItemGrammar.mem_successors.mp listed
      intro item member
      obtain ⟨before, _, rfl⟩ := List.mem_map.mp member
      exact Nat.succ_pos _
  · intro place kernel positive placed
    rcases origin place kernel placed with old | ⟨beyond, symbol, listed⟩
    · obtain ⟨source, before, symbol, early, former, listed⟩ :=
        explored.origin place kernel positive old
      exact ⟨source, before, symbol, early, by rw [same]; exact grown.kernelAt former, listed⟩
    · have bound := (Array.getElem?_eq_some_iff.mp found).1
      exact ⟨index, state.kernel, symbol, by omega,
        by rw [same]; exact kernelAt_eq_some_iff.mpr ⟨state, here, rfl⟩, listed⟩
  · intro place kernel placed
    rcases origin place kernel placed with old | ⟨_, symbol, listed⟩
    · exact explored.kernels place kernel old
    · exact isKernel_successor numbered isKernel listed
  · intro place other kernel left right
    rw [same] at left right
    exact grown.distinct explored.distinct place other kernel left right
  · intro place other early placed
    by_cases current : place = index
    · subst current
      obtain rfl := Option.some.inj (at_index.symm.trans placed)
      exact ⟨rfl, by simpa only [same] using transitions⟩
    · rw [elsewhere place current] at placed
      rcases grown.added place other placed with old | ⟨beyond, _⟩
      · obtain ⟨predicted, former⟩ := explored.completed place other (by omega) old
        refine ⟨predicted, former.imp fun successor transition matched => ⟨matched.1, ?_⟩⟩
        rw [same]
        exact grown.kernelAt matched.2
      · have bound := (Array.getElem?_eq_some_iff.mp found).1
        omega
  · intro place other late placed
    rw [elsewhere place (by omega)] at placed
    rcases grown.added place other placed with old | ⟨_, kernel, _, rfl⟩
    · exact explored.waiting place other (by omega) old
    · exact ⟨rfl, rfl⟩

/-- Exploration keeps the invariant, and stops early only when every state is completed. -/
theorem Explored.explore (numbered : grammar.WellNumbered) (limit : Nat) {index : Nat}
    {states : Array ItemState} (explored : grammar.Explored index states) :
    ∃ reached, grammar.Explored reached (grammar.items.explore limit index states) ∧
      (reached < (grammar.items.explore limit index states).size → reached = index + limit) := by
  fun_induction ItemGrammar.explore grammar.items limit index states with
  | case1 index states => exact ⟨index, explored, fun _ => rfl⟩
  | case2 limit index states missing =>
      refine ⟨index, explored, fun inside => ?_⟩
      simp [Array.getElem?_eq_getElem inside] at missing
  | case3 limit index states state found predicted items states' transitions entered hypothesis =>
      have step := explored.complete numbered found
      have entered' : enterSuccessors states
          (grammar.items.successors (grammar.items.closure state.kernel)) =
            (states', transitions) := entered
      simp only [entered'] at step
      obtain ⟨reached, explored, enough⟩ := hypothesis step
      exact ⟨reached, explored, fun inside => by have := enough inside; omega⟩

/-! ## The number of states -/

/-- The items whose dot lies within their production. -/
def allItems (grammar : FlatGrammar) : List Item :=
  (List.range grammar.items.rhs.size).flatMap fun production =>
    (List.range ((grammar.items.symbols production).length + 1)).map (Item.mk production)

theorem length_allItems (grammar : FlatGrammar) :
    grammar.allItems.length = grammar.items.itemCount := by
  have listed : grammar.items.rhs.toList =
      (List.range grammar.items.rhs.size).map grammar.items.symbols := by
    refine List.ext_getElem (by simp) fun index left right => ?_
    have bound : index < grammar.items.rhs.size := by simpa using left
    simp [ItemGrammar.symbols, bound]
  have summed : ∀ productions : List Nat,
      (productions.map fun production => (grammar.items.symbols production).length + 1).sum =
        (productions.map fun production => (grammar.items.symbols production).length).sum +
          productions.length := by
    intro productions
    induction productions with
    | nil => rfl
    | cons production productions hypothesis =>
        simp only [List.map_cons, List.sum_cons, List.length_cons, hypothesis]
        omega
  simp only [allItems, List.length_flatMap, List.length_map, List.length_range, summed,
    ItemGrammar.itemCount, List.length_flatten, listed, List.map_map]
  rfl

theorem IsKernel.subset {kernel : List Item} (isKernel : grammar.IsKernel kernel) :
    kernel.toFinset ⊆ grammar.allItems.toFinset := by
  intro item member
  have listed := List.mem_toFinset.mp member
  refine List.mem_toFinset.mpr (List.mem_flatMap.mpr
    ⟨item.production, List.mem_range.mpr (isKernel.known item listed), List.mem_map.mpr
      ⟨item.dot, List.mem_range.mpr ?_, rfl⟩⟩)
  exact Nat.lt_succ_of_le (isKernel.inside item listed)

/-- There are no more states than sets of items. -/
theorem Explored.size_le {index : Nat} {states : Array ItemState}
    (explored : grammar.Explored index states) :
    states.size ≤ 2 ^ grammar.items.itemCount := by
  have placed : ∀ place ∈ Finset.range states.size, ∃ kernel, kernelAt states place = some kernel := by
    intro place member
    exact ⟨_, kernelAt_eq_some_iff.mpr
      ⟨_, Array.getElem?_eq_getElem (Finset.mem_range.mp member), rfl⟩⟩
  have counted := Finset.card_le_card_of_injOn (s := Finset.range states.size)
    (t := grammar.allItems.toFinset.powerset)
    (fun place => ((kernelAt states place).getD []).toFinset) ?_ ?_
  · calc states.size = (Finset.range states.size).card := (Finset.card_range _).symm
      _ ≤ grammar.allItems.toFinset.powerset.card := counted
      _ = 2 ^ grammar.allItems.toFinset.card := Finset.card_powerset _
      _ ≤ 2 ^ grammar.items.itemCount := by
          refine Nat.pow_le_pow_right (by omega) ?_
          exact length_allItems grammar ▸ List.toFinset_card_le _
  · intro place member
    obtain ⟨kernel, found⟩ := placed place member
    refine Finset.mem_coe.mpr (Finset.mem_powerset.mpr ?_)
    simpa only [found, Option.getD_some] using (explored.kernels place kernel found).subset
  · intro place member other otherMember same
    obtain ⟨kernel, found⟩ := placed place member
    obtain ⟨otherKernel, otherFound⟩ := placed other otherMember
    simp only [found, otherFound, Option.getD_some] at same
    have equal : kernel = otherKernel := Item.eq_of_precedes
      (explored.kernels place kernel found).ordered
      (explored.kernels other otherKernel otherFound).ordered
      fun item => by rw [← List.mem_toFinset, same, List.mem_toFinset]
    exact explored.distinct place other kernel found (equal ▸ otherFound)

/-- Exploration ends with every state completed. -/
theorem explored_states (numbered : grammar.WellNumbered) :
    grammar.Explored grammar.items.states.size grammar.items.states := by
  obtain ⟨reached, explored, enough⟩ := explored_start.explore numbered
    (Nat.pow 2 grammar.items.itemCount)
  change grammar.Explored reached grammar.items.states at explored
  change reached < grammar.items.states.size → _ at enough
  have done : grammar.items.states.size ≤ reached := by
    by_contra unfinished
    have steps := enough (Nat.lt_of_not_le unfinished)
    have bound : grammar.items.states.size ≤ Nat.pow 2 grammar.items.itemCount := explored.size_le
    omega
  refine ⟨explored.first, explored.later, explored.origin, explored.kernels, explored.distinct,
    ?_, ?_⟩
  · intro place state inside found
    exact explored.completed place state (by omega) found
  · intro place state beyond found
    have bound := (Array.getElem?_eq_some_iff.mp found).1
    omega

end FlatGrammar

end Lalr
