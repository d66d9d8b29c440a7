import Mathlib.Algebra.BigOperators.Group.List.Basic
import Mathlib.Algebra.Order.BigOperators.Group.List
import Mathlib.Algebra.Order.Ring.Nat
import Mathlib.Data.Finset.Card
import Lalr.Automaton.Lookahead

set_option autoImplicit false

/-!
Repetition until nothing changes. A change that never loses anything either leaves a value as
it is or adds weight to it; where the weight is bounded, enough repetitions reach a value
that the change leaves alone.
-/

namespace Lalr

/-! ## Changes that add weight -/

/-- A change keeps an invariant, and either leaves a value alone or adds weight. -/
structure Grows {α : Type} (invariant : α → Prop) (weight : α → Nat) (change : α → α) :
    Prop where
  keeps : ∀ value, invariant value → invariant (change value)
  grows : ∀ value, invariant value → change value = value ∨ weight value < weight (change value)

namespace Grows

variable {α β : Type} {invariant : α → Prop} {weight : α → Nat}

theorem id : Grows invariant weight fun value => value :=
  ⟨fun _ holds => holds, fun _ _ => .inl rfl⟩

theorem le {change : α → α} (grown : Grows invariant weight change) {value : α}
    (holds : invariant value) : weight value ≤ weight (change value) := by
  rcases grown.grows value holds with same | more
  · exact Nat.le_of_eq (congrArg weight same.symm)
  · exact Nat.le_of_lt more

theorem foldl {change : α → β → α} {items : List β}
    (steps : ∀ item ∈ items, Grows invariant weight fun value => change value item) :
    Grows invariant weight fun value => items.foldl change value := by
  induction items with
  | nil => exact .id
  | cons item items hypothesis =>
      have first := steps item List.mem_cons_self
      have later := hypothesis fun other member => steps other (List.mem_cons_of_mem _ member)
      refine ⟨fun value holds => later.keeps _ (first.keeps value holds), fun value holds => ?_⟩
      simp only [List.foldl_cons]
      rcases first.grows value holds with same | more
      · rw [same]
        exact later.grows value holds
      · exact .inr (Nat.lt_of_lt_of_le more (later.le (first.keeps value holds)))

/-- What a whole round leaves alone is left alone by each of its steps. -/
theorem foldl_fixed {change : α → β → α} {items : List β}
    (steps : ∀ item ∈ items, Grows invariant weight fun value => change value item) {value : α}
    (holds : invariant value) (fixed : items.foldl change value = value) :
    ∀ item ∈ items, change value item = value := by
  induction items generalizing value with
  | nil => simp
  | cons first items hypothesis =>
      have here := steps first List.mem_cons_self
      have after : ∀ item ∈ items, Grows invariant weight fun value => change value item :=
        fun other member => steps other (List.mem_cons_of_mem _ member)
      have same : change value first = value := by
        rcases here.grows value holds with same | more
        · exact same
        · have kept := (foldl after).le (here.keeps value holds)
          rw [List.foldl_cons] at fixed
          rw [fixed] at kept
          omega
      intro item member
      rcases List.mem_cons.mp member with rfl | later
      · exact same
      · refine hypothesis after holds ?_ item later
        rwa [List.foldl_cons, same] at fixed

/-- Steps that report whether they changed anything add up to a round that does: where one of them
adds weight, no later one takes it away. -/
theorem foldl_report {change : α → β → α} {step : α × Bool → β → α × Bool} [DecidableEq α]
    {items : List β}
    (reports : ∀ value changed item, invariant value →
      step (value, changed) item =
        (change value item, changed || decide (change value item ≠ value)))
    (steps : ∀ item ∈ items, Grows invariant weight fun value => change value item) {value : α}
    (holds : invariant value) (changed : Bool) :
    items.foldl step (value, changed) =
      (items.foldl change value, changed || decide (items.foldl change value ≠ value)) := by
  induction items generalizing value changed with
  | nil => simp
  | cons item items ih =>
      have here := steps item List.mem_cons_self
      have after : ∀ item ∈ items, Grows invariant weight fun value => change value item :=
        fun other member => steps other (List.mem_cons_of_mem _ member)
      have later := (foldl after).le (here.keeps value holds)
      rw [List.foldl_cons, List.foldl_cons, reports _ _ _ holds, ih after (here.keeps value holds),
        Bool.or_assoc, ← Bool.decide_or]
      refine congrArg (fun report => (_, changed || report)) (decide_eq_decide.mpr ?_)
      rcases here.grows value holds with same | more
      · simp only [same, ne_eq, not_true_eq_false, false_or]
      · refine ⟨fun _ back => ?_, fun _ => .inl fun same => ?_⟩
        · rw [back] at later
          omega
        · rw [same] at more
          omega

end Grows

/-- Repeats a change until it changes nothing, at most `limit` times. -/
def settleWith {α : Type} [DecidableEq α] (change : α → α) : Nat → α → α
  | 0, value => value
  | limit + 1, value =>
      let next := change value
      if next = value then value else settleWith change limit next

theorem settleWith_keeps {α : Type} [DecidableEq α] (invariant : α → Prop) {change : α → α}
    (keeps : ∀ value, invariant value → invariant (change value)) (limit : Nat) {value : α}
    (holds : invariant value) : invariant (settleWith change limit value) := by
  induction limit generalizing value with
  | zero => exact holds
  | succ limit ih =>
      unfold settleWith
      dsimp only
      split
      · exact holds
      · exact ih (keeps value holds)

/-- Enough repetitions reach a value that the change leaves alone. -/
theorem settleWith_fixed {α : Type} [DecidableEq α] {invariant : α → Prop} {weight : α → Nat}
    {change : α → α} (grown : Grows invariant weight change) {bound : Nat}
    (bounded : ∀ value, invariant value → weight value ≤ bound) (limit : Nat) {value : α}
    (holds : invariant value) (enough : bound < weight value + limit) :
    invariant (settleWith change limit value) ∧
      change (settleWith change limit value) = settleWith change limit value := by
  induction limit generalizing value with
  | zero =>
      have atMost := bounded value holds
      omega
  | succ limit hypothesis =>
      unfold settleWith
      dsimp only
      split
      case isTrue same => exact ⟨holds, same⟩
      case isFalse different =>
          have more := (grown.grows value holds).resolve_left different
          exact hypothesis (grown.keeps value holds) (by omega)

/-! ## Weights -/

namespace TokenSet

/-- The members of a set. -/
def members (set : TokenSet) : Finset Nat :=
  set.toList.toFinset

@[simp] theorem mem_members {set : TokenSet} {terminal : Nat} :
    terminal ∈ set.members ↔ set.contains terminal = true := by
  rw [members, List.mem_toFinset, mem_toList]

/-- The number of members. -/
def weight (set : TokenSet) : Nat :=
  set.members.card

/-- A set keeps no words in vain, and all its members are below a number. -/
structure Below (count : Nat) (set : TokenSet) : Prop where
  trimmed : set.Trimmed
  lt : ∀ terminal, set.contains terminal = true → terminal < count

theorem below_empty (count : Nat) : Below count empty :=
  ⟨trimmed_empty, by simp⟩

theorem Below.union {count : Nat} {left right : TokenSet} (leftBelow : Below count left)
    (rightBelow : Below count right) : Below count (left.union right) := by
  refine ⟨leftBelow.trimmed.union rightBelow.trimmed, fun terminal member => ?_⟩
  rw [contains_union, Bool.or_eq_true] at member
  exact member.elim (leftBelow.lt terminal) (rightBelow.lt terminal)

theorem below_single {count terminal : Nat} (lt : terminal < count) :
    Below count (empty.insert terminal) := by
  refine ⟨trimmed_empty.insert terminal, fun other member => ?_⟩
  have same : other = terminal := by simpa using member
  exact same ▸ lt

theorem Below.weight_le {count : Nat} {set : TokenSet} (below : Below count set) :
    set.weight ≤ count := by
  refine (Finset.card_le_card ?_).trans (Finset.card_range count).le
  intro terminal member
  exact Finset.mem_range.mpr (below.lt terminal (mem_members.mp member))

theorem union_grows (left : TokenSet) {right : TokenSet} (trimmed : right.Trimmed) :
    left.union right = left ∨ left.weight < (left.union right).weight := by
  by_cases within : right.members ⊆ left.members
  · exact .inl (union_eq_of_subset trimmed fun terminal member =>
      mem_members.mp (within (mem_members.mpr member)))
  · refine .inr (Finset.card_lt_card ⟨fun terminal member => ?_, fun back => within ?_⟩)
    · simp [mem_members.mp member]
    · intro terminal member
      exact back (mem_members.mpr (by simp [mem_members.mp member]))

/-- A union that adds nothing had all the members before. -/
theorem contains_of_union_eq {left right : TokenSet} (same : left.union right = left)
    {terminal : Nat} (member : right.contains terminal = true) :
    left.contains terminal = true := by
  rw [← same, contains_union, member, Bool.or_true]

end TokenSet

/-- The weight of several values. -/
def totalWeight {α : Type} (weight : α → Nat) (values : Array α) : Nat :=
  (values.toList.map weight).sum

theorem totalWeight_le {α : Type} {weight : α → Nat} {values : Array α} {bound : Nat}
    (bounded : ∀ value ∈ values, weight value ≤ bound) :
    totalWeight weight values ≤ values.size * bound := by
  have listed := List.sum_le_card_nsmul (values.toList.map weight) bound (by
    intro amount member
    obtain ⟨value, inside, rfl⟩ := List.mem_map.mp member
    exact bounded value (Array.mem_toList_iff.mp inside))
  simpa [totalWeight] using listed

/-- A change in one place leaves the whole alone or adds to its weight. -/
theorem modify_grows {α : Type} {weight : α → Nat} (values : Array α) (place : Nat)
    {change : α → α}
    (grown : ∀ value, values[place]? = some value →
      change value = value ∨ weight value < weight (change value)) :
    values.modify place change = values ∨
      totalWeight weight values < totalWeight weight (values.modify place change) := by
  obtain ⟨values⟩ := values
  simp only [totalWeight, List.modify_toArray, Array.mk.injEq, List.getElem?_toArray] at grown ⊢
  induction values generalizing place with
  | nil => exact .inl (by simp)
  | cons value values hypothesis =>
      cases place with
      | zero =>
          rcases grown value rfl with same | more
          · exact .inl (by simp [same])
          · exact .inr (by simp [more])
      | succ place =>
          rcases hypothesis place grown with same | more
          · exact .inl (by simpa using same)
          · exact .inr (by simpa using more)

/-- A change in one place leaves the whole alone exactly if it leaves the value there alone. -/
theorem modify_eq_iff {α : Type} {values : Array α} {place : Nat} {change : α → α} :
    values.modify place change = values ↔
      ∀ value, values[place]? = some value → change value = value := by
  constructor
  · intro same value found
    have changed : (values.modify place change)[place]? = some (change value) := by
      simp [Array.getElem?_modify, found]
    rw [same, found] at changed
    exact (Option.some.inj changed).symm
  · intro same
    refine Array.ext_getElem? fun index => ?_
    rw [Array.getElem?_modify]
    split
    case isFalse => rfl
    case isTrue here =>
        subst here
        cases found : values[place]? with
        | none => rfl
        | some value => exact congrArg some (same value found)

theorem modify_eq_set {α : Type} {values : Array α} {place : Nat} {change : α → α} {value : α}
    (found : values[place]? = some value) :
    values.modify place change = values.set! place (change value) := by
  refine Array.ext_getElem? fun index => ?_
  have inside := (Array.getElem?_eq_some_iff.mp found).1
  rw [Array.getElem?_modify, Array.set!_eq_setIfInBounds, Array.getElem?_setIfInBounds,
    if_pos inside]
  split
  case isFalse => rfl
  case isTrue here => rw [← here, found, Option.map_some]

end Lalr
