import Mathlib.Algebra.Order.BigOperators.Group.List
import Mathlib.Algebra.Order.Group.Nat
import Mathlib.Data.Finset.Card
import Mathlib.Data.Finset.Range
import Lalr.Proofs.Automaton.Path
import Lalr.Proofs.FlatGrammar.Derivation

set_option autoImplicit false

/-!
Reductions along the paths of the automaton. If no symbol derives itself alone, and none
derives itself behind symbols that stand for nothing, a path can be reduced only finitely
often, whatever the action table says. Symbols that stand for nothing are pushed only finitely
often in a row; and among paths that differ in such symbols the one is later that goes on
where the other ends, or has a covering symbol in the first place where they differ.
-/

namespace Lalr

open Relation

/-! ## Symbols above a symbol -/

open Classical in
/-- How many symbols below a bound are related to a symbol. -/
noncomputable def numberAbove (count : Nat) (relation : Nat → Nat → Prop) (symbol : Nat) : Nat :=
  ((Finset.range count).filter fun upper => relation upper symbol).card

theorem numberAbove_le (count : Nat) (relation : Nat → Nat → Prop) (symbol : Nat) :
    numberAbove count relation symbol ≤ count := by
  classical
  have fewer := Finset.card_filter_le (Finset.range count) fun upper => relation upper symbol
  rwa [Finset.card_range] at fewer

theorem numberAbove_lt {count : Nat} {relation : Nat → Nat → Prop}
    (trans : ∀ first second third, relation first second → relation second third →
      relation first third)
    (irrefl : ∀ symbol, ¬ relation symbol symbol) {upper lower : Nat} (bound : upper < count)
    (related : relation upper lower) :
    numberAbove count relation upper < numberAbove count relation lower := by
  classical
  refine Finset.card_lt_card (Finset.ssubset_iff_of_subset ?_ |>.mpr ⟨upper, ?_, ?_⟩)
  · intro other member
    obtain ⟨inside, above⟩ := Finset.mem_filter.mp member
    exact Finset.mem_filter.mpr ⟨inside, trans _ _ _ above related⟩
  · exact Finset.mem_filter.mpr ⟨Finset.mem_range.mpr bound, related⟩
  · intro member
    exact irrefl upper (Finset.mem_filter.mp member).2

namespace FlatGrammar

variable {grammar : FlatGrammar}

/-! ## Symbols that stand for nothing -/

/-- Symbols that may all stand for nothing. -/
def Nullable (grammar : FlatGrammar) (symbols : List Nat) : Prop :=
  grammar.Yields symbols []

theorem nullable_append {first second : List Nat} :
    grammar.Nullable (first ++ second) ↔ grammar.Nullable first ∧ grammar.Nullable second := by
  constructor
  · intro nullable
    obtain ⟨firstWord, secondWord, empty, left, right⟩ := Yields.split nullable
    obtain ⟨rfl, rfl⟩ := List.append_eq_nil_iff.mp empty.symm
    exact ⟨left, right⟩
  · rintro ⟨left, right⟩
    exact left.append right

theorem nullable_iff {symbols : List Nat} :
    grammar.Nullable symbols ↔ ∀ symbol ∈ symbols, grammar.Nullable [symbol] := by
  induction symbols with
  | nil => simpa [Nullable] using Yields.nil
  | cons symbol symbols ih =>
      rw [← List.singleton_append, nullable_append, ih]
      simp

theorem nullable_lhs {production : Production} (member : production ∈ grammar.productions)
    (nullable : grammar.Nullable production.rhs) : grammar.Nullable [production.lhs] := by
  have whole := Yields.production member nullable .nil
  rwa [List.append_nil] at whole

/-! ## Recursion -/

/-- A production of one symbol starts with another, and nothing need stand behind that. -/
def Covers (grammar : FlatGrammar) (upper lower : Nat) : Prop :=
  ∃ production ∈ grammar.productions, ∃ rest, production.lhs = upper ∧
    production.rhs = lower :: rest ∧ grammar.Nullable rest

/-- A production of one symbol has another behind given ones, which may all stand for
nothing. -/
def Leads (grammar : FlatGrammar) (before : List Nat) (upper lower : Nat) : Prop :=
  grammar.Nullable before ∧ ∃ production ∈ grammar.productions, ∃ rest,
    production.lhs = upper ∧ production.rhs = before ++ lower :: rest

/-- One symbol can start what another derives. -/
def StartsWith (grammar : FlatGrammar) : Nat → Nat → Prop :=
  ReflTransGen fun upper lower => ∃ before, grammar.Leads before upper lower

/-- One symbol can start what another derives, behind symbols that stand for nothing. -/
def Hides (grammar : FlatGrammar) (upper lower : Nat) : Prop :=
  ∃ before middle, before ≠ [] ∧ grammar.Leads before upper middle ∧
    grammar.StartsWith middle lower

/-- No symbol derives itself alone, and none derives itself behind symbols that stand for
nothing. -/
structure RecursionVisible (grammar : FlatGrammar) : Prop where
  noCycle : ∀ symbol, ¬ TransGen grammar.Covers symbol symbol
  notHidden : ∀ symbol, ¬ grammar.Hides symbol symbol

theorem Hides.trans {first second third : Nat} (left : grammar.Hides first second)
    (right : grammar.Hides second third) : grammar.Hides first third := by
  obtain ⟨before, middle, filled, leads, starts⟩ := left
  obtain ⟨behind, next, _, further, rest⟩ := right
  exact ⟨before, middle, filled, leads, (starts.tail ⟨behind, further⟩).trans rest⟩

theorem Hides.lt (numbered : grammar.WellNumbered) {upper lower : Nat}
    (hides : grammar.Hides upper lower) : upper < grammar.tableSymbolCount := by
  obtain ⟨_, _, _, ⟨_, production, member, _, rfl, _⟩, _⟩ := hides
  exact (numbered.lhs_range production member).2

theorem Covers.nullable {upper lower : Nat} (covers : grammar.Covers upper lower)
    (nullable : grammar.Nullable [lower]) : grammar.Nullable [upper] := by
  obtain ⟨production, member, rest, rfl, shape, stands⟩ := covers
  refine nullable_lhs member ?_
  rw [shape, ← List.singleton_append]
  exact nullable_append.mpr ⟨nullable, stands⟩

theorem Covers.lt (numbered : grammar.WellNumbered) {upper lower : Nat}
    (covers : grammar.Covers upper lower) : upper < grammar.tableSymbolCount := by
  obtain ⟨production, member, _, rfl, _⟩ := covers
  exact (numbered.lhs_range production member).2

/-- A symbol is covered only finitely often in a row. -/
theorem RecursionVisible.wellFounded_covers (visible : grammar.RecursionVisible)
    (numbered : grammar.WellNumbered) : WellFounded grammar.Covers := by
  refine Subrelation.wf ?_
    (measure (numberAbove grammar.tableSymbolCount (TransGen grammar.Covers))).wf
  intro upper lower covers
  exact numberAbove_lt (fun _ _ _ => TransGen.trans) visible.noCycle (covers.lt numbered)
    (.single covers)

theorem RecursionVisible.numberAbove_lt_of_hides (visible : grammar.RecursionVisible)
    (numbered : grammar.WellNumbered) {upper lower : Nat} (hides : grammar.Hides upper lower) :
    numberAbove grammar.tableSymbolCount grammar.Hides upper <
      numberAbove grammar.tableSymbolCount grammar.Hides lower :=
  @numberAbove_lt _ grammar.Hides (fun _ _ _ left right => left.trans right) visible.notHidden
    _ _ (hides.lt numbered) hides

/-! ## Paths over symbols that stand for nothing -/

/-- The symbols of some transitions stand for nothing. -/
def AllNullable (grammar : FlatGrammar) (path : List (Nat × Nat)) : Prop :=
  ∀ entry ∈ path, grammar.Nullable [entry.1]

theorem AllNullable.reverse {path : List (Nat × Nat)} (nullable : grammar.AllNullable path) :
    grammar.Nullable (path.map Prod.fst).reverse := by
  refine nullable_iff.mpr fun symbol member => ?_
  obtain ⟨entry, listed, rfl⟩ := List.mem_map.mp (List.mem_reverse.mp member)
  exact nullable entry listed

theorem exists_production_of_next {index dot symbol : Nat}
    (next : grammar.items.next? ⟨index, dot + 1⟩ = some symbol) :
    ∃ production, grammar.productions[index]? = some production ∧
      production.rhs[dot + 1]? = some symbol := by
  simp only [ItemGrammar.next?] at next
  rcases Nat.lt_trichotomy index grammar.productions.size with inside | start | beyond
  · have found := Array.getElem?_eq_getElem inside
    rw [items_symbols found] at next
    exact ⟨_, found, next⟩
  · rw [start, items_symbols_start] at next
    simp at next
  · rw [items_symbols_beyond beyond] at next
    simp at next

/-- A terminal is read by an item of a production. -/
theorem exists_production_of_terminal (numbered : grammar.WellNumbered) {item : Item}
    {symbol : Nat} (next : grammar.items.next? item = some symbol)
    (terminal : symbol < grammar.terminalCount) :
    ∃ production, grammar.productions[item.production]? = some production ∧
      production.rhs[item.dot]? = some symbol := by
  simp only [ItemGrammar.next?] at next
  rcases Nat.lt_trichotomy item.production grammar.productions.size with inside | start | beyond
  · have found := Array.getElem?_eq_getElem inside
    rw [items_symbols found] at next
    exact ⟨_, found, next⟩
  · rw [start, items_symbols_start] at next
    obtain rfl := List.mem_singleton.mp (List.mem_of_getElem? next)
    exact absurd numbered.start_range.1 (Nat.not_le.mpr terminal)
  · simp [items_symbols_beyond beyond] at next

/-- Where a production starts behind the first state, the dot of another one has moved, and
what it expects can start with the first one's left-hand side. -/
theorem exists_outer (numbered : grammar.WellNumbered) {place index : Nat}
    {production : Production} (inner : 0 < place)
    (found : grammar.productions[index]? = some production)
    (has : grammar.automaton.HasItem place ⟨index, 0⟩) :
    ∃ outer other dot expected, grammar.productions[outer]? = some other ∧
      other.rhs[dot + 1]? = some expected ∧
      grammar.automaton.HasItem place ⟨outer, dot + 1⟩ ∧
      grammar.StartsWith expected production.lhs := by
  obtain ⟨kernel, placed, member⟩ := (hasItem_iff numbered).mp has
  have moved := (explored_states numbered).later place kernel inner placed
  rcases (mem_closure numbered).mp member with inside | ⟨_, other, same, expects⟩
  · exact absurd (moved _ inside) (Nat.lt_irrefl 0)
  · obtain rfl := Option.some.inj (found.symm.trans same)
    generalize production.lhs = symbol at expects ⊢
    induction expects with
    | @direct item symbol listed next =>
        obtain ⟨outer, dot⟩ := item
        obtain ⟨dot, rfl⟩ := Nat.exists_eq_succ_of_ne_zero (Nat.ne_of_gt (moved _ listed))
        obtain ⟨other, known, expected⟩ :=
          exists_production_of_next (le_of_nextNonterminal? next).1
        exact ⟨outer, other, dot, symbol, known, expected, (hasItem_iff numbered).mpr
          ⟨kernel, placed, (mem_closure numbered).mpr (.inl listed)⟩, .refl⟩
    | lead outer listed ih =>
        obtain ⟨place, other, dot, expected, production, next, item, starts⟩ := ih
        obtain ⟨_, predicted, symbols, shape, _, _⟩ :=
          (mem_items_leads numbered (le_of_expects numbered outer)).mp listed
        obtain ⟨leading, known, lhs⟩ := mem_productionsOf.mp predicted
        rw [items_symbols known] at shape
        exact ⟨place, other, dot, expected, production, next, item, starts.tail
          ⟨[], .nil, leading, Array.mem_of_getElem? known, symbols, lhs, shape⟩⟩

theorem dot_le_of_hasItem (numbered : grammar.WellNumbered) {path : List (Nat × Nat)}
    (isPath : grammar.automaton.Path path) {index dot : Nat} {production : Production}
    (found : grammar.productions[index]? = some production)
    (has : grammar.automaton.HasItem (Automaton.pathEnd path) ⟨index, dot⟩) :
    dot ≤ production.rhs.length := by
  obtain ⟨enough, symbols, _⟩ := path_of_hasItem numbered isPath has
  have lengths := congrArg List.length symbols
  rw [items_symbols found] at lengths
  simp only [List.length_reverse, List.length_map, List.length_take] at lengths
  omega

theorem pathEnd_pos (numbered : grammar.WellNumbered) {path : List (Nat × Nat)}
    (isPath : grammar.automaton.Path path) (filled : path ≠ []) :
    0 < Automaton.pathEnd path := by
  cases isPath with
  | start => exact absurd rfl filled
  | @step path symbol target _ edge =>
      refine Nat.pos_of_ne_zero fun (zero : target = 0) => ?_
      exact not_edge_zero numbered (zero ▸ edge)

/-- A production that starts below symbols that stand for nothing is hidden by one whose dot
stands behind some of them. -/
theorem hides_of_hasItem (numbered : grammar.WellNumbered) {tail below : List (Nat × Nat)}
    (isPath : grammar.automaton.Path (tail ++ below)) (nullable : grammar.AllNullable tail)
    {outer dot expected symbol : Nat} {other : Production} (inside : dot + 1 ≤ tail.length)
    (known : grammar.productions[outer]? = some other)
    (next : other.rhs[dot + 1]? = some expected)
    (has : grammar.automaton.HasItem (Automaton.pathEnd (tail ++ below)) ⟨outer, dot + 1⟩)
    (starts : grammar.StartsWith expected symbol) : grammar.Hides other.lhs symbol := by
  obtain ⟨_, symbols, _⟩ := path_of_hasItem numbered isPath has
  rw [items_symbols known, List.take_append_of_le_length inside] at symbols
  obtain ⟨bound, rfl⟩ := List.getElem?_eq_some_iff.mp next
  have taken : grammar.AllNullable (tail.take (dot + 1)) :=
    fun entry member => nullable entry (List.mem_of_mem_take member)
  have before := taken.reverse
  rw [symbols] at before
  refine ⟨other.rhs.take (dot + 1), _, ?_, ⟨before, other, Array.mem_of_getElem? known,
    other.rhs.drop (dot + 2), rfl, ?_⟩, starts⟩
  · intro empty
    have length := congrArg List.length empty
    simp only [List.length_take, List.length_nil] at length
    omega
  · rw [List.getElem_cons_drop, List.take_append_drop]

/-- An item with its dot behind some of the symbols on top, which stand for nothing, tells
that they are few: below them another production starts behind more of these symbols, and its
left-hand side hides that of the first one. -/
theorem length_le_of_hasItem (numbered : grammar.WellNumbered)
    (visible : grammar.RecursionVisible) {longest : Nat}
    (short : ∀ production ∈ grammar.productions, production.rhs.length ≤ longest)
    {tail below : List (Nat × Nat)} (isPath : grammar.automaton.Path (tail ++ below))
    (nullable : grammar.AllNullable tail) {index dot : Nat} {production : Production}
    (found : grammar.productions[index]? = some production)
    (has : grammar.automaton.HasItem (Automaton.pathEnd (tail ++ below)) ⟨index, dot + 1⟩) :
    tail.length ≤ longest *
      (numberAbove grammar.tableSymbolCount grammar.Hides production.lhs + 2) := by
  induction size : tail.length using Nat.strongRecOn generalizing tail index dot production with
  | ind size ih =>
      subst size
      -- the symbols before the dot are on top, the production starts in the state below them
      have dotLe := Nat.le_trans (dot_le_of_hasItem numbered isPath found has)
        (short production (Array.mem_of_getElem? found))
      obtain ⟨_, _, start⟩ := path_of_hasItem numbered isPath has
      by_cases within : tail.length ≤ dot + 1
      · exact Nat.le_trans (Nat.le_trans within dotLe) (Nat.le_mul_of_pos_right _ (by omega))
      · have split : (tail ++ below).drop (dot + 1) = tail.drop (dot + 1) ++ below :=
          List.drop_append_of_le_length (by omega)
        have restPath := isPath.drop (dot + 1)
        rw [split] at start restPath
        have restNullable : grammar.AllNullable (tail.drop (dot + 1)) :=
          fun entry member => nullable entry (List.mem_of_mem_drop member)
        have filled : tail.drop (dot + 1) ++ below ≠ [] := by
          simp only [ne_eq, List.append_eq_nil_iff, List.drop_eq_nil_iff]
          omega
        obtain ⟨outer, other, outerDot, expected, known, next, outerHas, starts⟩ :=
          exists_outer numbered (pathEnd_pos numbered restPath filled) found start
        have member := Array.mem_of_getElem? known
        have outerLe := Nat.le_trans (dot_le_of_hasItem numbered restPath known outerHas)
          (short other member)
        by_cases inside : outerDot + 1 ≤ (tail.drop (dot + 1)).length
        · have hides : grammar.Hides other.lhs production.lhs :=
            hides_of_hasItem numbered restPath restNullable inside known next outerHas starts
          have fewer := ih _ (by simp only [List.length_drop]; omega) restPath restNullable
            known outerHas rfl
          have above := visible.numberAbove_lt_of_hides numbered hides
          calc tail.length ≤ longest + (tail.drop (dot + 1)).length := by
                rw [List.length_drop]
                omega
            _ ≤ longest + longest *
                  (numberAbove grammar.tableSymbolCount grammar.Hides other.lhs + 2) :=
                Nat.add_le_add_left fewer _
            _ = longest *
                  (numberAbove grammar.tableSymbolCount grammar.Hides other.lhs + 2 + 1) :=
                (Nat.add_comm _ _).trans (Nat.mul_succ _ _).symm
            _ ≤ _ := Nat.mul_le_mul_left _ (by omega)
        · calc tail.length ≤ longest * 2 := by
                rw [List.length_drop] at inside
                omega
            _ ≤ _ := Nat.mul_le_mul_left _ (by omega)

theorem exists_hasItem_of_edge (numbered : grammar.WellNumbered) {source symbol target : Nat}
    (edge : grammar.automaton.Edge source symbol target) :
    ∃ index dot, grammar.automaton.HasItem target ⟨index, dot + 1⟩ := by
  obtain ⟨kernel, next, _, listed, placed⟩ := (edge_iff numbered).mp edge
  obtain ⟨⟨⟨index, dot⟩, member, reads⟩, rfl⟩ := ItemGrammar.mem_successors.mp listed
  refine ⟨index, dot, (hasItem_iff numbered).mpr ⟨_, placed, (mem_closure numbered).mpr (.inl ?_)⟩⟩
  exact List.mem_map.mpr ⟨⟨index, dot⟩, List.mem_filter.mpr ⟨member, by simp [reads]⟩, rfl⟩

/-- Without hidden recursion only so many symbols that stand for nothing follow one another
on a path. -/
theorem exists_bound_of_nullable (numbered : grammar.WellNumbered)
    (visible : grammar.RecursionVisible) :
    ∃ bound, ∀ tail below : List (Nat × Nat), grammar.automaton.Path (tail ++ below) →
      grammar.AllNullable tail → tail.length ≤ bound := by
  obtain ⟨longest, short⟩ : ∃ longest, ∀ production ∈ grammar.productions,
      production.rhs.length ≤ longest := by
    refine ⟨(grammar.productions.toList.map fun production => production.rhs.length).sum, ?_⟩
    intro production member
    exact List.single_le_sum (by simp) _ (List.mem_map_of_mem (Array.mem_toList_iff.mpr member))
  refine ⟨longest * (grammar.tableSymbolCount + 2) + 1, fun tail below isPath nullable => ?_⟩
  cases tail with
  | nil => exact Nat.zero_le _
  | cons entry tail =>
      obtain ⟨symbol, target⟩ := entry
      have whole := isPath
      cases isPath with
      | step before edge =>
          obtain ⟨index, dot, has⟩ := exists_hasItem_of_edge numbered edge
          rcases Nat.lt_trichotomy index grammar.productions.size with inside | start | beyond
          · have few := length_le_of_hasItem numbered visible short whole nullable
              (Array.getElem?_eq_getElem inside) has
            refine Nat.le_succ_of_le (Nat.le_trans few (Nat.mul_le_mul_left _ ?_))
            exact Nat.add_le_add_right (numberAbove_le _ _ _) 2
          · -- the start symbol has been read and is the only one on the path
            obtain ⟨enough, symbols, _⟩ := path_of_hasItem numbered whole has
            rw [start, items_symbols_start] at symbols
            have lengths := congrArg List.length symbols
            simp only [List.length_reverse, List.length_map, List.length_take,
              Nat.min_eq_left enough, List.length_singleton] at lengths
            obtain rfl : dot = 0 := by omega
            obtain ⟨_, alone⟩ := path_of_accept numbered whole (start ▸ has)
            obtain ⟨rfl, _⟩ := List.append_eq_nil_iff.mp (List.cons.inj alone).2
            exact Nat.succ_le_succ (Nat.zero_le _)
          · obtain ⟨_, symbols, _⟩ := path_of_hasItem numbered whole has
            rw [items_symbols_beyond beyond] at symbols
            simp at symbols

/-! ## Reductions -/

/-- A path goes on over a symbol that stands for nothing. -/
def Extends (grammar : FlatGrammar) (after before : List (Nat × Nat)) : Prop :=
  ∃ symbol target, after = (symbol, target) :: before ∧ grammar.Nullable [symbol] ∧
    grammar.automaton.Path after

theorem acc_extends (numbered : grammar.WellNumbered) (visible : grammar.RecursionVisible)
    (path : List (Nat × Nat)) : Acc grammar.Extends path := by
  obtain ⟨bound, short⟩ := exists_bound_of_nullable numbered visible
  suffices acc : ∀ room tail, grammar.AllNullable tail → bound < tail.length + room →
      Acc grammar.Extends (tail ++ path) from acc (bound + 1) [] nofun (by simp)
  intro room
  induction room with
  | zero =>
      intro tail nullable full
      refine .intro _ ?_
      rintro after ⟨symbol, target, rfl, stands, isPath⟩
      have shorter := short tail path (isPath.drop 1) nullable
      omega
  | succ room ih =>
      intro tail nullable full
      refine .intro _ ?_
      rintro after ⟨symbol, target, rfl, stands, isPath⟩
      refine ih ((symbol, target) :: tail) ?_ (by simp only [List.length_cons]; omega)
      intro entry member
      rcases List.mem_cons.mp member with rfl | old
      · exact stands
      · exact nullable entry old

/-- A path is reduced: the symbols of a production are taken off, and its left-hand side is
read instead. -/
def ReducesOver (grammar : FlatGrammar) (before after : List (Nat × Nat)) : Prop :=
  ∃ production ∈ grammar.productions, ∃ taken below target, before = taken ++ below ∧
    (taken.map Prod.fst).reverse = production.rhs ∧
    after = (production.lhs, target) :: below ∧ grammar.automaton.Path after

/-- A path can be reduced only finitely often. -/
def Settles (grammar : FlatGrammar) (path : List (Nat × Nat)) : Prop :=
  Acc (fun after before => grammar.ReducesOver before after) path

/-- Reductions from a path, with symbols on top that stand for nothing, that leave no more
than so many transitions lead to paths that settle. -/
def SettlesBelow (grammar : FlatGrammar) (limit : Nat) (path : List (Nat × Nat)) : Prop :=
  ∀ tail after, grammar.AllNullable tail → grammar.ReducesOver (tail ++ path) after →
    after.length ≤ limit → grammar.Settles after

/-- A reduction that leaves one transition in place of the first of a path replaces its symbol
by one that covers it. -/
theorem SettlesBelow.succ {symbol target : Nat} {path : List (Nat × Nat)}
    (lower : grammar.SettlesBelow path.length ((symbol, target) :: path))
    (covering : ∀ upper next, grammar.Covers upper symbol →
      grammar.automaton.Path ((upper, next) :: path) → grammar.Settles ((upper, next) :: path)) :
    grammar.SettlesBelow (path.length + 1) ((symbol, target) :: path) := by
  intro tail after nullable reduces short
  by_cases deep : after.length ≤ path.length
  · exact lower tail after nullable reduces deep
  · obtain ⟨production, member, taken, below, next, split, symbols, rfl, isPath⟩ := reduces
    simp only [List.length_cons] at short deep
    have same : (tail ++ [(symbol, target)]) ++ path = taken ++ below := by
      rw [List.append_assoc]
      exact split
    obtain ⟨rfl, rfl⟩ := List.append_inj' same (by omega)
    refine covering _ next ⟨production, member, (tail.map Prod.fst).reverse, rfl, ?_,
      nullable.reverse⟩ isPath
    rw [← symbols]
    simp

/-- A path settles if what is below it does, and what goes on from it over a symbol that
stands for nothing. -/
theorem SettlesBelow.settles {path : List (Nat × Nat)}
    (lower : grammar.SettlesBelow path.length path)
    (beyond : ∀ symbol target, grammar.Nullable [symbol] →
      grammar.automaton.Path ((symbol, target) :: path) →
        grammar.Settles ((symbol, target) :: path)) : grammar.Settles path := by
  refine .intro _ fun after reduces => ?_
  by_cases short : after.length ≤ path.length
  · exact lower [] after nofun reduces short
  · obtain ⟨production, member, taken, below, target, rfl, symbols, rfl, isPath⟩ := reduces
    simp only [List.length_cons, List.length_append] at short
    obtain rfl := List.length_eq_zero_iff.mp (show taken.length = 0 by omega)
    refine beyond production.lhs target (nullable_lhs member ?_) isPath
    rw [← symbols]
    exact .nil

theorem settles_of_nullable (numbered : grammar.WellNumbered)
    (visible : grammar.RecursionVisible) {path : List (Nat × Nat)}
    (lower : grammar.SettlesBelow path.length path) (symbol target : Nat)
    (nullable : grammar.Nullable [symbol])
    (isPath : grammar.automaton.Path ((symbol, target) :: path)) :
    grammar.Settles ((symbol, target) :: path) := by
  -- the paths that go on come first, then the symbols that cover the one on top
  induction acc_extends numbered visible path generalizing symbol target with
  | intro path _ beyond =>
      induction symbol using (visible.wellFounded_covers numbered).induction
        generalizing target with
      | h symbol covering =>
          have here : grammar.SettlesBelow path.length ((symbol, target) :: path) := by
            intro tail after stands reduces short
            refine lower (tail ++ [(symbol, target)]) after ?_ ?_ short
            · intro entry member
              rcases List.mem_append.mp member with early | last
              · exact stands entry early
              · obtain rfl := List.mem_singleton.mp last
                exact nullable
            · rwa [List.append_assoc]
          have above := here.succ fun upper next covers isPath =>
            covering upper covers next (covers.nullable nullable) isPath
          exact SettlesBelow.settles above fun other next stands further =>
            beyond _ ⟨symbol, target, rfl, nullable, isPath⟩ above other next stands further

/-- Where recursion is visible, every path can be reduced only finitely often. -/
theorem settles_of_path (numbered : grammar.WellNumbered) (visible : grammar.RecursionVisible)
    {path : List (Nat × Nat)} (isPath : grammar.automaton.Path path) : grammar.Settles path := by
  induction size : path.length using Nat.strongRecOn generalizing path with
  | ind size ih =>
      subst size
      cases path with
      | nil =>
          have nothing : grammar.SettlesBelow 0 [] := by
            rintro tail after _ ⟨_, _, _, _, _, _, _, rfl, _⟩ short
            exact absurd short (by simp)
          exact SettlesBelow.settles nothing (settles_of_nullable numbered visible nothing)
      | cons entry path =>
          obtain ⟨symbol, target⟩ := entry
          -- what leaves fewer transitions settles by induction, what replaces the symbol on
          -- top replaces it by one that covers it
          have lower : ∀ symbol target,
              grammar.SettlesBelow path.length ((symbol, target) :: path) := by
            rintro symbol target tail after _ reduces short
            obtain ⟨_, _, _, _, _, _, _, _, reduced⟩ := id reduces
            exact ih _ (Nat.lt_succ_of_le short) reduced rfl
          induction symbol using (visible.wellFounded_covers numbered).induction
            generalizing target with
          | h symbol covering =>
              have above := (lower symbol target).succ fun upper next covers isPath =>
                covering upper covers next isPath ih
              exact SettlesBelow.settles above (settles_of_nullable numbered visible above)

end FlatGrammar

end Lalr
