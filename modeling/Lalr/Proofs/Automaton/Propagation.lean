import Mathlib.Algebra.BigOperators.Ring.List
import Lalr.Proofs.Automaton.Lookahead

set_option autoImplicit false

/-!
Lookaheads of the whole automaton. The kernels settle on lookaheads that no transition adds
to, so an item has in each state every terminal that the state before it hands on.
-/

namespace Lalr

/-! ## Lookaheads of one kernel -/

/-- The weight of the lookaheads of a kernel. -/
def kernelWeight (sets : List TokenSet) : Nat :=
  (sets.map TokenSet.weight).sum

theorem zipWith_union_grows {known handed : List TokenSet}
    (lengths : known.length = handed.length) (trimmed : ∀ set ∈ handed, set.Trimmed) :
    known.zipWith TokenSet.union handed = known ∨
      kernelWeight known < kernelWeight (known.zipWith TokenSet.union handed) := by
  induction known generalizing handed with
  | nil => exact .inl rfl
  | cons first known hypothesis =>
      cases handed with
      | nil => cases lengths
      | cons more handed =>
          simp only [List.length_cons, Nat.add_right_cancel_iff] at lengths
          simp only [kernelWeight, List.zipWith_cons_cons, List.map_cons, List.sum_cons,
            List.cons.injEq] at *
          have later := hypothesis lengths fun set member =>
            trimmed set (List.mem_cons_of_mem _ member)
          rcases first.union_grows (trimmed more List.mem_cons_self) with same | heavier <;>
            rcases later with rest | laterHeavier
          · exact .inl ⟨same, rest⟩
          · exact .inr (by rw [same]; omega)
          · exact .inr (by rw [rest]; omega)
          · exact .inr (by omega)

/-- Where nothing is added, all that is handed on was known. -/
theorem contains_of_zipWith_union_eq {known handed : List TokenSet}
    (same : known.zipWith TokenSet.union handed = known) {index : Nat} {set more : TokenSet}
    (knownAt : known[index]? = some set) (handedAt : handed[index]? = some more)
    {terminal : Nat} (member : more.contains terminal = true) :
    set.contains terminal = true := by
  have union : (known.zipWith TokenSet.union handed)[index]? = some (set.union more) := by
    simp [List.getElem?_zipWith, knownAt, handedAt]
  rw [same, knownAt] at union
  exact TokenSet.contains_of_union_eq (Option.some.inj union).symm member

namespace FlatGrammar

variable {grammar : FlatGrammar}

/-! ## The invariant -/

/-- Lookaheads for the items of one kernel, of terminals only. Items of the start production
can only be followed by the end of the input. -/
structure KernelFits (grammar : FlatGrammar) (state : ItemState) (sets : List TokenSet) :
    Prop where
  length : sets.length = state.kernel.length
  below : ∀ set ∈ sets, set.Below grammar.terminalCount
  final : ∀ item set, (item, set) ∈ state.kernel.zip sets →
    item.production = grammar.productions.size →
      ∀ terminal, set.contains terminal = true → terminal = endSymbol.toNat

/-- Lookaheads for all kernels; the first state starts with the end of the input. -/
structure KernelsFit (grammar : FlatGrammar) (lookaheads : KernelLookaheads) : Prop where
  size : lookaheads.size = grammar.items.states.size
  each : ∀ (place : Nat) state, grammar.items.states[place]? = some state →
    grammar.KernelFits state (lookaheads.getD place [])
  start : ∀ set ∈ lookaheads.getD 0 [], set.contains endSymbol.toNat = true

theorem mem_zip_zipWith {kernel : List Item} {known handed : List TokenSet} {item : Item}
    {set : TokenSet} (member : (item, set) ∈ kernel.zip (known.zipWith TokenSet.union handed)) :
    ∃ left right, (item, left) ∈ kernel.zip known ∧ (item, right) ∈ kernel.zip handed ∧
      set = left.union right := by
  obtain ⟨index, bound, same⟩ := List.getElem_of_mem member
  simp only [List.length_zip, List.length_zipWith] at bound
  simp only [List.getElem_zip, List.getElem_zipWith, Prod.mk.injEq] at same
  obtain ⟨rfl, rfl⟩ := same
  exact ⟨known[index], handed[index],
    List.mem_iff_getElem.mpr ⟨index, by simp; omega, List.getElem_zip⟩,
    List.mem_iff_getElem.mpr ⟨index, by simp; omega, List.getElem_zip⟩, rfl⟩

theorem mem_zip_map {kernel : List Item} {sets : Item → TokenSet} {item : Item} {set : TokenSet}
    (member : (item, set) ∈ kernel.zip (kernel.map sets)) : item ∈ kernel ∧ set = sets item := by
  obtain ⟨index, bound, same⟩ := List.getElem_of_mem member
  simp only [List.getElem_zip, List.getElem_map, Prod.mk.injEq] at same
  obtain ⟨rfl, rfl⟩ := same
  exact ⟨List.getElem_mem _, rfl⟩

theorem KernelFits.union {state : ItemState} {known handed : List TokenSet}
    (knownFits : grammar.KernelFits state known) (handedFits : grammar.KernelFits state handed) :
    grammar.KernelFits state (known.zipWith TokenSet.union handed) := by
  refine ⟨by simp [knownFits.length, handedFits.length], fun set member => ?_,
    fun item set member start terminal contains => ?_⟩
  · obtain ⟨index, short, rfl⟩ := List.getElem_of_mem member
    rw [List.getElem_zipWith]
    exact (knownFits.below _ (List.getElem_mem _)).union (handedFits.below _ (List.getElem_mem _))
  · obtain ⟨left, right, leftMember, rightMember, rfl⟩ := mem_zip_zipWith member
    rw [TokenSet.contains_union, Bool.or_eq_true] at contains
    exact contains.elim (knownFits.final item left leftMember start terminal)
      (handedFits.final item right rightMember start terminal)

namespace KernelsFit

variable {lookaheads : KernelLookaheads}

theorem found_at (fits : grammar.KernelsFit lookaheads) {place : Nat} {state : ItemState}
    (found : grammar.items.states[place]? = some state) :
    lookaheads[place]? = some (lookaheads.getD place []) := by
  have bound := (Array.getElem?_eq_some_iff.mp found).1
  rw [← fits.size] at bound
  simp [bound]

theorem weight_le (fits : grammar.KernelsFit lookaheads) :
    totalWeight kernelWeight lookaheads ≤
      (grammar.items.states.toList.flatMap ItemState.kernel).length * grammar.terminalCount := by
  have at_place : ∀ (place : Nat) (bound : place < lookaheads.size),
      ∃ state, grammar.items.states[place]? = some state ∧
        grammar.KernelFits state lookaheads[place] := by
    intro place bound
    have inside : place < grammar.items.states.size := fits.size ▸ bound
    have here := fits.each place _ (Array.getElem?_eq_getElem inside)
    simp only [Array.getD_eq_getD_getElem?, Array.getElem?_eq_getElem bound,
      Option.getD_some] at here
    exact ⟨_, Array.getElem?_eq_getElem inside, here⟩
  have light : ∀ sets ∈ lookaheads.toList,
      kernelWeight sets ≤ sets.length * grammar.terminalCount := by
    intro sets member
    obtain ⟨place, bound, rfl⟩ := Array.getElem_of_mem (Array.mem_toList_iff.mp member)
    obtain ⟨state, _, here⟩ := at_place place bound
    have sum := List.sum_le_card_nsmul (lookaheads[place].map TokenSet.weight)
      grammar.terminalCount (by
        intro weight listed
        obtain ⟨set, inside, rfl⟩ := List.mem_map.mp listed
        exact (here.below set inside).weight_le)
    simpa [kernelWeight] using sum
  have lengths : lookaheads.toList.map List.length =
      grammar.items.states.toList.map fun state => state.kernel.length := by
    refine List.ext_getElem (by simp [fits.size]) fun place left right => ?_
    obtain ⟨state, found, here⟩ := at_place place (by simpa using left)
    obtain ⟨inside, rfl⟩ := Array.getElem?_eq_some_iff.mp found
    simp [here.length]
  calc totalWeight kernelWeight lookaheads
      ≤ (lookaheads.toList.map fun sets => sets.length * grammar.terminalCount).sum :=
        List.sum_le_sum light
    _ = (lookaheads.toList.map List.length).sum * grammar.terminalCount := by
        rw [← List.sum_map_mul_right]
    _ = (grammar.items.states.toList.flatMap ItemState.kernel).length *
          grammar.terminalCount := by
        rw [lengths, List.length_flatMap]

/-- What is handed on to a state changes nothing elsewhere. -/
theorem getD_modify (fits : grammar.KernelsFit lookaheads) {target : Nat} {next : ItemState}
    (found : grammar.items.states[target]? = some next) (handed : List TokenSet) (place : Nat) :
    (lookaheads.modify target fun known => known.zipWith TokenSet.union handed).getD place [] =
      if target = place then (lookaheads.getD target []).zipWith TokenSet.union handed
      else lookaheads.getD place [] := by
  simp only [Array.getD_eq_getD_getElem?, Array.getElem?_modify]
  split
  case isTrue same =>
      subst same
      rw [fits.found_at found]
      simp
  case isFalse => rfl

/-- What is handed on to a state keeps the invariant. -/
theorem modify (fits : grammar.KernelsFit lookaheads) {target : Nat} {next : ItemState}
    (found : grammar.items.states[target]? = some next) {handed : List TokenSet}
    (handedFits : grammar.KernelFits next handed) :
    grammar.KernelsFit
      (lookaheads.modify target fun known => known.zipWith TokenSet.union handed) := by
  have known := fits.each target next found
  refine ⟨by simpa using fits.size, fun place state placed => ?_, fun set member => ?_⟩
  · rw [fits.getD_modify found]
    split
    case isTrue same =>
        subst same
        obtain rfl := Option.some.inj (found.symm.trans placed)
        exact known.union handedFits
    case isFalse => exact fits.each place state placed
  · rw [fits.getD_modify found] at member
    split at member
    case isTrue same =>
        subst same
        obtain ⟨index, short, rfl⟩ := List.getElem_of_mem member
        rw [List.getElem_zipWith, TokenSet.contains_union, fits.start _ (List.getElem_mem _),
          Bool.true_or]
    case isFalse => exact fits.start set member

end KernelsFit

/-! ## Propagation -/

/-- What a state hands on to the kernel of a successor. -/
def handed (grammar : FlatGrammar) (state : ItemState) (kernel : List TokenSet)
    (next : ItemState) : List TokenSet :=
  next.kernel.map fun item => grammar.items.lookaheadOf state kernel
    (grammar.items.predictedLookaheads state kernel) ⟨item.production, item.dot - 1⟩

theorem lookaheadOf_below (numbered : grammar.WellNumbered) {state : ItemState}
    {kernel : List TokenSet} (predicted : state.predicted = grammar.items.predicted state.kernel)
    (below : ∀ set ∈ kernel, set.Below grammar.terminalCount) (item : Item) :
    (grammar.items.lookaheadOf state kernel (grammar.items.predictedLookaheads state kernel)
      item).Below grammar.terminalCount := by
  have settled := (predictedLookaheads_spec numbered predicted below).1
  unfold ItemGrammar.lookaheadOf
  split
  case h_1 set found =>
      obtain ⟨before, after, split, _⟩ := List.lookup_eq_some_iff.mp found
      have paired : (item, set) ∈ state.kernel.zip kernel := by simp [split]
      exact below set (List.of_mem_zip paired).2
  case h_2 =>
      split
      · exact settled _
      · exact TokenSet.below_empty _

/-- The start production is in no closure but that of a kernel that has it. -/
theorem mem_kernel_of_start (numbered : grammar.WellNumbered) {kernel : List Item} {item : Item}
    (member : item ∈ grammar.items.closure kernel)
    (start : item.production = grammar.productions.size) : item ∈ kernel := by
  rcases (mem_closure numbered).mp member with inside | ⟨_, production, found, _⟩
  · exact inside
  · have bound := (Array.getElem?_eq_some_iff.mp found).1
    omega

/-- What is handed on fits the successor. -/
theorem handed_fits (numbered : grammar.WellNumbered) {index symbol target : Nat}
    {state next : ItemState} (found : grammar.items.states[index]? = some state)
    (listed : (symbol, target) ∈ state.transitions)
    (reached : grammar.items.states[target]? = some next) {kernel : List TokenSet}
    (fits : grammar.KernelFits state kernel) :
    grammar.KernelFits next (grammar.handed state kernel next) := by
  have explored := explored_states numbered
  have bound := (Array.getElem?_eq_some_iff.mp found).1
  have completed := explored.completed index state bound found
  have isKernel := explored.kernels index _ (kernelAt_eq_some_iff.mpr ⟨state, found, rfl⟩)
  refine ⟨by simp [handed], fun set member => ?_,
    fun item set member start terminal contains => ?_⟩
  · obtain ⟨item, _, rfl⟩ := List.mem_map.mp member
    exact lookaheadOf_below numbered completed.predicted fits.below _
  · obtain ⟨successor, succeeds, placed⟩ := completed.exists_successor listed
    obtain ⟨again, same, rfl⟩ := kernelAt_eq_some_iff.mp placed
    obtain rfl := Option.some.inj (reached.symm.trans same)
    obtain ⟨_, shape⟩ := ItemGrammar.mem_successors.mp succeeds
    obtain ⟨inside, rfl⟩ := mem_zip_map member
    rw [shape] at inside
    obtain ⟨before, filtered, rfl⟩ := List.mem_map.mp inside
    have origin := mem_kernel_of_start numbered (List.mem_filter.mp filtered).1 start
    obtain ⟨lookahead, paired⟩ := exists_mem_zip fits.length origin
    simp only [Item.advance, Nat.add_sub_cancel] at contains
    rw [lookaheadOf_kernel isKernel fits.length paired] at contains
    exact fits.final before lookahead paired start terminal contains

theorem handOn_grows (numbered : grammar.WellNumbered) {index : Nat} {state : ItemState}
    (found : grammar.items.states[index]? = some state) {kernel : List TokenSet}
    (fits : grammar.KernelFits state kernel) :
    ∀ transition ∈ state.transitions,
      Grows grammar.KernelsFit (totalWeight kernelWeight) fun lookaheads =>
        match grammar.items.states[transition.2]? with
        | none => lookaheads
        | some next => lookaheads.modify transition.2 fun known =>
            known.zipWith TokenSet.union (grammar.handed state kernel next) := by
  rintro ⟨symbol, target⟩ listed
  cases reached : grammar.items.states[target]? with
  | none => exact .id
  | some next =>
      have handedFits := handed_fits numbered found listed reached fits
      refine ⟨fun lookaheads all => all.modify reached handedFits, fun lookaheads all => ?_⟩
      refine modify_grows _ _ fun known placed => zipWith_union_grows ?_ fun set member =>
        (handedFits.below set member).trimmed
      obtain rfl := Option.some.inj ((all.found_at reached).symm.trans placed)
      rw [(all.each target next reached).length, handedFits.length]

theorem propagate_eq {index : Nat} {state : ItemState}
    (found : grammar.items.states[index]? = some state) (lookaheads : KernelLookaheads) :
    grammar.items.propagate grammar.items.states lookaheads index =
      state.transitions.foldl (fun others transition =>
        match grammar.items.states[transition.2]? with
        | none => others
        | some next => others.modify transition.2 fun known =>
            known.zipWith TokenSet.union
              (grammar.handed state (lookaheads.getD index []) next)) lookaheads := by
  simp only [ItemGrammar.propagate, found]
  rfl

/-- Handing the lookaheads of a state on loses nothing. -/
theorem propagate_grows (numbered : grammar.WellNumbered) (index : Nat) :
    Grows grammar.KernelsFit (totalWeight kernelWeight) fun lookaheads =>
      grammar.items.propagate grammar.items.states lookaheads index := by
  cases found : grammar.items.states[index]? with
  | none =>
      refine ⟨fun lookaheads fits => ?_, fun lookaheads _ => .inl ?_⟩
      · simpa [ItemGrammar.propagate, found] using fits
      · simp [ItemGrammar.propagate, found]
  | some state =>
      have rounds := fun lookaheads (fits : grammar.KernelsFit lookaheads) =>
        Grows.foldl (handOn_grows numbered found (fits.each index state found))
      refine ⟨fun lookaheads fits => ?_, fun lookaheads fits => ?_⟩
      · rw [propagate_eq found]
        exact (rounds lookaheads fits).keeps lookaheads fits
      · rw [propagate_eq found]
        exact (rounds lookaheads fits).grows lookaheads fits

theorem settleLookaheads_eq (limit : Nat) (lookaheads : KernelLookaheads) :
    grammar.items.settleLookaheads grammar.items.states limit lookaheads =
      settleWith (fun lookaheads => (List.range grammar.items.states.size).foldl
        (grammar.items.propagate grammar.items.states) lookaheads) limit lookaheads := by
  induction limit generalizing lookaheads with
  | zero => rfl
  | succ limit hypothesis => simp only [ItemGrammar.settleLookaheads, settleWith, hypothesis]

/-- The lookaheads before any is handed on: the end of the input, in the first state. -/
def startLookaheads (grammar : FlatGrammar) : KernelLookaheads :=
  (grammar.items.states.map fun state => state.kernel.map fun _ => TokenSet.empty).modify 0
    fun known => known.map fun _ => TokenSet.empty.insert endSymbol.toNat

theorem startLookaheads_at {place : Nat} {state : ItemState}
    (found : grammar.items.states[place]? = some state) :
    ∃ set : TokenSet, set.Trimmed ∧
      (∀ terminal, set.contains terminal = true ↔
        place = 0 ∧ terminal = endSymbol.toNat) ∧
      grammar.startLookaheads.getD place [] = state.kernel.map fun _ => set := by
  simp only [startLookaheads, Array.getD_eq_getD_getElem?, Array.getElem?_modify,
    Array.getElem?_map, found, Option.map_some]
  cases place with
  | zero =>
      exact ⟨TokenSet.empty.insert endSymbol.toNat, TokenSet.trimmed_empty.insert _, by simp,
        by simp⟩
  | succ place => exact ⟨TokenSet.empty, TokenSet.trimmed_empty, by simp, by simp⟩

theorem kernelsFit_start (numbered : grammar.WellNumbered) :
    grammar.KernelsFit grammar.startLookaheads := by
  refine ⟨by simp [startLookaheads], fun place state found => ?_, fun set member => ?_⟩
  · obtain ⟨set, trimmed, only, same⟩ := startLookaheads_at found
    rw [same]
    refine ⟨by simp, fun other member => ?_, fun item other member _ => ?_⟩
    · obtain ⟨_, _, rfl⟩ := List.mem_map.mp member
      refine ⟨trimmed, fun terminal contains => ?_⟩
      rw [((only terminal).mp contains).2]
      exact numbered.terminals_pos
    · obtain ⟨_, _, rfl⟩ := List.mem_map.mp (List.of_mem_zip member).2
      exact fun terminal contains => ((only terminal).mp contains).2
  · obtain ⟨state, found, _⟩ := kernelAt_eq_some_iff.mp (explored_states numbered).first
    obtain ⟨_, _, only, same⟩ := startLookaheads_at found
    rw [same] at member
    obtain ⟨_, _, rfl⟩ := List.mem_map.mp member
    exact (only endSymbol.toNat).mpr ⟨rfl, rfl⟩

theorem kernelLookaheads_eq : grammar.items.kernelLookaheads grammar.items.states =
    settleWith (fun lookaheads => (List.range grammar.items.states.size).foldl
      (grammar.items.propagate grammar.items.states) lookaheads)
      ((grammar.items.states.toList.flatMap ItemState.kernel).length * grammar.terminalCount + 1)
      grammar.startLookaheads := by
  rw [← settleLookaheads_eq]
  rfl

/-- The lookaheads of the kernels have all that the states hand on. -/
theorem kernelLookaheads_spec (numbered : grammar.WellNumbered) :
    let settled := grammar.items.kernelLookaheads grammar.items.states
    grammar.KernelsFit settled ∧
      ∀ (index : Nat) state, grammar.items.states[index]? = some state →
        ∀ transition ∈ state.transitions, ∀ next,
          grammar.items.states[transition.2]? = some next →
            (settled.getD transition.2 []).zipWith TokenSet.union
                (grammar.handed state (settled.getD index []) next) =
              settled.getD transition.2 [] := by
  intro settled
  have rounds : ∀ index ∈ List.range grammar.items.states.size,
      Grows grammar.KernelsFit (totalWeight kernelWeight) fun lookaheads =>
        grammar.items.propagate grammar.items.states lookaheads index :=
    fun index _ => propagate_grows numbered index
  obtain ⟨fits, fixed⟩ := settleWith_fixed (.foldl rounds)
    (fun lookaheads inner => inner.weight_le)
    ((grammar.items.states.toList.flatMap ItemState.kernel).length * grammar.terminalCount + 1)
    (kernelsFit_start numbered) (by omega)
  rw [← kernelLookaheads_eq] at fits fixed
  refine ⟨fits, fun index state found transition member next reached => ?_⟩
  have bound := (Array.getElem?_eq_some_iff.mp found).1
  have unchanged := Grows.foldl_fixed rounds fits fixed index (List.mem_range.mpr bound)
  simp only [propagate_eq found] at unchanged
  have same := Grows.foldl_fixed (handOn_grows numbered found (fits.each index state found)) fits
    unchanged transition member
  simp only [reached] at same
  exact modify_eq_iff.mp same _ (fits.found_at reached)

/-! ## Lookaheads of the automaton -/

theorem hasLookahead_iff (numbered : grammar.WellNumbered) {place terminal : Nat}
    {item : Item} :
    grammar.automaton.HasLookahead place item terminal ↔
      ∃ state, grammar.items.states[place]? = some state ∧
        item ∈ grammar.items.closure state.kernel ∧
        let kernel := (grammar.items.kernelLookaheads grammar.items.states).getD place []
        (grammar.items.lookaheadOf state kernel
          (grammar.items.predictedLookaheads state kernel) item).contains terminal = true := by
  have items : ∀ {state : ItemState} {kernel : List TokenSet} {lookahead : TokenSet},
      grammar.items.states[place]? = some state →
        ((item, lookahead) ∈ (grammar.items.withLookaheads state kernel).items ↔
          item ∈ grammar.items.closure state.kernel ∧
            grammar.items.lookaheadOf state kernel
              (grammar.items.predictedLookaheads state kernel) item = lookahead) := by
    intro state kernel lookahead found
    have bound := (Array.getElem?_eq_some_iff.mp found).1
    have predicted := ((explored_states numbered).completed place state bound found).predicted
    simp only [ItemGrammar.withLookaheads, List.mem_map, Prod.mk.injEq, predicted]
    constructor
    · rintro ⟨other, member, rfl, same⟩
      exact ⟨member, same⟩
    · rintro ⟨member, same⟩
      exact ⟨item, member, rfl, same⟩
  constructor
  · rintro ⟨state, found, lookahead, member, contains⟩
    obtain ⟨explored, placed, rfl⟩ := automaton_state.mp found
    obtain ⟨inside, rfl⟩ := (items placed).mp member
    exact ⟨explored, placed, inside, contains⟩
  · rintro ⟨state, placed, inside, contains⟩
    exact ⟨_, automaton_state.mpr ⟨state, placed, rfl⟩, _, (items placed).mpr ⟨inside, rfl⟩,
      contains⟩

/-- At the start only the end of the input may follow. -/
theorem hasLookahead_start (numbered : grammar.WellNumbered) :
    grammar.automaton.HasLookahead 0 ⟨grammar.productions.size, 0⟩ endSymbol.toNat := by
  obtain ⟨fits, _⟩ := kernelLookaheads_spec numbered
  obtain ⟨state, found, kernel⟩ := kernelAt_eq_some_iff.mp (explored_states numbered).first
  have isKernel := (explored_states numbered).kernels 0 _
    (kernelAt_eq_some_iff.mpr ⟨state, found, rfl⟩)
  have member : (⟨grammar.productions.size, 0⟩ : Item) ∈ state.kernel := by
    simp [kernel, items_startProduction]
  obtain ⟨set, paired⟩ := exists_mem_zip (fits.each 0 state found).length member
  refine (hasLookahead_iff numbered).mpr ⟨state, found,
    (mem_closure numbered).mpr (.inl member), ?_⟩
  simp only [lookaheadOf_kernel isKernel (fits.each 0 state found).length paired]
  exact fits.start set (List.of_mem_zip paired).2

/-- Where an item expects a nonterminal, its productions start; they may be followed by what
the symbols behind it in the item yield, and then by what may follow the item. -/
theorem hasLookahead_predict (numbered : grammar.WellNumbered) {place index : Nat}
    {item : Item} {production : Production} {word rest : List Nat} {final : Nat}
    (found : grammar.productions[index]? = some production)
    (next : grammar.items.next? item = some production.lhs)
    (yields : grammar.Yields ((grammar.items.symbols item.production).drop (item.dot + 1)) word)
    (has : grammar.automaton.HasLookahead place item (rest.head?.getD final)) :
    grammar.automaton.HasLookahead place ⟨index, 0⟩ ((word ++ rest).head?.getD final) := by
  obtain ⟨fits, _⟩ := kernelLookaheads_spec numbered
  obtain ⟨state, placed, member, contains⟩ := (hasLookahead_iff numbered).mp has
  have explored := explored_states numbered
  have bound := (Array.getElem?_eq_some_iff.mp placed).1
  have predicted := (explored.completed place state bound placed).predicted
  have isKernel := explored.kernels place _ (kernelAt_eq_some_iff.mpr ⟨state, placed, rfl⟩)
  have here := fits.each place state placed
  have expects := expects_of_next numbered member next
    (numbered.lhs_range production (Array.mem_of_getElem? found)).1
  refine (hasLookahead_iff numbered).mpr ⟨state, placed,
    (mem_closure numbered).mpr (.inr ⟨rfl, production, found, expects⟩), ?_⟩
  exact lookaheadOf_closed numbered isKernel predicted here.below here.length member found next
    (FirstSets.contains_followedBy numbered yields contains)

/-- Over a transition an item keeps its lookaheads. -/
theorem hasLookahead_advance (numbered : grammar.WellNumbered)
    {source symbol target terminal : Nat} {item : Item}
    (edge : grammar.automaton.Edge source symbol target)
    (next : grammar.items.next? item = some symbol)
    (has : grammar.automaton.HasLookahead source item terminal) :
    grammar.automaton.HasLookahead target item.advance terminal := by
  obtain ⟨fits, handedOn⟩ := kernelLookaheads_spec numbered
  obtain ⟨state, placed, member, contains⟩ := (hasLookahead_iff numbered).mp has
  have explored := explored_states numbered
  obtain ⟨row, found, listed⟩ := edge
  obtain ⟨other, again, rfl⟩ := automaton_state.mp found
  obtain rfl := Option.some.inj (placed.symm.trans again)
  have bound := (Array.getElem?_eq_some_iff.mp placed).1
  obtain ⟨kernel, succeeds, reached⟩ :=
    (explored.completed source state bound placed).exists_successor listed
  obtain ⟨after, afterPlaced, rfl⟩ := kernelAt_eq_some_iff.mp reached
  obtain ⟨_, shape⟩ := ItemGrammar.mem_successors.mp succeeds
  have advanced : item.advance ∈ after.kernel := by
    rw [shape]
    exact List.mem_map_of_mem (List.mem_filter.mpr ⟨member, by simp [next]⟩)
  have isKernel := explored.kernels target _ reached
  have here := fits.each target after afterPlaced
  obtain ⟨index, short, same⟩ := List.getElem_of_mem advanced
  have inside := here.length ▸ short
  have kept := contains_of_zipWith_union_eq
    (handedOn source state placed (symbol, target) listed after afterPlaced)
    (List.getElem?_eq_getElem inside)
    (by simp [handed, List.getElem?_eq_getElem short, same, Item.advance]) contains
  refine (hasLookahead_iff numbered).mpr ⟨after, afterPlaced,
    (mem_closure numbered).mpr (.inl advanced), ?_⟩
  have zipped : index < (after.kernel.zip
      ((grammar.items.kernelLookaheads grammar.items.states).getD target [])).length := by
    rw [List.length_zip, here.length]
    omega
  have paired := List.getElem_mem zipped
  rw [List.getElem_zip, same] at paired
  simpa only [lookaheadOf_kernel isKernel here.length paired] using kept

theorem lt_of_hasLookahead (numbered : grammar.WellNumbered) {place terminal : Nat}
    {item : Item} (has : grammar.automaton.HasLookahead place item terminal) :
    terminal < grammar.terminalCount := by
  obtain ⟨state, placed, _, contains⟩ := (hasLookahead_iff numbered).mp has
  have bound := (Array.getElem?_eq_some_iff.mp placed).1
  have predicted := ((explored_states numbered).completed place state bound placed).predicted
  have fits := (kernelLookaheads_spec numbered).1.each place state placed
  exact (lookaheadOf_below numbered predicted fits.below _).lt _ contains

/-- The start production can only be followed by the end of the input. -/
theorem eq_end_of_hasLookahead_start (numbered : grammar.WellNumbered)
    {place dot terminal : Nat}
    (has : grammar.automaton.HasLookahead place ⟨grammar.productions.size, dot⟩ terminal) :
    terminal = endSymbol.toNat := by
  obtain ⟨state, placed, member, contains⟩ := (hasLookahead_iff numbered).mp has
  have isKernel := (explored_states numbered).kernels place _
    (kernelAt_eq_some_iff.mpr ⟨state, placed, rfl⟩)
  have fits := (kernelLookaheads_spec numbered).1.each place state placed
  obtain ⟨set, paired⟩ := exists_mem_zip fits.length (mem_kernel_of_start numbered member rfl)
  simp only [lookaheadOf_kernel isKernel fits.length paired] at contains
  exact fits.final _ set paired rfl terminal contains

end FlatGrammar

end Lalr
