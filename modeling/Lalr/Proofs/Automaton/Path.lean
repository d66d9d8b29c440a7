import Lalr.Proofs.Automaton.Exploration

set_option autoImplicit false

/-!
Paths of the automaton. An item at the end of a path tells which symbols were read last, so
a production that is complete there can be taken off the path, and the state below leads on
over its left-hand side.
-/

namespace Lalr

namespace Automaton

/-- A transition. -/
def Edge (automaton : Automaton) (source symbol target : Nat) : Prop :=
  ∃ state, automaton.states[source]? = some state ∧ (symbol, target) ∈ state.transitions

/-- A state has an item, whatever its lookaheads. -/
def HasItem (automaton : Automaton) (place : Nat) (item : Item) : Prop :=
  ∃ state, automaton.states[place]? = some state ∧ item ∈ state.items.map Prod.fst

/-- A state has an item with a terminal among its lookaheads. -/
def HasLookahead (automaton : Automaton) (place : Nat) (item : Item) (terminal : Nat) : Prop :=
  ∃ state, automaton.states[place]? = some state ∧
    ∃ lookahead, (item, lookahead) ∈ state.items ∧ lookahead.contains terminal = true

theorem HasLookahead.hasItem {automaton : Automaton} {place terminal : Nat} {item : Item}
    (has : automaton.HasLookahead place item terminal) : automaton.HasItem place item := by
  obtain ⟨state, found, lookahead, member, _⟩ := has
  exact ⟨state, found, List.mem_map_of_mem member⟩

/-- The state that a path leads to; the empty one stays in the first state. -/
def pathEnd (path : List (Nat × Nat)) : Nat :=
  (path.head?.map Prod.snd).getD 0

/-- A path from the first state: the symbols read with the states behind them, the last
one first. -/
inductive Path (automaton : Automaton) : List (Nat × Nat) → Prop where
  | start : Path automaton []
  | step {path : List (Nat × Nat)} {symbol target : Nat} :
      Path automaton path → automaton.Edge (pathEnd path) symbol target →
        Path automaton ((symbol, target) :: path)

theorem Path.drop {automaton : Automaton} {path : List (Nat × Nat)}
    (isPath : automaton.Path path) (count : Nat) : automaton.Path (path.drop count) := by
  induction isPath generalizing count with
  | start => simpa using Path.start
  | step before edge hypothesis =>
      cases count with
      | zero => exact before.step edge
      | succ count => exact hypothesis count

end Automaton

namespace FlatGrammar

variable {grammar : FlatGrammar}

/-- The automaton of a grammar. -/
abbrev automaton (grammar : FlatGrammar) : Automaton :=
  Automaton.ofGrammar grammar

/-- The states of the automaton are those explored, with lookaheads. -/
theorem automaton_state {place : Nat} {state : LookaheadState} :
    grammar.automaton.states[place]? = some state ↔
      ∃ explored, grammar.items.states[place]? = some explored ∧
        state = grammar.items.withLookaheads explored
          ((grammar.items.kernelLookaheads grammar.items.states).getD place []) := by
  simp [automaton, Automaton.ofGrammar, eq_comm]

theorem size_automaton_states :
    grammar.automaton.states.size = grammar.items.states.size := by
  simp [automaton, Automaton.ofGrammar]

theorem automaton_startProduction :
    grammar.automaton.startProduction = grammar.productions.size :=
  items_startProduction

theorem hasItem_iff (numbered : grammar.WellNumbered) {place : Nat} {item : Item} :
    grammar.automaton.HasItem place item ↔
      ∃ kernel, kernelAt grammar.items.states place = some kernel ∧
        item ∈ grammar.items.closure kernel := by
  have explored := explored_states numbered
  have mapped : ∀ {state : ItemState} {kernel : List TokenSet},
      grammar.items.states[place]? = some state →
        (grammar.items.withLookaheads state kernel).items.map Prod.fst =
          grammar.items.closure state.kernel := by
    intro state kernel found
    have bound := (Array.getElem?_eq_some_iff.mp found).1
    simp [ItemGrammar.withLookaheads, ItemGrammar.closure, Function.comp_def,
      (explored.completed place state bound found).predicted]
  constructor
  · rintro ⟨state, found, member⟩
    obtain ⟨exploredState, place_found, rfl⟩ := automaton_state.mp found
    rw [mapped place_found] at member
    exact ⟨_, kernelAt_eq_some_iff.mpr ⟨exploredState, place_found, rfl⟩, member⟩
  · rintro ⟨kernel, found, member⟩
    obtain ⟨state, place_found, rfl⟩ := kernelAt_eq_some_iff.mp found
    exact ⟨_, automaton_state.mpr ⟨state, place_found, rfl⟩, by rwa [mapped place_found]⟩

theorem edge_iff (numbered : grammar.WellNumbered) {source symbol target : Nat} :
    grammar.automaton.Edge source symbol target ↔
      ∃ kernel next, kernelAt grammar.items.states source = some kernel ∧
        (symbol, next) ∈ grammar.items.successors (grammar.items.closure kernel) ∧
        kernelAt grammar.items.states target = some next := by
  have explored := explored_states numbered
  constructor
  · rintro ⟨state, found, member⟩
    obtain ⟨origin, placed, rfl⟩ := automaton_state.mp found
    have bound := (Array.getElem?_eq_some_iff.mp placed).1
    obtain ⟨next, listed, reached⟩ :=
      (explored.completed source origin bound placed).exists_successor member
    exact ⟨origin.kernel, next, kernelAt_eq_some_iff.mpr ⟨origin, placed, rfl⟩, listed, reached⟩
  · rintro ⟨kernel, next, found, member, placed⟩
    obtain ⟨origin, sourcePlaced, rfl⟩ := kernelAt_eq_some_iff.mp found
    have bound := (Array.getElem?_eq_some_iff.mp sourcePlaced).1
    obtain ⟨other, listed, reached⟩ :=
      (explored.completed source origin bound sourcePlaced).exists_target member
    obtain rfl := explored.distinct _ _ _ reached placed
    exact ⟨_, automaton_state.mpr ⟨origin, sourcePlaced, rfl⟩, listed⟩

theorem lt_of_edge (numbered : grammar.WellNumbered) {source symbol target : Nat}
    (edge : grammar.automaton.Edge source symbol target) :
    source < grammar.automaton.states.size ∧ target < grammar.automaton.states.size := by
  obtain ⟨kernel, next, found, _, placed⟩ := (edge_iff numbered).mp edge
  obtain ⟨_, found, _⟩ := kernelAt_eq_some_iff.mp found
  obtain ⟨_, placed, _⟩ := kernelAt_eq_some_iff.mp placed
  rw [size_automaton_states]
  exact ⟨(Array.getElem?_eq_some_iff.mp found).1, (Array.getElem?_eq_some_iff.mp placed).1⟩

/-- Over one symbol a state has one successor. -/
theorem edge_functional (numbered : grammar.WellNumbered) {source symbol target other : Nat}
    (edge : grammar.automaton.Edge source symbol target)
    (otherEdge : grammar.automaton.Edge source symbol other) : target = other := by
  obtain ⟨kernel, next, found, member, placed⟩ := (edge_iff numbered).mp edge
  obtain ⟨kernel', next', found', member', placed'⟩ := (edge_iff numbered).mp otherEdge
  obtain rfl := Option.some.inj (found.symm.trans found')
  obtain ⟨_, rfl⟩ := ItemGrammar.mem_successors.mp member
  obtain ⟨_, rfl⟩ := ItemGrammar.mem_successors.mp member'
  exact (explored_states numbered).distinct _ _ _ placed placed'

/-- A symbol is read because it stands behind the dot of an item. -/
theorem exists_item_of_edge (numbered : grammar.WellNumbered) {source symbol target : Nat}
    (edge : grammar.automaton.Edge source symbol target) :
    ∃ item, grammar.automaton.HasItem source item ∧ grammar.items.next? item = some symbol := by
  obtain ⟨kernel, next, found, listed, _⟩ := (edge_iff numbered).mp edge
  obtain ⟨⟨item, member, reads⟩, _⟩ := ItemGrammar.mem_successors.mp listed
  exact ⟨item, (hasItem_iff numbered).mpr ⟨kernel, found, member⟩, reads⟩

/-- Transitions over one symbol lead to one state if the same items read it. -/
theorem target_eq_of_readers (numbered : grammar.WellNumbered)
    {source other symbol target otherTarget : Nat}
    (edge : grammar.automaton.Edge source symbol target)
    (otherEdge : grammar.automaton.Edge other symbol otherTarget)
    (same : ∀ item, grammar.items.next? item = some symbol →
      (grammar.automaton.HasItem source item ↔ grammar.automaton.HasItem other item)) :
    target = otherTarget := by
  have explored := explored_states numbered
  obtain ⟨kernel, next, found, listed, placed⟩ := (edge_iff numbered).mp edge
  obtain ⟨otherKernel, otherNext, otherFound, otherListed, otherPlaced⟩ :=
    (edge_iff numbered).mp otherEdge
  have members : ∀ {place : Nat} {kernel next : List Item},
      kernelAt grammar.items.states place = some kernel →
      (symbol, next) ∈ grammar.items.successors (grammar.items.closure kernel) → ∀ item,
        item ∈ next ↔ ∃ reader, grammar.items.next? reader = some symbol ∧
          grammar.automaton.HasItem place reader ∧ reader.advance = item := by
    intro place kernel next found listed item
    have inside : ∀ reader, grammar.automaton.HasItem place reader ↔
        reader ∈ grammar.items.closure kernel := by
      intro reader
      rw [hasItem_iff numbered, found]
      simp
    obtain ⟨_, rfl⟩ := ItemGrammar.mem_successors.mp listed
    simp only [List.mem_map, List.mem_filter, beq_iff_eq, inside]
    exact exists_congr fun reader => by rw [← and_assoc, and_comm (a := reader ∈ _)]
  have equal : next = otherNext := Item.eq_of_precedes (explored.kernels _ _ placed).ordered
    (explored.kernels _ _ otherPlaced).ordered fun item => by
      rw [members found listed, members otherFound otherListed]
      exact exists_congr fun reader => and_congr_right fun reads =>
        and_congr_left fun _ => same reader reads
  exact explored.distinct _ _ _ placed (equal ▸ otherPlaced)

/-- The dot of an item moves on over a transition. -/
theorem hasItem_advance (numbered : grammar.WellNumbered) {place symbol : Nat} {item : Item}
    (has : grammar.automaton.HasItem place item)
    (next : grammar.items.next? item = some symbol) :
    ∃ target, grammar.automaton.Edge place symbol target ∧
      grammar.automaton.HasItem target item.advance := by
  obtain ⟨kernel, found, member⟩ := (hasItem_iff numbered).mp has
  have listed : (symbol, _) ∈ grammar.items.successors (grammar.items.closure kernel) :=
    ItemGrammar.mem_successors.mpr ⟨⟨item, member, next⟩, rfl⟩
  obtain ⟨origin, placed, rfl⟩ := kernelAt_eq_some_iff.mp found
  have bound := (Array.getElem?_eq_some_iff.mp placed).1
  obtain ⟨target, _, reached⟩ :=
    ((explored_states numbered).completed place origin bound placed).exists_target listed
  refine ⟨target, (edge_iff numbered).mpr ⟨_, _, found, listed, reached⟩,
    (hasItem_iff numbered).mpr ⟨_, reached, (mem_closure numbered).mpr (.inl ?_)⟩⟩
  exact List.mem_map_of_mem (List.mem_filter.mpr ⟨member, by simp [next]⟩)

/-- An item whose dot has moved comes from the state before. -/
theorem hasItem_retreat (numbered : grammar.WellNumbered)
    {source symbol target production dot : Nat}
    (edge : grammar.automaton.Edge source symbol target)
    (has : grammar.automaton.HasItem target ⟨production, dot + 1⟩) :
    grammar.automaton.HasItem source ⟨production, dot⟩ ∧
      grammar.items.next? ⟨production, dot⟩ = some symbol := by
  obtain ⟨kernel, next, found, listed, placed⟩ := (edge_iff numbered).mp edge
  obtain ⟨kernel', placed', member⟩ := (hasItem_iff numbered).mp has
  obtain rfl := Option.some.inj (placed.symm.trans placed')
  obtain ⟨_, rfl⟩ := ItemGrammar.mem_successors.mp listed
  rcases (mem_closure numbered).mp member with inside | ⟨start, _⟩
  · obtain ⟨⟨production', dot'⟩, filtered, same⟩ := List.mem_map.mp inside
    obtain ⟨origin, reads⟩ := List.mem_filter.mp filtered
    simp only [Item.advance, Item.mk.injEq, Nat.add_right_cancel_iff] at same
    obtain ⟨rfl, rfl⟩ := same
    exact ⟨(hasItem_iff numbered).mpr ⟨kernel, found, origin⟩, by simpa using reads⟩
  · exact absurd start (Nat.succ_ne_zero dot)

theorem hasItem_start (numbered : grammar.WellNumbered) :
    grammar.automaton.HasItem 0 ⟨grammar.productions.size, 0⟩ := by
  refine (hasItem_iff numbered).mpr ⟨_, (explored_states numbered).first, ?_⟩
  rw [items_startProduction]
  exact (mem_closure numbered).mpr (.inl List.mem_cons_self)

/-- Only the first state starts the start production. -/
theorem eq_zero_of_hasItem_start (numbered : grammar.WellNumbered) {place : Nat}
    (has : grammar.automaton.HasItem place ⟨grammar.productions.size, 0⟩) : place = 0 := by
  obtain ⟨kernel, found, member⟩ := (hasItem_iff numbered).mp has
  rcases (mem_closure numbered).mp member with inside | ⟨_, production, listed, _⟩
  · by_contra later
    exact absurd ((explored_states numbered).later place kernel (Nat.pos_of_ne_zero later) found
      _ inside) (Nat.lt_irrefl 0)
  · exact absurd (Array.getElem?_eq_some_iff.mp listed).1 (Nat.lt_irrefl _)

/-- No transition leads back to the first state. -/
theorem not_edge_zero (numbered : grammar.WellNumbered) {source symbol : Nat} :
    ¬ grammar.automaton.Edge source symbol 0 := by
  intro edge
  obtain ⟨kernel, next, _, listed, placed⟩ := (edge_iff numbered).mp edge
  obtain ⟨_, rfl⟩ := ItemGrammar.mem_successors.mp listed
  have first := (explored_states numbered).first
  have same := Option.some.inj (first.symm.trans placed)
  have member : (⟨grammar.items.startProduction, 0⟩ : Item) ∈ _ := same ▸ List.mem_cons_self
  obtain ⟨_, _, equal⟩ := List.mem_map.mp member
  exact absurd (Item.mk.inj equal).2 (Nat.succ_ne_zero _)

/-- The productions of an expected nonterminal start. -/
theorem hasItem_predict (numbered : grammar.WellNumbered) {place index : Nat} {item : Item}
    {production : Production} (has : grammar.automaton.HasItem place item)
    (found : grammar.productions[index]? = some production)
    (next : grammar.items.next? item = some production.lhs) :
    grammar.automaton.HasItem place ⟨index, 0⟩ := by
  obtain ⟨kernel, placed, member⟩ := (hasItem_iff numbered).mp has
  have expects := expects_of_next numbered member next
    (numbered.lhs_range production (Array.mem_of_getElem? found)).1
  exact (hasItem_iff numbered).mpr ⟨kernel, placed,
    (mem_closure numbered).mpr (.inr ⟨rfl, production, found, expects⟩)⟩

/-- Where a production starts, some item expects its left-hand side. -/
theorem exists_expecting (numbered : grammar.WellNumbered) {place index : Nat}
    {production : Production} (found : grammar.productions[index]? = some production)
    (has : grammar.automaton.HasItem place ⟨index, 0⟩) :
    ∃ item, grammar.automaton.HasItem place item ∧
      grammar.items.next? item = some production.lhs := by
  obtain ⟨kernel, placed, member⟩ := (hasItem_iff numbered).mp has
  have bound := (Array.getElem?_eq_some_iff.mp found).1
  rcases (mem_closure numbered).mp member with inside | ⟨_, other, same, expects⟩
  · rcases ((explored_states numbered).kernels place kernel placed).moved _ inside with
      moved | start
    · exact absurd moved (Nat.lt_irrefl 0)
    · exact absurd start (Nat.ne_of_lt bound)
  · obtain rfl := Option.some.inj (found.symm.trans same)
    obtain ⟨item, listed, next⟩ := exists_next_of_expects numbered expects
    exact ⟨item, (hasItem_iff numbered).mpr ⟨kernel, placed, listed⟩, next⟩

/-- Where a production starts, its left-hand side can be read. -/
theorem exists_goto (numbered : grammar.WellNumbered) {place index : Nat}
    {production : Production} (found : grammar.productions[index]? = some production)
    (has : grammar.automaton.HasItem place ⟨index, 0⟩) :
    ∃ target, grammar.automaton.Edge place production.lhs target := by
  obtain ⟨item, listed, next⟩ := exists_expecting numbered found has
  obtain ⟨target, edge, _⟩ := hasItem_advance numbered listed next
  exact ⟨target, edge⟩

/-- The symbols of the transitions are those of the productions, and the start symbol. -/
theorem edge_symbol_range (numbered : grammar.WellNumbered) {source symbol target : Nat}
    (edge : grammar.automaton.Edge source symbol target) :
    0 < symbol ∧ symbol < grammar.tableSymbolCount := by
  obtain ⟨kernel, next, _, listed, _⟩ := (edge_iff numbered).mp edge
  obtain ⟨⟨⟨index, dot⟩, member, reads⟩, _⟩ := ItemGrammar.mem_successors.mp listed
  exact items_symbols_range numbered (List.mem_of_getElem? reads)

/-- Every state lies at the end of a path. -/
theorem exists_path (numbered : grammar.WellNumbered) {place : Nat}
    (bound : place < grammar.automaton.states.size) :
    ∃ path, grammar.automaton.Path path ∧ Automaton.pathEnd path = place := by
  induction place using Nat.strongRecOn with
  | ind place ih =>
      rcases Nat.eq_zero_or_pos place with rfl | positive
      · exact ⟨[], .start, rfl⟩
      · rw [size_automaton_states] at bound
        have placed := kernelAt_eq_some_iff.mpr ⟨_, Array.getElem?_eq_getElem bound, rfl⟩
        obtain ⟨source, before, symbol, early, former, listed⟩ :=
          (explored_states numbered).origin place _ positive placed
        have edge : grammar.automaton.Edge source symbol place :=
          (edge_iff numbered).mpr ⟨before, _, former, listed, placed⟩
        obtain ⟨path, isPath, same⟩ := ih source early (lt_of_edge numbered edge).1
        exact ⟨(symbol, place) :: path, isPath.step (same ▸ edge), rfl⟩

/-! ## Items at the end of a path -/

/-- An item at the end of a path tells the symbols read last, and where they start. -/
theorem path_of_hasItem (numbered : grammar.WellNumbered) {path : List (Nat × Nat)}
    {production dot : Nat} (isPath : grammar.automaton.Path path)
    (has : grammar.automaton.HasItem (Automaton.pathEnd path) ⟨production, dot⟩) :
    dot ≤ path.length ∧
      ((path.take dot).map Prod.fst).reverse = (grammar.items.symbols production).take dot ∧
      grammar.automaton.HasItem (Automaton.pathEnd (path.drop dot)) ⟨production, 0⟩ := by
  induction dot generalizing path with
  | zero => exact ⟨Nat.zero_le _, by simp, has⟩
  | succ dot hypothesis =>
      cases isPath with
      | start =>
          obtain ⟨kernel, found, member⟩ := (hasItem_iff numbered).mp has
          obtain rfl := Option.some.inj ((explored_states numbered).first.symm.trans found)
          rcases (mem_closure numbered).mp member with inside | ⟨start, _⟩
          · simp at inside
          · exact absurd start (Nat.succ_ne_zero dot)
      | step before edge =>
          obtain ⟨origin, reads⟩ := hasItem_retreat numbered edge has
          obtain ⟨enough, symbols, start⟩ := hypothesis before origin
          refine ⟨Nat.succ_le_succ enough, ?_, start⟩
          simp only [ItemGrammar.next?] at reads
          rw [List.take_succ_cons, List.map_cons, List.reverse_cons, symbols, List.take_add_one,
            reads]
          rfl

/-- A complete production can be taken off a path, and its left-hand side read instead. -/
theorem path_of_complete (numbered : grammar.WellNumbered) {path : List (Nat × Nat)}
    {index : Nat} {production : Production} (isPath : grammar.automaton.Path path)
    (found : grammar.productions[index]? = some production)
    (has : grammar.automaton.HasItem (Automaton.pathEnd path) ⟨index, production.steps.length⟩) :
    production.steps.length ≤ path.length ∧
      ((path.take production.steps.length).map Prod.fst).reverse = production.rhs ∧
      ∃ target, grammar.automaton.Edge
        (Automaton.pathEnd (path.drop production.steps.length)) production.lhs target := by
  obtain ⟨enough, symbols, start⟩ := path_of_hasItem numbered isPath has
  refine ⟨enough, ?_, exists_goto numbered found start⟩
  rw [symbols, items_symbols found]
  exact List.take_of_length_le (by simp [Production.rhs])

/-- Where the start production is complete, nothing but the start symbol was read. -/
theorem path_of_accept (numbered : grammar.WellNumbered) {path : List (Nat × Nat)}
    (isPath : grammar.automaton.Path path)
    (has : grammar.automaton.HasItem (Automaton.pathEnd path) ⟨grammar.productions.size, 1⟩) :
    ∃ target, path = [(grammar.start, target)] := by
  obtain ⟨enough, symbols, start⟩ := path_of_hasItem numbered isPath has
  have root := eq_zero_of_hasItem_start numbered start
  cases isPath with
  | start => simp at enough
  | step before edge =>
      rw [items_symbols_start] at symbols
      obtain rfl : _ = grammar.start := by simpa using symbols
      cases before with
      | start => exact ⟨_, rfl⟩
      | step before earlier =>
          simp only [List.drop_succ_cons, List.drop_zero, Automaton.pathEnd, List.head?_cons,
            Option.map_some, Option.getD_some] at root
          exact absurd (root ▸ earlier) (not_edge_zero numbered)

end FlatGrammar

end Lalr
