import Mathlib.Data.Fintype.Card
import Mathlib.Data.Fintype.Prod
import Lalr.Proofs.Automaton.Precedence
import Lalr.Proofs.Operators.Climbing

set_option autoImplicit false

/-!
The automaton of a grammar of binary operators. A state completes at most one item, and only
behind the right operand of an operator does another operator compete with its reduction; the
levels of the two, or the associativity of the first, decide.
-/

namespace Lalr

namespace FlatGrammar

variable {grammar : FlatGrammar}

/-! ## States and their items -/

theorem nodup_items (numbered : grammar.WellNumbered) {place : Nat} {state : LookaheadState}
    (found : grammar.automaton.states[place]? = some state) :
    (state.items.map Prod.fst).Nodup := by
  have explored := explored_states numbered
  obtain ⟨origin, placed, rfl⟩ := automaton_state.mp found
  have bound := (Array.getElem?_eq_some_iff.mp placed).1
  have isKernel := explored.kernels place _ (kernelAt_eq_some_iff.mpr ⟨origin, placed, rfl⟩)
  have items : (grammar.items.withLookaheads origin
      ((grammar.items.kernelLookaheads grammar.items.states).getD place [])).items.map Prod.fst =
        grammar.items.closure origin.kernel := by
    simp [ItemGrammar.withLookaheads, ItemGrammar.closure, Function.comp_def,
      (explored.completed place origin bound placed).predicted]
  rw [items]
  exact (ordered_closure numbered isKernel).imp fun precedes => precedes.2

/-- Where a production starts in a later state, an item whose dot has moved reads a
nonterminal. -/
theorem exists_moved_of_start (numbered : grammar.WellNumbered) {place production : Nat}
    (later : place ≠ 0) (has : grammar.automaton.HasItem place ⟨production, 0⟩) :
    ∃ item symbol, grammar.automaton.HasItem place item ∧ 0 < item.dot ∧
      grammar.items.next? item = some symbol ∧ grammar.terminalCount ≤ symbol := by
  obtain ⟨kernel, found, member⟩ := (hasItem_iff numbered).mp has
  have moved : ∀ item ∈ kernel, 0 < item.dot := by
    intro item inside
    rcases ((explored_states numbered).kernels place kernel found).moved item inside with
      moved | start
    · exact moved
    · by_contra unmoved
      have shape : item = ⟨grammar.productions.size, 0⟩ := by
        rw [← start, ← Nat.le_zero.mp (Nat.not_lt.mp unmoved)]
      exact later (eq_zero_of_hasItem_start numbered ((hasItem_iff numbered).mpr
        ⟨kernel, found, (mem_closure numbered).mpr (.inl (shape ▸ inside))⟩))
  rcases (mem_closure numbered).mp member with inside | ⟨_, origin, _, expects⟩
  · exact absurd (moved _ inside) (Nat.lt_irrefl 0)
  · clear has member
    generalize origin.lhs = symbol at expects
    induction expects with
    | direct inside next =>
        obtain ⟨reads, nonterminal⟩ := le_of_nextNonterminal? next
        exact ⟨_, _, (hasItem_iff numbered).mpr
          ⟨kernel, found, (mem_closure numbered).mpr (.inl inside)⟩, moved _ inside, reads,
          nonterminal⟩
    | lead _ _ ih => exact ih

/-! ## Grammars of binary operators -/

/-- An operator between two operands. -/
def operatorProduction (start : Nat) (operator : BinaryOperator Nat) : Production where
  lhs := start
  steps := [start, operator.token, start].map fun symbol =>
    ⟨symbol, operator.level, some operator.associativity, none, none⟩
  dynamicPrecedence := 0

/-- The atom alone. -/
def atomProduction (start atom : Nat) : Production where
  lhs := start
  steps := [⟨atom, 0, none, none, none⟩]
  dynamicPrecedence := 0

/-- The only nonterminal is the start symbol; it stands for the atom, or for an operator between
two operands. -/
structure IsOperatorGrammar (grammar : FlatGrammar) (atom : Nat)
    (operators : List (BinaryOperator Nat)) : Prop where
  numbered : grammar.WellNumbered
  terminals : ∀ token ∈ atom :: operators.map BinaryOperator.token, token < grammar.terminalCount
  distinct : (atom :: operators.map BinaryOperator.token).Nodup
  productions : grammar.productions.toList.Perm
    (atomProduction grammar.start atom :: operators.map (operatorProduction grammar.start))

/-- The production in a place is that of an operator. -/
structure IsOperatorAt (grammar : FlatGrammar) (operators : List (BinaryOperator Nat))
    (index : Nat) (operator : BinaryOperator Nat) : Prop where
  listed : operator ∈ operators
  found : grammar.productions[index]? = some (operatorProduction grammar.start operator)

/-- The items of such a grammar that have a symbol behind the dot. -/
inductive Reads (grammar : FlatGrammar) (atom : Nat) (operators : List (BinaryOperator Nat)) :
    Item → Nat → Prop where
  | start : Reads grammar atom operators ⟨grammar.productions.size, 0⟩ grammar.start
  | atom {index : Nat} :
      grammar.productions[index]? = some (atomProduction grammar.start atom) →
        Reads grammar atom operators ⟨index, 0⟩ atom
  | left {index : Nat} {operator : BinaryOperator Nat} :
      grammar.IsOperatorAt operators index operator →
        Reads grammar atom operators ⟨index, 0⟩ grammar.start
  | operator {index : Nat} {operator : BinaryOperator Nat} :
      grammar.IsOperatorAt operators index operator →
        Reads grammar atom operators ⟨index, 1⟩ operator.token
  | right {index : Nat} {operator : BinaryOperator Nat} :
      grammar.IsOperatorAt operators index operator →
        Reads grammar atom operators ⟨index, 2⟩ grammar.start

/-- The items with the dot at the end. -/
inductive Completes (grammar : FlatGrammar) (atom : Nat)
    (operators : List (BinaryOperator Nat)) : Item → Prop where
  | start : Completes grammar atom operators ⟨grammar.productions.size, 1⟩
  | atom {index : Nat} :
      grammar.productions[index]? = some (atomProduction grammar.start atom) →
        Completes grammar atom operators ⟨index, 1⟩
  | operator {index : Nat} {operator : BinaryOperator Nat} :
      grammar.IsOperatorAt operators index operator →
        Completes grammar atom operators ⟨index, 3⟩

namespace IsOperatorGrammar

variable {atom : Nat} {operators : List (BinaryOperator Nat)}

theorem atom_lt (shape : grammar.IsOperatorGrammar atom operators) :
    atom < grammar.terminalCount :=
  shape.terminals atom List.mem_cons_self

theorem token_lt (shape : grammar.IsOperatorGrammar atom operators)
    {operator : BinaryOperator Nat} (listed : operator ∈ operators) :
    operator.token < grammar.terminalCount :=
  shape.terminals _ (List.mem_cons_of_mem _ (List.mem_map_of_mem listed))

theorem start_ne_atom (shape : grammar.IsOperatorGrammar atom operators) :
    grammar.start ≠ atom :=
  Nat.ne_of_gt (Nat.lt_of_lt_of_le shape.atom_lt shape.numbered.start_range.1)

theorem start_ne_token (shape : grammar.IsOperatorGrammar atom operators)
    {operator : BinaryOperator Nat} (listed : operator ∈ operators) :
    grammar.start ≠ operator.token :=
  Nat.ne_of_gt (Nat.lt_of_lt_of_le (shape.token_lt listed) shape.numbered.start_range.1)

theorem token_ne_atom (shape : grammar.IsOperatorGrammar atom operators)
    {operator : BinaryOperator Nat} (listed : operator ∈ operators) :
    operator.token ≠ atom := by
  have apart := (List.nodup_cons.mp shape.distinct).1
  exact fun same => apart (same ▸ List.mem_map_of_mem listed)

theorem eq_of_token_eq (shape : grammar.IsOperatorGrammar atom operators)
    {first second : BinaryOperator Nat} (listed : first ∈ operators)
    (listedSecond : second ∈ operators) (same : first.token = second.token) : first = second :=
  List.inj_on_of_nodup_map (List.nodup_cons.mp shape.distinct).2 listed listedSecond same

theorem production_cases (shape : grammar.IsOperatorGrammar atom operators) {index : Nat}
    {production : Production} (found : grammar.productions[index]? = some production) :
    production = atomProduction grammar.start atom ∨
      ∃ operator ∈ operators, production = operatorProduction grammar.start operator := by
  have member := shape.productions.mem_iff.mp (Array.mem_toList_iff.mpr (Array.mem_of_getElem? found))
  rcases List.mem_cons.mp member with same | inside
  · exact .inl same
  · obtain ⟨operator, listed, same⟩ := List.mem_map.mp inside
    exact .inr ⟨operator, listed, same.symm⟩

theorem exists_production (shape : grammar.IsOperatorGrammar atom operators)
    {production : Production} (listed : production ∈
      atomProduction grammar.start atom :: operators.map (operatorProduction grammar.start)) :
    ∃ index : Nat, grammar.productions[index]? = some production := by
  have member := Array.mem_toList_iff.mp (shape.productions.mem_iff.mpr listed)
  exact Array.getElem?_of_mem member

theorem exists_atom (shape : grammar.IsOperatorGrammar atom operators) :
    ∃ index : Nat, grammar.productions[index]? = some (atomProduction grammar.start atom) :=
  shape.exists_production List.mem_cons_self

theorem exists_operator (shape : grammar.IsOperatorGrammar atom operators)
    {operator : BinaryOperator Nat} (listed : operator ∈ operators) :
    ∃ index, grammar.IsOperatorAt operators index operator := by
  obtain ⟨index, found⟩ :=
    shape.exists_production (List.mem_cons_of_mem _ (List.mem_map_of_mem listed))
  exact ⟨index, listed, found⟩

/-- No production is there twice. -/
theorem eq_of_production_eq (shape : grammar.IsOperatorGrammar atom operators)
    {first second : Nat} {production : Production}
    (found : grammar.productions[first]? = some production)
    (again : grammar.productions[second]? = some production) : first = second := by
  have tokens : ((operators.map (operatorProduction grammar.start)).map
      fun production => production.rhs[1]?) =
        (operators.map BinaryOperator.token).map some := by
    simp [operatorProduction, Production.rhs]
  have distinct : (operators.map (operatorProduction grammar.start)).Nodup := by
    refine List.Nodup.of_map (fun production => production.rhs[1]?) ?_
    rw [tokens]
    exact (List.nodup_cons.mp shape.distinct).2.map (Option.some_injective _)
  have all : grammar.productions.toList.Nodup := by
    refine shape.productions.nodup_iff.mpr (List.nodup_cons.mpr ⟨?_, distinct⟩)
    simp [atomProduction, operatorProduction]
  rw [← Array.getElem?_toList] at found again
  exact (List.getElem?_inj (List.getElem?_eq_some_iff.mp found).1 all).mp (found.trans again.symm)

theorem index_lt (_ : grammar.IsOperatorGrammar atom operators) {index : Nat}
    {operator : BinaryOperator Nat} (isOperator : grammar.IsOperatorAt operators index operator) :
    index < grammar.productions.size :=
  (Array.getElem?_eq_some_iff.mp isOperator.found).1

theorem symbols_atom (_ : grammar.IsOperatorGrammar atom operators) {index : Nat}
    (found : grammar.productions[index]? = some (atomProduction grammar.start atom)) :
    grammar.items.symbols index = [atom] :=
  items_symbols found

theorem symbols_operator (_ : grammar.IsOperatorGrammar atom operators) {index : Nat}
    {operator : BinaryOperator Nat} (isOperator : grammar.IsOperatorAt operators index operator) :
    grammar.items.symbols index = [grammar.start, operator.token, grammar.start] :=
  items_symbols isOperator.found

theorem reads_of_next? (shape : grammar.IsOperatorGrammar atom operators) {item : Item}
    {symbol : Nat} (next : grammar.items.next? item = some symbol) :
    grammar.Reads atom operators item symbol := by
  obtain ⟨index, dot⟩ := item
  simp only [ItemGrammar.next?] at next
  rcases Nat.lt_trichotomy index grammar.productions.size with inside | same | beyond
  · have found := Array.getElem?_eq_getElem inside
    rcases shape.production_cases found with isAtom | ⟨operator, listed, isOperator⟩
    · rw [isAtom] at found
      rw [shape.symbols_atom found] at next
      cases dot with
      | zero =>
          obtain rfl : atom = symbol := by simpa using next
          exact .atom found
      | succ dot => simp at next
    · rw [isOperator] at found
      rw [shape.symbols_operator ⟨listed, found⟩] at next
      cases dot with
      | zero =>
          obtain rfl : grammar.start = symbol := by simpa using next
          exact .left ⟨listed, found⟩
      | succ dot =>
          cases dot with
          | zero =>
              obtain rfl : operator.token = symbol := by simpa using next
              exact .operator ⟨listed, found⟩
          | succ dot =>
              cases dot with
              | zero =>
                  obtain rfl : grammar.start = symbol := by simpa using next
                  exact .right ⟨listed, found⟩
              | succ dot => simp at next
  · subst same
    rw [items_symbols_start] at next
    cases dot with
    | zero =>
        obtain rfl : grammar.start = symbol := by simpa using next
        exact .start
    | succ dot => simp at next
  · simp [items_symbols_beyond beyond] at next

theorem next?_of_reads (shape : grammar.IsOperatorGrammar atom operators) {item : Item}
    {symbol : Nat} (reads : grammar.Reads atom operators item symbol) :
    grammar.items.next? item = some symbol := by
  cases reads with
  | start => simp [ItemGrammar.next?, items_symbols_start]
  | atom found => simp [ItemGrammar.next?, shape.symbols_atom found]
  | left isOperator => simp [ItemGrammar.next?, shape.symbols_operator isOperator]
  | operator isOperator => simp [ItemGrammar.next?, shape.symbols_operator isOperator]
  | right isOperator => simp [ItemGrammar.next?, shape.symbols_operator isOperator]

theorem isCompleteItem_iff (shape : grammar.IsOperatorGrammar atom operators) {item : Item} :
    grammar.isCompleteItem grammar.productions.size item = true ↔
      grammar.Completes atom operators item := by
  obtain ⟨index, dot⟩ := item
  constructor
  · intro complete
    simp only [isCompleteItem] at complete
    split at complete
    case isTrue same =>
        obtain rfl := same
        obtain rfl : dot = 1 := by simpa using complete
        exact .start
    case isFalse =>
        obtain ⟨production, found, ends⟩ := (Option.any_eq_true _ _).mp complete
        obtain rfl : dot = production.steps.length := by simpa using ends
        rcases shape.production_cases found with rfl | ⟨operator, listed, rfl⟩
        · exact .atom found
        · exact .operator ⟨listed, found⟩
  · intro completes
    cases completes with
    | start => simp [isCompleteItem]
    | atom found =>
        have bound := (Array.getElem?_eq_some_iff.mp found).1
        simp [isCompleteItem, Nat.ne_of_lt bound, found, atomProduction]
    | operator isOperator =>
        have bound := shape.index_lt isOperator
        simp [isCompleteItem, Nat.ne_of_lt bound, isOperator.found, operatorProduction]

/-! ## Completed items -/

/-- The symbol read last, as the items of a state tell it. -/
theorem head?_of_hasItem (shape : grammar.IsOperatorGrammar atom operators)
    {path : List (Nat × Nat)} (isPath : grammar.automaton.Path path) {index dot symbol : Nat}
    (has : grammar.automaton.HasItem (Automaton.pathEnd path) ⟨index, dot + 1⟩)
    (reads : grammar.Reads atom operators ⟨index, dot⟩ symbol) :
    (path.map Prod.fst).head? = some symbol := by
  cases isPath with
  | start =>
      obtain ⟨short, _⟩ := path_of_hasItem shape.numbered .start has
      simp at short
  | step before edge =>
      obtain ⟨_, next⟩ := hasItem_retreat shape.numbered edge has
      rw [shape.next?_of_reads reads] at next
      simpa using next.symm

/-- A state completes at most one item. -/
theorem eq_of_completes (shape : grammar.IsOperatorGrammar atom operators) {place : Nat}
    {first second : Item} (has : grammar.automaton.HasItem place first)
    (completes : grammar.Completes atom operators first)
    (hasSecond : grammar.automaton.HasItem place second)
    (completesSecond : grammar.Completes atom operators second) : first = second := by
  obtain ⟨state, found, _⟩ := id has
  obtain ⟨path, isPath, rfl⟩ :=
    exists_path shape.numbered (Array.getElem?_eq_some_iff.mp found).1
  have last {index : Nat} (has : grammar.automaton.HasItem (Automaton.pathEnd path) ⟨index, 1⟩)
      {symbol : Nat} (reads : grammar.Reads atom operators ⟨index, 0⟩ symbol) :=
    shape.head?_of_hasItem isPath has reads
  have behind {index : Nat} {operator : BinaryOperator Nat}
      (isOperator : grammar.IsOperatorAt operators index operator)
      (has : grammar.automaton.HasItem (Automaton.pathEnd path) ⟨index, 3⟩) :=
    shape.head?_of_hasItem isPath has (.right isOperator)
  have alone (has : grammar.automaton.HasItem (Automaton.pathEnd path)
        ⟨grammar.productions.size, 1⟩)
      {index : Nat} (other : grammar.automaton.HasItem (Automaton.pathEnd path) ⟨index, 3⟩) :
      False := by
    obtain ⟨target, rfl⟩ := path_of_accept shape.numbered isPath has
    obtain ⟨short, _⟩ := path_of_hasItem shape.numbered isPath other
    simp at short
  cases completes with
  | start =>
      cases completesSecond with
      | start => rfl
      | atom found =>
          have same := (last has .start).symm.trans (last hasSecond (.atom found))
          exact absurd (Option.some.inj same) shape.start_ne_atom
      | operator => exact (alone has hasSecond).elim
  | atom found =>
      cases completesSecond with
      | start =>
          have same := (last hasSecond .start).symm.trans (last has (.atom found))
          exact absurd (Option.some.inj same) shape.start_ne_atom
      | atom again => rw [shape.eq_of_production_eq found again]
      | operator isOperator =>
          have same := (behind isOperator hasSecond).symm.trans (last has (.atom found))
          exact absurd (Option.some.inj same) shape.start_ne_atom
  | operator isOperator =>
      cases completesSecond with
      | start => exact (alone hasSecond has).elim
      | atom found =>
          have same := (behind isOperator has).symm.trans (last hasSecond (.atom found))
          exact absurd (Option.some.inj same) shape.start_ne_atom
      | operator other =>
          obtain ⟨_, symbols, _⟩ := path_of_hasItem shape.numbered isPath has
          obtain ⟨_, symbolsOther, _⟩ := path_of_hasItem shape.numbered isPath hasSecond
          rw [shape.symbols_operator isOperator] at symbols
          rw [symbols, shape.symbols_operator other] at symbolsOther
          simp only [List.take_succ_cons, List.take_zero, List.cons.injEq, true_and, and_true]
            at symbolsOther
          obtain rfl := shape.eq_of_token_eq isOperator.listed other.listed symbolsOther
          rw [shape.eq_of_production_eq isOperator.found other.found]

/-- Nothing starts where an item is completed. -/
theorem not_hasItem_start_of_completes (shape : grammar.IsOperatorGrammar atom operators)
    {place : Nat} {item : Item} (has : grammar.automaton.HasItem place item)
    (completes : grammar.Completes atom operators item) (index : Nat) :
    ¬ grammar.automaton.HasItem place ⟨index, 0⟩ := by
  intro starts
  obtain ⟨state, found, _⟩ := id has
  obtain ⟨path, isPath, rfl⟩ :=
    exists_path shape.numbered (Array.getElem?_eq_some_iff.mp found).1
  have later : Automaton.pathEnd path ≠ 0 := by
    intro first
    rw [first] at has
    have short := (path_of_hasItem shape.numbered .start has).1
    cases completes <;> simp at short
  obtain ⟨other, symbol, hasOther, moved, next, nonterminal⟩ :=
    exists_moved_of_start shape.numbered later starts
  cases shape.reads_of_next? next with
  | start => exact absurd moved (Nat.lt_irrefl 0)
  | atom => exact absurd moved (Nat.lt_irrefl 0)
  | left => exact absurd moved (Nat.lt_irrefl 0)
  | operator isOperator =>
      exact absurd nonterminal (Nat.not_le.mpr (shape.token_lt isOperator.listed))
  | right isOperator =>
      -- the operator was read last, and nothing ends with an operator
      have last := shape.head?_of_hasItem isPath hasOther (.operator isOperator)
      cases completes with
      | start =>
          have same := (shape.head?_of_hasItem isPath has .start).symm.trans last
          exact shape.start_ne_token isOperator.listed (Option.some.inj same)
      | atom found =>
          have same := (shape.head?_of_hasItem isPath has (.atom found)).symm.trans last
          exact shape.token_ne_atom isOperator.listed (Option.some.inj same).symm
      | operator ends =>
          have same := (shape.head?_of_hasItem isPath has (.right ends)).symm.trans last
          exact shape.start_ne_token isOperator.listed (Option.some.inj same)

/-- Where something is completed, only an operator can be read, and only behind an operand. -/
theorem operator_of_edge (shape : grammar.IsOperatorGrammar atom operators) {place symbol : Nat}
    {item reader : Item} (has : grammar.automaton.HasItem place item)
    (completes : grammar.Completes atom operators item)
    (hasReader : grammar.automaton.HasItem place reader)
    (next : grammar.items.next? reader = some symbol) (terminal : symbol < grammar.terminalCount) :
    (∃ index operator, grammar.IsOperatorAt operators index operator ∧ reader = ⟨index, 1⟩ ∧
      symbol = operator.token) ∧
    (item.production = grammar.productions.size ∨
      ∃ index operator, grammar.IsOperatorAt operators index operator ∧ item = ⟨index, 3⟩) := by
  have nonterminal := shape.numbered.start_range.1
  cases shape.reads_of_next? next with
  | start => exact absurd terminal (Nat.not_lt.mpr nonterminal)
  | atom => exact absurd hasReader (shape.not_hasItem_start_of_completes has completes _)
  | left => exact absurd terminal (Nat.not_lt.mpr nonterminal)
  | right => exact absurd terminal (Nat.not_lt.mpr nonterminal)
  | operator isOperator =>
      refine ⟨⟨_, _, isOperator, rfl, rfl⟩, ?_⟩
      cases completes with
      | start => exact .inl rfl
      | operator ends => exact .inr ⟨_, _, ends, rfl⟩
      | atom found =>
          obtain ⟨state, placed, _⟩ := id has
          obtain ⟨path, isPath, rfl⟩ :=
            exists_path shape.numbered (Array.getElem?_eq_some_iff.mp placed).1
          have same := (shape.head?_of_hasItem isPath hasReader (.left isOperator)).symm.trans
            (shape.head?_of_hasItem isPath has (.atom found))
          exact absurd (Option.some.inj same) shape.start_ne_atom

end IsOperatorGrammar

end FlatGrammar

end Lalr
