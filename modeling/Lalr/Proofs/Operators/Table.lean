import Lalr.Proofs.Automaton.Precedence
import Lalr.Proofs.Operators.States

set_option autoImplicit false

/-!
The table of a grammar of binary operators. Every cell is settled, and the automaton is small.
-/

namespace Lalr

theorem filterMap_eq_singleton {α β : Type} {select : α → Option β} {items : List α} {item : α}
    {value : β} (distinct : items.Nodup) (member : item ∈ items) (selected : select item = some value)
    (only : ∀ other ∈ items, select other ≠ none → other = item) :
    items.filterMap select = [value] := by
  obtain ⟨before, behind, rfl⟩ := List.append_of_mem member
  obtain ⟨_, apart, separate⟩ := List.nodup_append.mp distinct
  have before_none : before.filterMap select = [] :=
    List.filterMap_eq_nil_iff.mpr fun other inside => by
      by_contra some
      have same := only other (List.mem_append_left _ inside) some
      exact separate other inside item List.mem_cons_self same
  have behind_none : behind.filterMap select = [] :=
    List.filterMap_eq_nil_iff.mpr fun other inside => by
      by_contra some
      have same := only other (List.mem_append_right _ (List.mem_cons_of_mem _ inside)) some
      exact (List.nodup_cons.mp apart).1 (same ▸ inside)
  rw [List.filterMap_append, before_none, List.filterMap_cons_some selected, behind_none]
  rfl

namespace FlatGrammar

variable {grammar : FlatGrammar}

/-! ## Settling one competition -/

theorem strongestReductions_single {production : Nat} :
    grammar.strongestReductions [production] = [production] := by
  simp [strongestReductions]

theorem resolve_alone {state terminal production : Nat} {items : List Item} :
    grammar.resolve state terminal items none [production] =
      (some (.reduce production), none) := by
  simp [resolve, afterPrecedence, strongestReductions_single]

/-- An operator that is read behind an operand of another one goes against the reduction of that
one if it belongs to its right operand. -/
theorem outcome_operator {operators : List (BinaryOperator Nat)} {index : Nat}
    {operator : BinaryOperator Nat} (isOperator : grammar.IsOperatorAt operators index operator)
    (value : Int32) :
    grammar.outcome (value, value) index =
      if operator.rightMinimum ≤ value.toInt then .shiftWins else .reduceWins := by
  have precedence : grammar.precedenceOf index = operator.level := by
    simp [precedenceOf, isOperator.found, operatorProduction, Production.precedence]
  have associativity : grammar.associativityOf index = some operator.associativity := by
    simp [associativityOf, isOperator.found, operatorProduction, Production.associativity]
  simp only [outcome, precedence, associativity, Int32.lt_iff_toInt_lt, ← Int32.toInt_inj,
    BinaryOperator.rightMinimum_le_iff]
  rcases Int.lt_trichotomy value.toInt operator.level.toInt with lesser | same | greater
  · rw [if_pos lesser, if_neg (by omega)]
  · rw [same, if_neg (Int.lt_irrefl _), if_neg (Int.lt_irrefl _), if_pos ⟨rfl, rfl⟩]
    cases operator.associativity <;> simp
  · rw [if_neg (by omega), if_pos greater, if_pos (.inl greater)]

theorem resolve_operator {operators : List (BinaryOperator Nat)} {index target : Nat}
    {operator : BinaryOperator Nat} (isOperator : grammar.IsOperatorAt operators index operator)
    {state terminal : Nat} {items : List Item} {value : Int32}
    (range : grammar.shiftPrecedence (grammar.shiftItems items terminal) = (value, value)) :
    grammar.resolve state terminal items (some target) [index] =
      (some (if operator.rightMinimum ≤ value.toInt then .shift target else .reduce index),
        none) := by
  have left : grammar.afterPrecedence (grammar.shiftItems items terminal) (some target) [index] =
      [if operator.rightMinimum ≤ value.toInt then .shift target else .reduce index] := by
    simp only [afterPrecedence, strongestReductions_single, range, List.any_cons, List.any_nil,
      outcome_operator isOperator]
    split <;> simp [outcome_operator isOperator, *]
  simp [resolve, left]

namespace IsOperatorGrammar

variable {atom : Nat} {operators : List (BinaryOperator Nat)} {place : Nat}
  {state : LookaheadState}

/-! ## Cells -/

/-- A completed item may be reduced at each of its lookaheads, and nothing else may. -/
theorem reductionsAt_of_completes (shape : grammar.IsOperatorGrammar atom operators)
    (found : grammar.automaton.states[place]? = some state) {item : Item} {terminal : Nat}
    (completes : grammar.Completes atom operators item)
    (has : grammar.automaton.HasLookahead place item terminal) :
    grammar.reductionsAt grammar.productions.size state.items terminal = [item.production] := by
  obtain ⟨other, again, lookahead, member, contains⟩ := id has
  obtain rfl := Option.some.inj (found.symm.trans again)
  have distinct := nodup_items shape.numbered found
  refine filterMap_eq_singleton distinct.of_map member
    (by simp [contains, shape.isCompleteItem_iff.mpr completes]) ?_
  rintro ⟨rival, rivalLookahead⟩ listed selected
  have rivalCompletes : grammar.Completes atom operators rival := by
    rw [← shape.isCompleteItem_iff]
    simp only [ne_eq, ite_eq_right_iff, reduceCtorEq, imp_false, not_not,
      Bool.and_eq_true] at selected
    exact selected.2
  obtain rfl := shape.eq_of_completes has.hasItem completes
    ⟨state, found, List.mem_map_of_mem listed⟩ rivalCompletes
  exact List.inj_on_of_nodup_map distinct listed member rfl

theorem reductionsAt_eq_nil (shape : grammar.IsOperatorGrammar atom operators)
    (found : grammar.automaton.states[place]? = some state) {terminal : Nat}
    (free : ∀ item, grammar.Completes atom operators item →
      ¬ grammar.automaton.HasLookahead place item terminal) :
    grammar.reductionsAt grammar.productions.size state.items terminal = [] := by
  refine List.eq_nil_iff_forall_not_mem.mpr fun production listed => ?_
  obtain ⟨item, lookahead, member, contains, complete, _⟩ := mem_reductionsAt.mp listed
  exact free item (shape.isCompleteItem_iff.mp complete)
    ⟨state, found, lookahead, member, contains⟩

theorem lookup_eq_none (shape : grammar.IsOperatorGrammar atom operators)
    (found : grammar.automaton.states[place]? = some state) {symbol : Nat}
    (unread : ∀ target, ¬ grammar.automaton.Edge place symbol target) :
    state.transitions.lookup symbol = none := by
  cases read : state.transitions.lookup symbol with
  | none => rfl
  | some target => exact absurd ((lookup_transitions shape.numbered found).mp read) (unread target)

theorem cell_shift (shape : grammar.IsOperatorGrammar atom operators)
    (found : grammar.automaton.states[place]? = some state) {terminal target : Nat}
    (isTerminal : terminal < grammar.terminalCount)
    (edge : grammar.automaton.Edge place terminal target)
    (free : ∀ item, grammar.Completes atom operators item →
      ¬ grammar.automaton.HasLookahead place item terminal) :
    grammar.cell grammar.productions.size place state terminal =
      (.shift target.toUInt32, none) := by
  have listed := (lookup_transitions shape.numbered found).mpr edge
  simp [cell, FlatGrammar.isTerminal, isTerminal, shape.reductionsAt_eq_nil found free, listed]

theorem cell_reduce (shape : grammar.IsOperatorGrammar atom operators)
    (found : grammar.automaton.states[place]? = some state) {item : Item} {terminal : Nat}
    (completes : grammar.Completes atom operators item)
    (has : grammar.automaton.HasLookahead place item terminal)
    (unread : ∀ target, ¬ grammar.automaton.Edge place terminal target) :
    grammar.cell grammar.productions.size place state terminal =
      ((Candidate.reduce item.production).action grammar.productions.size, none) := by
  simp [cell, FlatGrammar.isTerminal, lt_of_hasLookahead shape.numbered has,
    shape.reductionsAt_of_completes found completes has, shape.lookup_eq_none found unread,
    resolve_alone]

/-- Behind the right operand of an operator another operator is shifted or that one reduced, as
their levels say. -/
theorem cell_operator (shape : grammar.IsOperatorGrammar atom operators)
    (found : grammar.automaton.states[place]? = some state) {index : Nat}
    {operator next : BinaryOperator Nat} {target : Nat}
    (isOperator : grammar.IsOperatorAt operators index operator) (listed : next ∈ operators)
    (has : grammar.automaton.HasLookahead place ⟨index, 3⟩ next.token)
    (edge : grammar.automaton.Edge place next.token target) :
    grammar.cell grammar.productions.size place state next.token =
      (if operator.rightMinimum ≤ next.level.toInt then .shift target.toUInt32
        else .reduce index.toUInt32, none) := by
  have completes : grammar.Completes atom operators ⟨index, 3⟩ := .operator isOperator
  have reads := (lookup_transitions shape.numbered found).mpr edge
  have range : grammar.shiftPrecedence
      (grammar.shiftItems (state.items.map Prod.fst) next.token) = (next.level, next.level) := by
    refine shiftPrecedence_eq ?_ ?_
    · obtain ⟨reader, ⟨row, placed, member⟩, behind⟩ := exists_item_of_edge shape.numbered edge
      obtain rfl := Option.some.inj (found.symm.trans placed)
      obtain ⟨⟨other, rival, isRival, rfl, same⟩, _⟩ := shape.operator_of_edge has.hasItem
        completes ⟨state, found, member⟩ behind (shape.token_lt listed)
      refine ⟨_, List.mem_filter.mpr ⟨member, ?_⟩, Nat.one_ne_zero⟩
      simp [stepAt?, isRival.found, operatorProduction, same]
    · intro reader member _
      obtain ⟨inside, stepped⟩ := List.mem_filter.mp member
      obtain ⟨step, behind, same⟩ := (Option.any_eq_true _ _).mp stepped
      obtain ⟨production, placed, there⟩ := Option.bind_eq_some_iff.mp behind
      have reading : grammar.items.next? reader = some next.token := by
        rw [ItemGrammar.next?, items_symbols placed, Production.rhs, List.getElem?_map, there]
        exact congrArg some (beq_iff_eq.mp same)
      obtain ⟨⟨other, rival, isRival, rfl, token⟩, _⟩ := shape.operator_of_edge has.hasItem
        completes ⟨state, found, inside⟩ reading (shape.token_lt listed)
      obtain rfl := shape.eq_of_token_eq listed isRival.listed token
      simp [stepAt?, isRival.found, operatorProduction]
  have bound := shape.index_lt isOperator
  simp only [cell, FlatGrammar.isTerminal, shape.token_lt listed, decide_true, if_true,
    shape.reductionsAt_of_completes found completes has, reads, resolve_operator isOperator range]
  split <;> simp [Candidate.action, Nat.ne_of_lt bound]

/-- Nothing competes that levels and associativities do not settle. -/
theorem cell_settled (shape : grammar.IsOperatorGrammar atom operators)
    (found : grammar.automaton.states[place]? = some state) (symbol : Nat) :
    (grammar.cell grammar.productions.size place state symbol).2 = none := by
  by_cases terminal : symbol < grammar.terminalCount
  case neg => simp [cell, FlatGrammar.isTerminal, terminal]
  case pos =>
      by_cases reducible : ∃ item, grammar.Completes atom operators item ∧
          grammar.automaton.HasLookahead place item symbol
      case neg =>
          have free := shape.reductionsAt_eq_nil found fun item completes has =>
            reducible ⟨item, completes, has⟩
          simp [cell, FlatGrammar.isTerminal, terminal, free]
      case pos =>
          obtain ⟨item, completes, has⟩ := reducible
          by_cases read : ∃ target, grammar.automaton.Edge place symbol target
          case neg =>
              rw [shape.cell_reduce found completes has fun target edge => read ⟨target, edge⟩]
          case pos =>
              obtain ⟨target, edge⟩ := read
              obtain ⟨reader, hasReader, next⟩ := exists_item_of_edge shape.numbered edge
              obtain ⟨⟨other, rival, isRival, rfl, rfl⟩, starts | ⟨index, operator, ends, rfl⟩⟩ :=
                shape.operator_of_edge has.hasItem completes hasReader next terminal
              · -- the start production only ends at the end of the input, which is never read
                obtain ⟨production, dot⟩ := item
                obtain rfl := starts
                have final := eq_end_of_hasLookahead_start shape.numbered has
                have positive := (edge_symbol_range shape.numbered edge).1
                exact absurd positive (final ▸ Nat.lt_irrefl 0)
              · rw [shape.cell_operator found ends isRival.listed has edge]

/-- The table has no conflicts. -/
theorem exists_actionTable (shape : grammar.IsOperatorGrammar atom operators) :
    ∃ actions, actionTable grammar grammar.automaton = .ok actions := by
  have settled : (grammar.cells grammar.automaton).filterMap Prod.snd = [] := by
    refine List.filterMap_eq_nil_iff.mpr fun cell member => ?_
    obtain ⟨⟨state, place⟩, listed, row⟩ := List.mem_flatMap.mp member
    obtain ⟨symbol, _, rfl⟩ := List.mem_map.mp row
    have found := List.mk_mem_zipIdx_iff_getElem?.mp listed
    rw [Array.getElem?_toList] at found
    rw [automaton_startProduction]
    exact shape.cell_settled found symbol
  exact ⟨((grammar.cells grammar.automaton).map Prod.fst).toArray,
    by simp only [actionTable, settled, distinctReports, List.foldl_nil, List.reverse_nil]⟩

/-! ## The number of states -/

theorem eq_of_reads (shape : grammar.IsOperatorGrammar atom operators) {first second : Item}
    {symbol : Nat} (terminal : symbol < grammar.terminalCount)
    (reads : grammar.Reads atom operators first symbol)
    (readsSecond : grammar.Reads atom operators second symbol) : first = second := by
  have nonterminal := Nat.not_lt.mpr shape.numbered.start_range.1
  cases reads with
  | start | left | right => exact absurd terminal nonterminal
  | atom found =>
      generalize same : atom = symbol at readsSecond
      cases readsSecond with
      | start | left | right => exact absurd shape.atom_lt (same ▸ nonterminal)
      | atom again => rw [shape.eq_of_production_eq found (same ▸ again)]
      | operator isOperator => exact absurd same.symm (shape.token_ne_atom isOperator.listed)
  | @operator index operator isOperator =>
      generalize same : operator.token = symbol at readsSecond
      cases readsSecond with
      | start | left | right =>
          exact absurd (shape.token_lt isOperator.listed) (same ▸ nonterminal)
      | atom => exact absurd same (shape.token_ne_atom isOperator.listed)
      | operator other =>
          obtain rfl := shape.eq_of_token_eq isOperator.listed other.listed same
          rw [shape.eq_of_production_eq isOperator.found other.found]

/-- All transitions over one terminal lead to one state. -/
theorem target_eq_of_terminal (shape : grammar.IsOperatorGrammar atom operators)
    {source otherSource symbol target otherTarget : Nat} (terminal : symbol < grammar.terminalCount)
    (edge : grammar.automaton.Edge source symbol target)
    (otherEdge : grammar.automaton.Edge otherSource symbol otherTarget) : target = otherTarget := by
  obtain ⟨reader, has, reads⟩ := exists_item_of_edge shape.numbered edge
  obtain ⟨other, otherHas, otherReads⟩ := exists_item_of_edge shape.numbered otherEdge
  have only : ∀ {item : Item}, grammar.items.next? item = some symbol → item = reader :=
    fun readsItem => shape.eq_of_reads terminal (shape.reads_of_next? readsItem)
      (shape.reads_of_next? reads)
  obtain rfl := only otherReads
  refine target_eq_of_readers shape.numbered edge otherEdge fun item readsItem => ?_
  rw [only readsItem]
  exact iff_of_true has otherHas

/-- A later state that leads over a nonterminal was entered over an operator. -/
theorem terminal_of_edge (shape : grammar.IsOperatorGrammar atom operators)
    {path : List (Nat × Nat)} {before place symbol target : Nat}
    (isPath : grammar.automaton.Path ((before, place) :: path))
    (nonterminal : ¬ symbol < grammar.terminalCount)
    (edge : grammar.automaton.Edge place symbol target) : before < grammar.terminalCount := by
  have later : place ≠ 0 := by
    rintro rfl
    cases isPath with
    | step _ into => exact not_edge_zero shape.numbered into
  obtain ⟨⟨index, dot⟩, has, reads⟩ := exists_item_of_edge shape.numbered edge
  obtain ⟨item, other, hasItem, moved, next, large⟩ : ∃ item symbol,
      grammar.automaton.HasItem place item ∧ 0 < item.dot ∧
        grammar.items.next? item = some symbol ∧ grammar.terminalCount ≤ symbol := by
    cases dot with
    | zero => exact exists_moved_of_start shape.numbered later has
    | succ dot => exact ⟨_, _, has, Nat.succ_pos dot, reads, Nat.not_lt.mp nonterminal⟩
  cases shape.reads_of_next? next with
  | start | atom | left => exact absurd moved (Nat.lt_irrefl 0)
  | operator isOperator => exact absurd large (Nat.not_le.mpr (shape.token_lt isOperator.listed))
  | right isOperator =>
      have last := shape.head?_of_hasItem isPath hasItem (.operator isOperator)
      obtain rfl : before = _ := by simpa using last
      exact shape.token_lt isOperator.listed

/-- The last two symbols of a path tell where it ends. -/
theorem pathEnd_eq (shape : grammar.IsOperatorGrammar atom operators)
    {path other : List (Nat × Nat)} (isPath : grammar.automaton.Path path)
    (isOther : grammar.automaton.Path other)
    (same : (path.map Prod.fst).take 2 = (other.map Prod.fst).take 2) :
    Automaton.pathEnd path = Automaton.pathEnd other := by
  cases isPath with
  | start =>
      cases isOther with
      | start => rfl
      | step => simp at same
  | @step path symbol target before edge =>
      cases isOther with
      | start => simp at same
      | @step other _ otherTarget otherBefore otherEdge =>
          simp only [List.map_cons, List.take_succ_cons, List.cons.injEq] at same
          obtain ⟨rfl, below⟩ := same
          by_cases terminal : symbol < grammar.terminalCount
          case pos => exact shape.target_eq_of_terminal terminal edge otherEdge
          case neg =>
              have sources : Automaton.pathEnd path = Automaton.pathEnd other := by
                cases before with
                | start =>
                    cases otherBefore with
                    | start => rfl
                    | step => simp at below
                | step early into =>
                    cases otherBefore with
                    | start => simp at below
                    | step otherEarly otherInto =>
                        simp only [List.map_cons, List.take_succ_cons, List.cons.injEq,
                          List.take_zero, and_true] at below
                        obtain rfl := below
                        exact shape.target_eq_of_terminal
                          (shape.terminal_of_edge (early.step into) terminal edge) into otherInto
              exact edge_functional shape.numbered edge (sources ▸ otherEdge)

theorem path_symbol_range (shape : grammar.IsOperatorGrammar atom operators)
    {path : List (Nat × Nat)} (isPath : grammar.automaton.Path path) :
    ∀ symbol ∈ path.map Prod.fst, 0 < symbol ∧ symbol < grammar.tableSymbolCount := by
  induction isPath with
  | start => simp
  | step _ edge ih =>
      rw [List.map_cons, List.forall_mem_cons]
      exact ⟨edge_symbol_range shape.numbered edge, ih⟩

/-- There are no more states than pairs of symbols. -/
theorem size_states_le (shape : grammar.IsOperatorGrammar atom operators) :
    grammar.automaton.states.size ≤ grammar.tableSymbolCount * grammar.tableSymbolCount := by
  have reached := fun place : Fin grammar.automaton.states.size =>
    exists_path shape.numbered place.isLt
  choose path isPath ends using reached
  -- no symbol of a path has the number 0, which stands for none
  have symbol_lt : ∀ place (index : Nat),
      (((path place).map Prod.fst)[index]?).getD 0 < grammar.tableSymbolCount := by
    intro place index
    cases read : ((path place).map Prod.fst)[index]? with
    | none => exact Nat.lt_of_le_of_lt (Nat.zero_le _) shape.numbered.start_range.2
    | some symbol =>
        exact (shape.path_symbol_range (isPath place) symbol (List.mem_of_getElem? read)).2
  have recent : ∀ {place other} {index : Nat},
      (((path place).map Prod.fst)[index]?).getD 0 = (((path other).map Prod.fst)[index]?).getD 0 →
        ((path place).map Prod.fst)[index]? = ((path other).map Prod.fst)[index]? := by
    intro place other index same
    have positive : ∀ {place symbol}, ((path place).map Prod.fst)[index]? = some symbol →
        0 < symbol := fun read =>
      (shape.path_symbol_range (isPath _) _ (List.mem_of_getElem? read)).1
    cases first : ((path place).map Prod.fst)[index]? with
    | none =>
        cases second : ((path other).map Prod.fst)[index]? with
        | none => rfl
        | some symbol =>
            have zero : 0 = symbol := by simpa [first, second] using same
            exact absurd (positive second) (zero ▸ Nat.lt_irrefl 0)
    | some symbol =>
        cases second : ((path other).map Prod.fst)[index]? with
        | none =>
            have zero : symbol = 0 := by simpa [first, second] using same
            exact absurd (positive first) (zero ▸ Nat.lt_irrefl 0)
        | some _ => simpa [first, second] using same
  let code (place : Fin grammar.automaton.states.size) :
      Fin grammar.tableSymbolCount × Fin grammar.tableSymbolCount :=
    (⟨_, symbol_lt place 0⟩, ⟨_, symbol_lt place 1⟩)
  have injective : Function.Injective code := by
    intro place other same
    obtain ⟨last, former⟩ := Prod.mk.inj same
    have take_two : ((path place).map Prod.fst).take 2 = ((path other).map Prod.fst).take 2 := by
      refine List.ext_getElem? fun index => ?_
      match index with
      | 0 => simpa using recent (Fin.mk.inj last)
      | 1 => simpa using recent (Fin.mk.inj former)
      | index + 2 => simp
    exact Fin.ext ((ends place).symm.trans ((shape.pathEnd_eq (isPath place) (isPath other)
      take_two).trans (ends other)))
  simpa using Fintype.card_le_of_injective code injective

end IsOperatorGrammar

end FlatGrammar

end Lalr
