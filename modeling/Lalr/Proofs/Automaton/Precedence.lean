import Mathlib.Data.Finset.Max
import Lalr.Proofs.Automaton.Propagation
import Lalr.Proofs.Automaton.Reduction
import Lalr.Proofs.Automaton.Table

set_option autoImplicit false

/-!
What competes with accepting, and what precedence settles. Accepting at the end of the input is the
reduction of the start production, which has no precedence; where another reduction is preferred to
it, the table accepts nothing. Where a terminal is read with one precedence, a reduction that the
table prefers is not weaker, and one that it puts behind is not stronger.
-/

namespace Lalr

/-! ## Tables without conflicts -/

theorem distinctReports_eq_nil {conflicts : List Conflict}
    (none : distinctReports conflicts = []) : conflicts = [] := by
  have kept : ∀ (others known : List Conflict), known ≠ [] →
      others.foldl (fun kept conflict =>
        if kept.any conflict.sameReport then kept else conflict :: kept) known ≠ [] := by
    intro others
    induction others with
    | nil => exact fun known some => some
    | cons conflict others ih =>
        intro known some
        rw [List.foldl_cons]
        split
        · exact ih known some
        · exact ih _ (List.cons_ne_nil _ _)
  cases conflicts with
  | nil => rfl
  | cons conflict others =>
      rw [distinctReports, List.reverse_eq_nil_iff, List.foldl_cons] at none
      exact absurd none (kept others _ (List.cons_ne_nil _ _))

/-- In a table that was made every competition is settled. -/
theorem settled_of_actionTable {grammar : FlatGrammar} {automaton : Automaton}
    {actions : Array Action} (made : actionTable grammar automaton = .ok actions)
    {cell : Action × Option Conflict} (member : cell ∈ grammar.cells automaton) :
    cell.2 = none := by
  simp only [actionTable] at made
  split at made
  case h_2 => cases made
  case h_1 reports =>
      have unsettled := distinctReports_eq_nil reports
      rw [List.filterMap_eq_nil_iff] at unsettled
      exact unsettled cell member

namespace FlatGrammar

variable {grammar : FlatGrammar}

/-- How the winner of a settled competition came about. -/
theorem exists_winner {state terminal : Nat} {items : List Item} {shift : Option Nat}
    {reductions : List Nat}
    (settled : (grammar.resolve state terminal items shift reductions).2 = none) :
    ∃ winner, grammar.resolve state terminal items shift reductions = (some winner, none) ∧
      let shiftItems := if shift.isSome then grammar.shiftItems items terminal else []
      let left := grammar.afterPrecedence shiftItems shift reductions
      left = [winner] ∨ (∀ candidate, left ≠ [candidate]) ∧
        (grammar.strongestCandidates shiftItems left = [winner] ∨
          (∀ candidate, grammar.strongestCandidates shiftItems left ≠ [candidate]) ∧
            grammar.conflicts ≠ [] ∧ winner ∈ grammar.strongestCandidates shiftItems left) := by
  revert settled
  unfold resolve
  dsimp only
  generalize (if shift.isSome then grammar.shiftItems items terminal else []) = shiftItems
  split
  case h_1 winner alone => exact fun _ => ⟨winner, rfl, .inl alone⟩
  case h_2 several =>
      split
      case h_1 winner alone => exact fun _ => ⟨winner, rfl, .inr ⟨several, .inl alone⟩⟩
      case h_2 severalStrong =>
          split
          case h_1 winner preferred =>
              obtain ⟨entry, listed, chosen⟩ := List.exists_of_findSome?_eq_some preferred
              exact fun _ => ⟨winner, rfl, .inr ⟨several, .inr ⟨severalStrong,
                List.ne_nil_of_mem listed, mem_of_preferredBy? chosen⟩⟩⟩
          case h_2 => exact fun settled => nomatch settled

/-! ## What is preferred to accepting -/

/-- What can make a reduction win against accepting, which has no precedence. -/
def PreferredToAccepting (grammar : FlatGrammar) (production : Nat) : Prop :=
  0 < grammar.precedenceOf production ∨ 0 < grammar.dynamicPrecedenceOf production ∨
    grammar.conflicts ≠ []

theorem precedenceOf_start : grammar.precedenceOf grammar.productions.size = 0 := by
  simp [precedenceOf]

theorem dynamicPrecedenceOf_start : grammar.dynamicPrecedenceOf grammar.productions.size = 0 := by
  simp [dynamicPrecedenceOf]

theorem mem_strongestReductions_iff {reductions : List Nat} {production : Nat} :
    production ∈ grammar.strongestReductions reductions ↔ production ∈ reductions ∧
      ∀ other ∈ reductions, grammar.precedenceOf other ≤ grammar.precedenceOf production := by
  simp [strongestReductions]

theorem mem_strongestCandidates_iff {items : List Item} {options : List Candidate}
    {candidate : Candidate} :
    candidate ∈ grammar.strongestCandidates items options ↔ candidate ∈ options ∧
      ∀ other ∈ options,
        grammar.candidateStrength items other ≤ grammar.candidateStrength items candidate := by
  simp [strongestCandidates]

/-- Where no symbol can be read, accepting wins unless something is preferred to it. -/
theorem accept_or_preferred {state terminal : Nat} {items : List Item} {reductions : List Nat}
    (competes : grammar.productions.size ∈ reductions)
    (settled : (grammar.resolve state terminal items none reductions).2 = none) :
    ∃ production ∈ reductions,
      grammar.resolve state terminal items none reductions = (some (.reduce production), none) ∧
        (production = grammar.productions.size ∨ grammar.PreferredToAccepting production) := by
  obtain ⟨winner, resolved, origin⟩ := exists_winner settled
  have takesPart := mem_of_resolve (congrArg Prod.fst resolved)
  simp only [candidates, Option.toList_none, List.map_nil, List.nil_append] at takesPart
  obtain ⟨production, listed, rfl⟩ := List.mem_map.mp takesPart
  refine ⟨production, listed, resolved, ?_⟩
  by_contra neither
  simp only [PreferredToAccepting, not_or, Int32.not_lt, ne_eq, Decidable.not_not] at neither
  obtain ⟨other, weak, dynamicWeak, noEntries⟩ := neither
  simp only [Option.isSome_none, Bool.false_eq_true, if_false, afterPrecedence] at origin
  have left : Candidate.reduce production ∈
      (grammar.strongestReductions reductions).map .reduce := by
    rcases origin with alone | ⟨_, alone | ⟨_, _, strong⟩⟩
    · exact alone ▸ List.mem_cons_self
    · exact (mem_strongestCandidates_iff.mp (alone ▸ List.mem_cons_self)).1
    · exact (mem_strongestCandidates_iff.mp strong).1
  -- the winner is no stronger than accepting, which is therefore left as well
  have startLeft : Candidate.reduce grammar.productions.size ∈
      (grammar.strongestReductions reductions).map .reduce := by
    obtain ⟨index, strong, same⟩ := List.mem_map.mp left
    obtain rfl := Candidate.reduce.inj same
    refine List.mem_map_of_mem (mem_strongestReductions_iff.mpr ⟨competes, fun rival member => ?_⟩)
    rw [precedenceOf_start]
    exact Int32.le_trans ((mem_strongestReductions_iff.mp strong).2 rival member) weak
  rcases origin with alone | ⟨_, alone | ⟨_, entries, _⟩⟩
  · rw [alone, List.mem_singleton] at startLeft
    exact other (Candidate.reduce.inj startLeft).symm
  · have strong := (mem_strongestCandidates_iff.mp
      (alone ▸ List.mem_cons_self : Candidate.reduce production ∈ _)).2
    have startStrong := mem_strongestCandidates_iff.mpr ⟨startLeft, fun rival member => by
      rw [candidateStrength, dynamicPrecedenceOf_start]
      exact Int32.le_trans (strong rival member) dynamicWeak⟩
    rw [alone, List.mem_singleton] at startStrong
    exact other (Candidate.reduce.inj startStrong).symm
  · exact entries noEntries

/-! ## The end of the input behind the start symbol -/

/-- Behind the start symbol the end of the input is accepted, unless a reduction of the empty
sequence or of the start symbol alone is preferred. -/
theorem cell_at_acceptance (numbered : grammar.WellNumbered) {actions : Array Action}
    (made : actionTable grammar grammar.automaton = .ok actions) :
    ∃ target state, grammar.automaton.Edge 0 grammar.start target ∧
      grammar.automaton.states[target]? = some state ∧
      ((grammar.cell grammar.productions.size target state endSymbol.toNat).1 = .accept ∨
        ∃ (index : Nat) (production : Production), grammar.productions[index]? = some production ∧
          (production.rhs = [] ∨ production.rhs = [grammar.start]) ∧
          grammar.PreferredToAccepting index ∧
          (grammar.cell grammar.productions.size target state endSymbol.toNat).1 =
            .reduce index.toUInt32) := by
  have next : grammar.items.next? ⟨grammar.productions.size, 0⟩ = some grammar.start := by
    simp [ItemGrammar.next?, items_symbols_start]
  obtain ⟨target, edge, _⟩ := hasItem_advance numbered (hasItem_start numbered) next
  obtain ⟨state, found, lookahead, complete, contains⟩ :=
    hasLookahead_advance numbered edge next (hasLookahead_start numbered)
  refine ⟨target, state, edge, found, ?_⟩
  have terminal : grammar.isTerminal endSymbol.toNat = true := by
    simpa [isTerminal, endSymbol] using numbered.terminals_pos
  have notRead : state.transitions.lookup endSymbol.toNat = none := by
    cases read : state.transitions.lookup endSymbol.toNat with
    | none => rfl
    | some other =>
        have leads := (lookup_transitions numbered found).mp read
        exact absurd (edge_symbol_range numbered leads).1 (Nat.lt_irrefl 0)
  have competes : grammar.productions.size ∈
      grammar.reductionsAt grammar.productions.size state.items endSymbol.toNat :=
    mem_reductionsAt.mpr ⟨_, lookahead, complete, contains,
      by simp [isCompleteItem, Item.advance], rfl⟩
  obtain ⟨first, others, reductions⟩ := List.exists_cons_of_ne_nil (List.ne_nil_of_mem competes)
  have settled : (grammar.cell grammar.productions.size target state endSymbol.toNat).2 = none := by
    have inside : endSymbol.toNat < grammar.tableSymbolCount :=
      Nat.lt_of_lt_of_le numbered.terminals_pos
        (Nat.le_of_lt (Nat.lt_of_le_of_lt numbered.start_range.1 numbered.start_range.2))
    have placed : (grammar.cells grammar.automaton)[
        target * grammar.tableSymbolCount + endSymbol.toNat]? =
        some (grammar.cell grammar.productions.size target state endSymbol.toNat) := by
      rw [getElem?_cells inside, found, Option.map_some, automaton_startProduction]
    exact settled_of_actionTable made (List.mem_of_getElem? placed)
  simp only [cell, terminal, reductions, notRead, if_true] at settled ⊢
  rw [← reductions] at settled ⊢
  obtain ⟨index, listed, resolved, preferred⟩ := accept_or_preferred competes settled
  by_cases accepts : index = grammar.productions.size
  case pos => exact .inl (by simp [resolved, Candidate.action, accepts])
  case neg =>
      obtain ⟨⟨_, dot⟩, _, member, _, whole, rfl⟩ := mem_reductionsAt.mp listed
      simp only [isCompleteItem, accepts, if_false, Option.any_eq_true, beq_iff_eq] at whole
      obtain ⟨production, placed, rfl⟩ := whole
      have isPath : grammar.automaton.Path [(grammar.start, target)] := .step .start edge
      obtain ⟨short, symbols, _⟩ := path_of_complete numbered isPath placed
        ⟨state, found, List.mem_map_of_mem member⟩
      refine .inr ⟨_, production, placed, ?_, preferred.resolve_left accepts,
        by simp [resolved, Candidate.action, accepts]⟩
      cases steps : production.steps with
      | nil => exact .inl (by simp [Production.rhs, steps])
      | cons step rest =>
          rw [← symbols]
          exact .inr (by simp [steps])

end FlatGrammar

namespace FlatGrammar

variable {grammar : FlatGrammar}

/-! ## One competition -/

/-- Steps of one precedence, those at the start of their productions left aside. -/
theorem shiftPrecedence_eq {items : List Item} {value : Int32}
    (someMoved : ∃ item ∈ items, item.dot ≠ 0)
    (each : ∀ item ∈ items, item.dot ≠ 0 →
      (grammar.stepAt? item).map Step.precedence = some value) :
    grammar.shiftPrecedence items = (value, value) := by
  have values : ∀ read ∈ items.filterMap fun item =>
      if item.dot = 0 then none else (grammar.stepAt? item).map Step.precedence, read = value := by
    intro read member
    obtain ⟨item, listed, selected⟩ := List.mem_filterMap.mp member
    split at selected
    case isTrue => cases selected
    case isFalse moved => exact Option.some.inj (selected.symm.trans (each item listed moved))
  obtain ⟨first, listed, moved⟩ := someMoved
  have some_value : value ∈ items.filterMap fun item =>
      if item.dot = 0 then none else (grammar.stepAt? item).map Step.precedence :=
    List.mem_filterMap.mpr ⟨first, listed, by rw [if_neg moved, each first listed moved]⟩
  have folded : ∀ {pick : Int32 → Int32 → Int32}, pick value value = value →
      ∀ {rest : List Int32}, (∀ read ∈ rest, read = value) → rest.foldl pick value = value := by
    intro pick same rest all
    induction rest with
    | nil => rfl
    | cons read rest ih =>
        rw [List.foldl_cons, all read List.mem_cons_self, same]
        exact ih fun other member => all other (List.mem_cons_of_mem _ member)
  unfold shiftPrecedence
  dsimp only
  split
  case h_1 none => exact absurd (none ▸ some_value) List.not_mem_nil
  case h_2 read rest shape =>
      rw [shape, List.forall_mem_cons] at values
      obtain ⟨rfl, all⟩ := values
      rw [folded (show min read read = read from ite_self _) all,
        folded (show max read read = read from ite_self _) all]

theorem exists_strongest (grammar : FlatGrammar) {reductions : List Nat} {production : Nat}
    (listed : production ∈ reductions) :
    ∃ strongest ∈ grammar.strongestReductions reductions,
      grammar.precedenceOf production ≤ grammar.precedenceOf strongest := by
  obtain ⟨strongest, member, greatest⟩ := Finset.exists_max_image reductions.toFinset
    (fun index => (grammar.precedenceOf index).toInt) ⟨production, List.mem_toFinset.mpr listed⟩
  have most : ∀ other ∈ reductions,
      grammar.precedenceOf other ≤ grammar.precedenceOf strongest := fun other inside =>
    Int32.le_iff_toInt_le.mpr (greatest other (List.mem_toFinset.mpr inside))
  refine ⟨strongest, List.mem_filter.mpr ⟨List.mem_toFinset.mp member, ?_⟩, most production listed⟩
  simpa using most

section competition

variable {items : List Item} {target production : Nat} {reductions : List Nat} {value : Int32}
  (range : grammar.shiftPrecedence items = (value, value))

include range

/-- A reduction that is left beside a shift is at least as strong as it. -/
theorem le_of_reduce_left
    (left : .reduce production ∈ grammar.afterPrecedence items (some target) reductions) :
    value ≤ grammar.precedenceOf production := by
  simp only [afterPrecedence, range, List.mem_append, List.mem_map, List.mem_filter] at left
  rcases left with shifted | ⟨index, ⟨_, kept⟩, same⟩
  · split at shifted <;> simp at shifted
  · obtain rfl := Candidate.reduce.inj same
    by_contra weaker
    have weaker := Int32.not_le.mp weaker
    simp [outcome, weaker, Int32.lt_asymm weaker] at kept

/-- A shift that is left beside reductions is at least as strong as they are, and those that are
as strong do not group to the left. -/
theorem le_of_shift_left (left : .shift target ∈ grammar.afterPrecedence items (some target) reductions)
    (listed : production ∈ reductions) :
    grammar.precedenceOf production ≤ value ∧
      (grammar.precedenceOf production = value →
        grammar.associativityOf production ≠ some .left) := by
  simp only [afterPrecedence, range, List.mem_append, List.mem_map, reduceCtorEq, and_false,
    exists_false, or_false] at left
  split at left
  case isTrue => cases left
  case isFalse none_wins =>
      rw [Bool.not_eq_true, List.any_eq_false] at none_wins
      have notStronger : ∀ other ∈ grammar.strongestReductions reductions,
          grammar.precedenceOf other ≤ value := by
        intro other strong
        by_contra stronger
        exact none_wins other strong (by simp [outcome, Int32.not_le.mp stronger])
      obtain ⟨strongest, strong, weaker⟩ := grammar.exists_strongest listed
      refine ⟨Int32.le_trans weaker (notStronger strongest strong), fun same side => ?_⟩
      have alsoStrong : production ∈ grammar.strongestReductions reductions := by
        refine List.mem_filter.mpr ⟨listed, ?_⟩
        simp only [List.all_eq_true, decide_eq_true_eq]
        intro other inside
        have most := (List.mem_filter.mp strong).2
        simp only [List.all_eq_true, decide_eq_true_eq] at most
        exact same ▸ Int32.le_trans (most other inside) (notStronger strongest strong)
      exact none_wins production alsoStrong (by simp [outcome, same, side])

end competition

/-! ## One state -/

/-- What a state reads a terminal with, behind the starts of productions, has one precedence. -/
structure ReadsWith (grammar : FlatGrammar) (place terminal : Nat) (value : Int32) : Prop where
  some_item : ∃ index dot, grammar.automaton.HasItem place ⟨index, dot + 1⟩ ∧
    grammar.items.next? ⟨index, dot + 1⟩ = some terminal
  each : ∀ {index dot : Nat} {production : Production} {step : Step},
    grammar.automaton.HasItem place ⟨index, dot + 1⟩ →
      grammar.productions[index]? = some production → production.steps[dot + 1]? = some step →
        step.symbol = terminal → step.precedence = value

theorem stepAt?_of_next {index dot symbol : Nat}
    (next : grammar.items.next? ⟨index, dot + 1⟩ = some symbol) :
    ∃ production step, grammar.productions[index]? = some production ∧
      production.steps[dot + 1]? = some step ∧ step.symbol = symbol ∧
      grammar.stepAt? ⟨index, dot + 1⟩ = some step := by
  obtain ⟨production, found, read⟩ := exists_production_of_next next
  rw [Production.rhs, List.getElem?_map, Option.map_eq_some_iff] at read
  obtain ⟨step, placed, same⟩ := read
  exact ⟨production, step, found, placed, same, by simp [stepAt?, found, placed]⟩

theorem ReadsWith.shiftPrecedence {place terminal : Nat} {value : Int32}
    (reads : grammar.ReadsWith place terminal value) {row : LookaheadState}
    (found : grammar.automaton.states[place]? = some row) :
    grammar.shiftPrecedence (grammar.shiftItems (row.items.map Prod.fst) terminal) =
      (value, value) := by
  refine shiftPrecedence_eq ?_ ?_
  · obtain ⟨index, dot, ⟨other, placed, member⟩, next⟩ := reads.some_item
    obtain rfl := Option.some.inj (found.symm.trans placed)
    obtain ⟨_, step, _, _, symbol, stepped⟩ := stepAt?_of_next next
    exact ⟨_, List.mem_filter.mpr ⟨member, by simp [stepped, symbol]⟩, Nat.succ_ne_zero dot⟩
  · rintro ⟨index, dot⟩ member moved
    obtain ⟨dot, rfl⟩ := Nat.exists_eq_succ_of_ne_zero moved
    obtain ⟨inside, reading⟩ := List.mem_filter.mp member
    obtain ⟨step, stepped, symbol⟩ := (Option.any_eq_true _ _).mp reading
    obtain ⟨production, placed, there⟩ := Option.bind_eq_some_iff.mp stepped
    rw [stepped, Option.map_some, reads.each ⟨row, found, inside⟩ placed there
      (beq_iff_eq.mp symbol)]

end FlatGrammar

namespace LanguageTables.Represents

open FlatGrammar

variable {tables : LanguageTables} {grammar : FlatGrammar} {state : StateId} {symbol : SymbolId}
  {value : Int32}

/-- Where a terminal is read, the action is the shift or one that precedence has left. -/
theorem action_of_readsWith (represents : tables.Represents grammar)
    (reads : grammar.ReadsWith state.toNat symbol.toNat value)
    (isTerminal : grammar.isTerminal symbol.toNat = true) :
    ∃ row target, grammar.automaton.states[state.toNat]? = some row ∧
      let reductions := grammar.reductionsAt grammar.productions.size row.items symbol.toNat
      let left := grammar.afterPrecedence
        (grammar.shiftItems (row.items.map Prod.fst) symbol.toNat) (some target) reductions
      reductions = [] ∧ tables.action state symbol = .shift target.toUInt32 ∨
        tables.action state symbol = .error ∨
        ∃ candidate ∈ left,
          tables.action state symbol = candidate.action grammar.productions.size := by
  obtain ⟨index, dot, has, next⟩ := reads.some_item
  obtain ⟨target, edge, _⟩ := hasItem_advance represents.numbered has next
  obtain ⟨row, found, _⟩ := id edge
  have listed := (lookup_transitions represents.numbered found).mpr edge
  refine ⟨row, target, found, ?_⟩
  rw [represents.action_eq, if_pos (edge_symbol_range represents.numbered edge).2, found]
  simp only [Option.map_some, Option.getD_some, cell, isTerminal, if_true, listed]
  split
  case h_1 none => exact .inl ⟨none, rfl⟩
  case h_2 reductions _ =>
      cases resolved : (grammar.resolve state.toNat symbol.toNat (row.items.map Prod.fst)
          (some target) (grammar.reductionsAt grammar.productions.size row.items
            symbol.toNat)).1 with
      | none => exact .inr (.inl rfl)
      | some candidate =>
          exact .inr (.inr ⟨candidate, mem_afterPrecedence_of_resolve resolved, rfl⟩)

/-- A production that is reduced where a terminal could be read is at least as strong. -/
theorem le_precedenceOf (represents : tables.Represents grammar)
    (reads : grammar.ReadsWith state.toNat symbol.toNat value)
    (isTerminal : grammar.isTerminal symbol.toNat = true) {id : ProductionId}
    (action : tables.action state symbol = .reduce id) : value ≤ grammar.precedenceOf id.toNat := by
  obtain ⟨row, target, found, ⟨_, shift⟩ | error | ⟨candidate, left, settled⟩⟩ :=
    represents.action_of_readsWith reads isTerminal
  · cases action.symm.trans shift
  · cases action.symm.trans error
  rw [action] at settled
  cases candidate with
  | shift => cases settled
  | reduce production =>
      simp only [Candidate.action] at settled
      split at settled
      case isTrue => cases settled
      case isFalse later =>
          obtain ⟨item, _, _, _, complete, same⟩ := mem_reductionsAt.mp (by
            simpa [candidates] using mem_afterPrecedence left)
          simp only [isCompleteItem, same, later, if_false, Option.any_eq_true] at complete
          obtain ⟨_, placed, _⟩ := complete
          have bound := (Array.getElem?_eq_some_iff.mp placed).1
          rw [Action.reduce.inj settled, represents.production_toNat bound]
          exact le_of_reduce_left (reads.shiftPrecedence found) left

/-- A production that could be reduced where a terminal is shifted is at most as strong; if it is
as strong, it does not group to the left. -/
theorem precedenceOf_le (represents : tables.Represents grammar)
    (reads : grammar.ReadsWith state.toNat symbol.toNat value) {next : StateId}
    (action : tables.action state symbol = .shift next) {index : Nat} {production : Production}
    (placed : grammar.productions[index]? = some production)
    (ends : grammar.automaton.HasLookahead state.toNat ⟨index, production.steps.length⟩
      symbol.toNat) :
    grammar.precedenceOf index ≤ value ∧
      (grammar.precedenceOf index = value → grammar.associativityOf index ≠ some .left) := by
  obtain ⟨row, target, found, settled⟩ :=
    represents.action_of_readsWith reads (represents.edge_of_shift action).1
  have bound := (Array.getElem?_eq_some_iff.mp placed).1
  have competes : index ∈
      grammar.reductionsAt grammar.productions.size row.items symbol.toNat := by
    obtain ⟨other, again, lookahead, member, contains⟩ := ends
    obtain rfl := Option.some.inj (found.symm.trans again)
    exact mem_reductionsAt.mpr ⟨_, lookahead, member, contains,
      by simp [isCompleteItem, Nat.ne_of_lt bound, placed], rfl⟩
  rcases settled with ⟨none, _⟩ | error | ⟨candidate, left, settled⟩
  · exact absurd (none ▸ competes) List.not_mem_nil
  · cases action.symm.trans error
  rw [action] at settled
  cases candidate with
  | reduce =>
      simp only [Candidate.action] at settled
      split at settled <;> cases settled
  | shift other =>
      obtain rfl : other = target := by simpa [candidates] using mem_afterPrecedence left
      exact le_of_shift_left (reads.shiftPrecedence found) left competes

end LanguageTables.Represents

namespace FlatGrammar

variable {grammar : FlatGrammar}

/-! ## Lookaheads -/

/-- A terminal behind an expected nonterminal may follow its productions. -/
theorem hasLookahead_before_terminal (numbered : grammar.WellNumbered) {place index : Nat}
    {item : Item} {production : Production} {terminal : Nat}
    (has : grammar.automaton.HasItem place item)
    (found : grammar.productions[index]? = some production)
    (next : grammar.items.next? item = some production.lhs)
    (behind : (grammar.items.symbols item.production)[item.dot + 1]? = some terminal)
    (isTerminal : terminal < grammar.terminalCount) :
    grammar.automaton.HasLookahead place ⟨index, 0⟩ terminal := by
  obtain ⟨fits, _⟩ := kernelLookaheads_spec numbered
  obtain ⟨kernel, at_place, member⟩ := (hasItem_iff numbered).mp has
  obtain ⟨state, placed, rfl⟩ := kernelAt_eq_some_iff.mp at_place
  have explored := explored_states numbered
  have bound := (Array.getElem?_eq_some_iff.mp placed).1
  have predicted := (explored.completed place state bound placed).predicted
  have isKernel := explored.kernels place _ at_place
  have here := fits.each place state placed
  have expects := expects_of_next numbered member next
    (numbered.lhs_range production (Array.mem_of_getElem? found)).1
  refine (hasLookahead_iff numbered).mpr ⟨state, placed,
    (mem_closure numbered).mpr (.inr ⟨rfl, production, found, expects⟩), ?_⟩
  refine lookaheadOf_closed numbered isKernel predicted here.below here.length member found next ?_
  obtain ⟨inside, same⟩ := List.getElem?_eq_some_iff.mp behind
  have counted : grammar.items.first.terminalCount = grammar.terminalCount :=
    (FirstSets.ofGrammar_fixed grammar).1.terminalCount
  rw [List.drop_eq_getElem_cons inside, same]
  simp [FirstSets.ofSequence, FirstSets.ofSymbol, counted, isTerminal, Beginning.append,
    Beginning.followedBy]

/-- An item whose dot has moved was reached from where its production starts. -/
theorem hasLookahead_of_start (numbered : grammar.WellNumbered) {index terminal : Nat}
    (start : ∀ place, grammar.automaton.HasItem place ⟨index, 0⟩ →
      grammar.automaton.HasLookahead place ⟨index, 0⟩ terminal) {path : List (Nat × Nat)}
    (isPath : grammar.automaton.Path path) {dot : Nat}
    (has : grammar.automaton.HasItem (Automaton.pathEnd path) ⟨index, dot⟩) :
    grammar.automaton.HasLookahead (Automaton.pathEnd path) ⟨index, dot⟩ terminal := by
  induction dot generalizing path with
  | zero => exact start _ has
  | succ dot ih =>
      cases isPath with
      | start =>
          have short := (path_of_hasItem numbered .start has).1
          exact absurd short (Nat.not_succ_le_zero dot)
      | step before edge =>
          obtain ⟨origin, next⟩ := hasItem_retreat numbered edge has
          exact hasLookahead_advance numbered edge next (ih before origin)

end FlatGrammar

end Lalr
