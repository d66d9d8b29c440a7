import Lalr.Generate
import Lalr.Proofs.Automaton.Path

set_option autoImplicit false

/-!
What stands in the action table. However a competition is settled, the action taken is one
of those that compete; so every action of the table is borne out by the items of its state.
-/

namespace Lalr

namespace FlatGrammar

variable (grammar : FlatGrammar)

/-- The actions that compete for a terminal: the shift, if there is one, and the reductions. -/
def candidates (shift : Option Nat) (reductions : List Nat) : List Candidate :=
  shift.toList.map .shift ++ reductions.map .reduce

/-- The actions of a state that compete for a terminal. -/
def candidatesAt (startProduction : Nat) (state : LookaheadState) (terminal : Nat) :
    List Candidate :=
  candidates (state.transitions.lookup terminal)
    (grammar.reductionsAt startProduction state.items terminal)

variable {grammar}

theorem mem_strongestReductions {productions : List Nat} {production : Nat}
    (member : production ∈ grammar.strongestReductions productions) : production ∈ productions :=
  (List.mem_filter.mp member).1

theorem mem_afterPrecedence {items : List Item} {shift : Option Nat} {reductions : List Nat}
    {candidate : Candidate} (member : candidate ∈ grammar.afterPrecedence items shift reductions) :
    candidate ∈ candidates shift reductions := by
  cases shift with
  | none =>
      obtain ⟨production, strong, rfl⟩ := List.mem_map.mp member
      exact List.mem_map_of_mem (mem_strongestReductions strong)
  | some target =>
      rcases List.mem_append.mp member with shifted | kept
      · refine List.mem_append_left _ ?_
        split at shifted
        · exact absurd shifted List.not_mem_nil
        · exact shifted
      · obtain ⟨production, strong, rfl⟩ := List.mem_map.mp kept
        exact List.mem_append_right _ (List.mem_map_of_mem
          (mem_strongestReductions (List.mem_filter.mp strong).1))

theorem mem_of_preferredBy? {items : List Item} {options : List Candidate}
    {entry : List String} {candidate : Candidate}
    (preferred : grammar.preferredBy? items options entry = some candidate) :
    candidate ∈ options := by
  simp only [preferredBy?, Option.bind_eq_bind, Option.bind_eq_some_iff] at preferred
  obtain ⟨ranks, _, least, _, chosen⟩ := preferred
  split at chosen
  · exact List.mem_of_getElem? chosen
  · cases chosen

/-- The action that wins a competition is left when precedence has decided. -/
theorem mem_afterPrecedence_of_resolve {state terminal : Nat} {items : List Item}
    {shift : Option Nat} {reductions : List Nat} {candidate : Candidate}
    (resolved : (grammar.resolve state terminal items shift reductions).1 = some candidate) :
    candidate ∈ grammar.afterPrecedence
      (if shift.isSome then grammar.shiftItems items terminal else []) shift reductions := by
  simp only [resolve] at resolved
  generalize (if shift.isSome = true then grammar.shiftItems items terminal else []) = shiftItems
    at resolved ⊢
  have left : ∀ other ∈ grammar.strongestCandidates shiftItems
      (grammar.afterPrecedence shiftItems shift reductions),
      other ∈ grammar.afterPrecedence shiftItems shift reductions :=
    fun other member => (List.mem_filter.mp member).1
  split at resolved
  case h_1 single remaining =>
      obtain rfl := Option.some.inj resolved
      exact remaining ▸ List.mem_cons_self
  case h_2 =>
      split at resolved
      case h_1 single alone =>
          obtain rfl := Option.some.inj resolved
          exact left _ (alone ▸ List.mem_cons_self)
      case h_2 =>
          split at resolved
          case h_1 preferred found =>
              obtain rfl := Option.some.inj resolved
              obtain ⟨entry, _, chosen⟩ := List.exists_of_findSome?_eq_some found
              exact left _ (mem_of_preferredBy? chosen)
          case h_2 => exact left _ (List.mem_of_head? resolved)

/-- The action that wins a competition took part in it. -/
theorem mem_of_resolve {state terminal : Nat} {items : List Item} {shift : Option Nat}
    {reductions : List Nat} {candidate : Candidate}
    (resolved : (grammar.resolve state terminal items shift reductions).1 = some candidate) :
    candidate ∈ candidates shift reductions :=
  mem_afterPrecedence (mem_afterPrecedence_of_resolve resolved)

/-- A single candidate meets no competition. -/
theorem resolve_single {state terminal production : Nat} {items : List Item} :
    (grammar.resolve state terminal items none [production]).1 = some (.reduce production) := by
  have alone : grammar.strongestReductions [production] = [production] := by
    simp [strongestReductions]
  simp [resolve, afterPrecedence, alone]

theorem mem_reductionsAt {startProduction terminal production : Nat}
    {items : List (Item × TokenSet)} :
    production ∈ grammar.reductionsAt startProduction items terminal ↔
      ∃ item lookahead, (item, lookahead) ∈ items ∧ lookahead.contains terminal = true ∧
        grammar.isCompleteItem startProduction item = true ∧ item.production = production := by
  simp only [reductionsAt, List.mem_filterMap, Prod.exists, Option.ite_none_right_eq_some,
    Bool.and_eq_true, Option.some.injEq, and_assoc]

/-- The action of a cell is that of a competing candidate, or leads over a nonterminal. -/
theorem cell_cases (startProduction index : Nat) (state : LookaheadState) (symbol : Nat) :
    let action := (grammar.cell startProduction index state symbol).1
    action = .error ∨
      (grammar.isTerminal symbol = false ∧ ∃ target,
        state.transitions.lookup symbol = some target ∧ action = .goto target.toUInt32) ∨
      (grammar.isTerminal symbol = true ∧
        ∃ candidate ∈ grammar.candidatesAt startProduction state symbol,
          action = candidate.action startProduction) := by
  intro action
  cases terminal : grammar.isTerminal symbol with
  | false =>
      cases found : state.transitions.lookup symbol with
      | none => exact .inl (by simp [action, cell, terminal, found])
      | some target => exact .inr (.inl ⟨rfl, target, rfl, by simp [action, cell, terminal, found]⟩)
  | true =>
      cases reductions : grammar.reductionsAt startProduction state.items symbol with
      | nil =>
          cases found : state.transitions.lookup symbol with
          | none => exact .inl (by simp [action, cell, terminal, reductions, found])
          | some target =>
              refine .inr (.inr ⟨rfl, .shift target, ?_, ?_⟩)
              · simp [candidatesAt, candidates, found]
              · simp [action, cell, terminal, reductions, found, Candidate.action]
      | cons production rest =>
          cases resolved : (grammar.resolve index symbol (state.items.map Prod.fst)
              (state.transitions.lookup symbol) (production :: rest)).1 with
          | none => exact .inl (by simp [action, cell, terminal, reductions, resolved])
          | some candidate =>
              refine .inr (.inr ⟨rfl, candidate, ?_, ?_⟩)
              · rw [candidatesAt, reductions]
                exact mem_of_resolve resolved
              · simp [action, cell, terminal, reductions, resolved]

/-- Where nothing competes, the only candidate is taken. -/
theorem cell_of_single {startProduction index symbol : Nat} {state : LookaheadState}
    {candidate : Candidate} (terminal : grammar.isTerminal symbol = true)
    (single : grammar.candidatesAt startProduction state symbol = [candidate]) :
    (grammar.cell startProduction index state symbol).1 = candidate.action startProduction := by
  simp only [candidatesAt, candidates] at single
  cases found : state.transitions.lookup symbol with
  | some target =>
      simp only [found, Option.toList_some, List.map_cons, List.map_nil, List.cons_append,
        List.nil_append, List.cons.injEq, List.map_eq_nil_iff] at single
      obtain ⟨rfl, none_reduced⟩ := single
      simp [cell, terminal, none_reduced, found, Candidate.action]
  | none =>
      simp only [found, Option.toList_none, List.map_nil, List.nil_append] at single
      obtain ⟨production, reductions, rfl⟩ := List.map_eq_singleton_iff.mp single
      simp [cell, terminal, reductions, found, resolve_single]

/-! ## Rows and columns -/

theorem getElem?_flatMap_rows {α β : Type} {rows : α → List β} {width : Nat} {items : List α}
    (even : ∀ item ∈ items, (rows item).length = width) {row column : Nat}
    (inside : column < width) :
    (items.flatMap rows)[row * width + column]? =
      (items[row]?).bind fun item => (rows item)[column]? := by
  induction items generalizing row with
  | nil => simp
  | cons item items hypothesis =>
      have length := even item List.mem_cons_self
      cases row with
      | zero => simp [List.getElem?_append, length, inside]
      | succ row =>
          have beyond : width ≤ (row + 1) * width + column := by
            rw [Nat.succ_mul]
            omega
          have shifted : (row + 1) * width + column - width = row * width + column := by
            rw [Nat.succ_mul]
            omega
          rw [List.flatMap_cons, List.getElem?_append_right (by omega), length, shifted,
            hypothesis fun other member => even other (List.mem_cons_of_mem _ member)]
          rfl

theorem getElem?_cells {automaton : Automaton} {row column : Nat}
    (inside : column < grammar.tableSymbolCount) :
    (grammar.cells automaton)[row * grammar.tableSymbolCount + column]? =
      (automaton.states[row]?).map fun state =>
        grammar.cell automaton.startProduction row state column := by
  unfold cells
  rw [getElem?_flatMap_rows (by simp) inside]
  cases found : automaton.states[row]? with
  | none => simp [found]
  | some state => simp [found, inside]

end FlatGrammar

/-! ## Generated tables -/

namespace LanguageTables

/-- The states and the productions can be told apart by their numbers of 32 bits. There is
one lexing mode for each state. -/
structure Numbered (tables : LanguageTables) : Prop where
  states : tables.lexModes.size ≤ UInt32.size
  productions : tables.productions.size ≤ UInt32.size

/-- Tables made for a flat grammar, with numbers wide enough for it. -/
structure Represents (tables : LanguageTables) (grammar : FlatGrammar) : Prop where
  numbered : grammar.WellNumbered
  states_le : grammar.automaton.states.size ≤ UInt32.size
  productions_le : grammar.productions.size ≤ UInt32.size
  symbols_le : grammar.tableSymbolCount ≤ 65535
  assembled : ∃ actions, actionTable grammar grammar.automaton = .ok actions ∧
    tables = assemble grammar grammar.automaton.states.size actions

/-- Tables are assembled from the flat grammar and its action table. -/
theorem generate_ok {source : Grammar} {tables : LanguageTables}
    (generated : generate source = .ok tables) :
    ∃ grammar, FlatGrammar.ofGrammar source = .ok grammar ∧
      ∃ actions, actionTable grammar grammar.automaton = .ok actions ∧
        tables = assemble grammar grammar.automaton.states.size actions := by
  obtain ⟨grammar, flattened, generated⟩ := exists_of_bind_eq_ok generated
  refine ⟨grammar, flattened, ?_⟩
  unfold ofFlatGrammar at generated
  dsimp only at generated
  split at generated
  case h_1 actions settled => exact ⟨actions, settled, (Except.ok.inj generated).symm⟩
  case h_2 => cases generated

theorem represents_of_generate {source : Grammar} {tables : LanguageTables}
    {grammar : FlatGrammar} (generated : generate source = .ok tables)
    (flattened : FlatGrammar.ofGrammar source = .ok grammar)
    (few : tables.symbols.size ≤ 65535) (numbered : tables.Numbered) :
    tables.Represents grammar := by
  obtain ⟨other, found, actions, settled, rfl⟩ := generate_ok generated
  obtain rfl := Except.ok.inj (flattened.symm.trans found)
  have ranges := FlatGrammar.wellNumbered_of_ofGrammar flattened
  refine ⟨ranges, ?_, ?_, Nat.le_trans ranges.symbols_le few, actions, settled, rfl⟩
  · simpa [assemble] using numbered.states
  · simpa [assemble] using numbered.productions

namespace Represents

variable {tables : LanguageTables} {grammar : FlatGrammar}

theorem terminalCount_eq (represents : tables.Represents grammar) :
    tables.terminalCount.toNat = grammar.terminalCount := by
  obtain ⟨actions, _, rfl⟩ := represents.assembled
  have range := represents.numbered.start_range
  have bound := represents.symbols_le
  exact UInt64.toNat_ofNat_of_lt' (by simp only [UInt64.size]; omega)

/-- Every terminal has a number of its own. -/
theorem terminalCount_le (represents : tables.Represents grammar) :
    tables.terminalCount.toNat ≤ 65535 := by
  have range := represents.numbered.start_range
  have bound := represents.symbols_le
  rw [represents.terminalCount_eq]
  omega

theorem tableSymbolCount_eq (represents : tables.Represents grammar) :
    tables.tableSymbolCount.toNat = grammar.tableSymbolCount := by
  obtain ⟨actions, _, rfl⟩ := represents.assembled
  have bound := represents.symbols_le
  exact UInt64.toNat_ofNat_of_lt' (by simp only [UInt64.size]; omega)

theorem isTerminal_eq (represents : tables.Represents grammar) (symbol : SymbolId) :
    tables.isTerminal symbol = grammar.isTerminal symbol.toNat := by
  simp [isTerminal, FlatGrammar.isTerminal, represents.terminalCount_eq]

theorem symbol_toNat (represents : tables.Represents grammar) {symbol : Nat}
    (bound : symbol < grammar.tableSymbolCount) : symbol.toUInt16.toNat = symbol := by
  have wide := represents.symbols_le
  exact UInt16.toNat_ofNat_of_lt' (by simp only [UInt16.size]; omega)

/-- The action of a state at a symbol is that of the cell of the automaton. -/
theorem action_eq (represents : tables.Represents grammar) (state : StateId)
    (symbol : SymbolId) :
    tables.action state symbol =
      if symbol.toNat < grammar.tableSymbolCount then
        ((grammar.automaton.states[state.toNat]?).map fun found =>
          (grammar.cell grammar.productions.size state.toNat found symbol.toNat).1).getD .error
      else .error := by
  have width := represents.tableSymbolCount_eq
  obtain ⟨actions, settled, rfl⟩ := represents.assembled
  have listed : actions = ((grammar.cells grammar.automaton).map Prod.fst).toArray := by
    simp only [actionTable] at settled
    split at settled
    · exact (Except.ok.inj settled).symm
    · cases settled
  simp only [action, width]
  split
  case isFalse => rfl
  case isTrue inside =>
      simp only [assemble, listed, List.getElem?_toArray, List.getElem?_map,
        FlatGrammar.getElem?_cells inside, FlatGrammar.automaton_startProduction]
      cases grammar.automaton.states[state.toNat]? <;> rfl

/-- A production is stored with the same symbols. -/
theorem exists_production (represents : tables.Represents grammar) {index : Nat}
    {production : Production} (found : grammar.productions[index]? = some production) :
    ∃ info, tables.productions[index]? = some info ∧ info.lhs.toNat = production.lhs ∧
      info.rhs.map UInt16.toNat = production.rhs := by
  have member := Array.mem_of_getElem? found
  have lhs_inside := (represents.numbered.lhs_range production member).2
  have rhs_inside := represents.numbered.rhs_range production member
  obtain ⟨actions, _, same⟩ := id represents.assembled
  refine ⟨_, by rw [same, assemble, Array.getElem?_map, found, Option.map_some],
    represents.symbol_toNat lhs_inside, ?_⟩
  simp only [List.map_map]
  refine (List.map_congr_left fun symbol listed => ?_).trans (List.map_id _)
  exact represents.symbol_toNat (rhs_inside symbol listed).2

theorem production_of_stored (represents : tables.Represents grammar) {index : Nat}
    {info : ProductionInfo} (stored : tables.productions[index]? = some info) :
    ∃ production, grammar.productions[index]? = some production ∧
      info.lhs.toNat = production.lhs ∧ info.rhs.map UInt16.toNat = production.rhs := by
  obtain ⟨actions, _, same⟩ := id represents.assembled
  have size : tables.productions.size = grammar.productions.size := by simp [same, assemble]
  have bound := (Array.getElem?_eq_some_iff.mp stored).1
  have found := Array.getElem?_eq_getElem (size ▸ bound)
  obtain ⟨other, again, lhs, rhs⟩ := represents.exists_production found
  obtain rfl := Option.some.inj (stored.symm.trans again)
  exact ⟨_, found, lhs, rhs⟩

theorem production_toNat (represents : tables.Represents grammar) {index : Nat}
    (bound : index < grammar.productions.size) : index.toUInt32.toNat = index :=
  UInt32.toNat_ofNat_of_lt' (Nat.lt_of_lt_of_le bound represents.productions_le)

theorem target_toNat (represents : tables.Represents grammar) {source symbol target : Nat}
    (edge : grammar.automaton.Edge source symbol target) : target.toUInt32.toNat = target :=
  UInt32.toNat_ofNat_of_lt' (Nat.lt_of_lt_of_le
    (FlatGrammar.lt_of_edge represents.numbered edge).2 represents.states_le)

end Represents

end LanguageTables

namespace FlatGrammar

variable {grammar : FlatGrammar}

/-- The transitions of a state are looked up by their symbols. -/
theorem lookup_transitions (numbered : grammar.WellNumbered) {place symbol target : Nat}
    {state : LookaheadState} (found : grammar.automaton.states[place]? = some state) :
    state.transitions.lookup symbol = some target ↔
      grammar.automaton.Edge place symbol target := by
  obtain ⟨origin, placed, rfl⟩ := automaton_state.mp found
  have bound := (Array.getElem?_eq_some_iff.mp placed).1
  have distinct :=
    ((explored_states numbered).completed place origin bound placed).nodup_keys
  refine (lookup_eq_some_iff_mem distinct).trans ⟨fun member => ⟨_, found, member⟩, ?_⟩
  rintro ⟨other, same, member⟩
  obtain rfl := Option.some.inj (found.symm.trans same)
  exact member

end FlatGrammar

namespace LanguageTables.Represents

variable {tables : LanguageTables} {grammar : FlatGrammar} {state next : StateId}
  {symbol : SymbolId}

/-- What an action of the table rests on. -/
theorem action_cases (represents : tables.Represents grammar) (state : StateId)
    (symbol : SymbolId) :
    tables.action state symbol = .error ∨
      (grammar.isTerminal symbol.toNat = false ∧ ∃ next : StateId,
        grammar.automaton.Edge state.toNat symbol.toNat next.toNat ∧
          tables.action state symbol = .goto next) ∨
      (grammar.isTerminal symbol.toNat = true ∧
        ((∃ next : StateId, grammar.automaton.Edge state.toNat symbol.toNat next.toNat ∧
            tables.action state symbol = .shift next) ∨
          (∃ (id : ProductionId) (production : Production),
            grammar.productions[id.toNat]? = some production ∧
              grammar.automaton.HasLookahead state.toNat ⟨id.toNat, production.steps.length⟩
                symbol.toNat ∧
              tables.action state symbol = .reduce id) ∨
          (grammar.automaton.HasLookahead state.toNat ⟨grammar.productions.size, 1⟩
              symbol.toNat ∧
            tables.action state symbol = .accept))) := by
  rw [represents.action_eq]
  split
  case isFalse => exact .inl rfl
  case isTrue inside =>
      cases found : grammar.automaton.states[state.toNat]? with
      | none => exact .inl rfl
      | some row =>
          simp only [Option.map_some, Option.getD_some]
          rcases grammar.cell_cases grammar.productions.size state.toNat row symbol.toNat with
            error | ⟨nonterminal, target, listed, action⟩ | ⟨terminal, candidate, member, action⟩
          · exact .inl error
          · have edge := (FlatGrammar.lookup_transitions represents.numbered found).mp listed
            refine .inr (.inl ⟨nonterminal, target.toUInt32, ?_, action⟩)
            rwa [represents.target_toNat edge]
          · refine .inr (.inr ⟨terminal, ?_⟩)
            rcases List.mem_append.mp member with shifted | reduced
            · obtain ⟨target, listed, rfl⟩ := List.mem_map.mp shifted
              have edge := (FlatGrammar.lookup_transitions represents.numbered found).mp
                (Option.mem_toList.mp listed)
              refine .inl ⟨target.toUInt32, ?_, action⟩
              rwa [represents.target_toNat edge]
            · obtain ⟨index, listed, rfl⟩ := List.mem_map.mp reduced
              obtain ⟨⟨index, dot⟩, lookahead, inside, contains, complete, rfl⟩ :=
                FlatGrammar.mem_reductionsAt.mp listed
              have has : grammar.automaton.HasLookahead state.toNat ⟨index, dot⟩ symbol.toNat :=
                ⟨row, found, lookahead, inside, contains⟩
              by_cases start : index = grammar.productions.size
              · subst start
                obtain rfl : dot = 1 := by simpa [FlatGrammar.isCompleteItem] using complete
                exact .inr (.inr ⟨has, by simpa [Candidate.action] using action⟩)
              · simp only [FlatGrammar.isCompleteItem, start, if_false, Option.any_eq_true,
                  beq_iff_eq] at complete
                obtain ⟨production, placed, rfl⟩ := complete
                have bound := (Array.getElem?_eq_some_iff.mp placed).1
                have same := represents.production_toNat bound
                refine .inr (.inl ⟨index.toUInt32, production, by rwa [same], by rwa [same], ?_⟩)
                simpa [Candidate.action, start] using action

theorem edge_of_shift (represents : tables.Represents grammar)
    (action : tables.action state symbol = .shift next) :
    grammar.isTerminal symbol.toNat = true ∧
      grammar.automaton.Edge state.toNat symbol.toNat next.toNat := by
  rcases represents.action_cases state symbol with
    error | ⟨_, _, _, goto⟩ | ⟨terminal, ⟨_, edge, shift⟩ | ⟨_, _, _, _, reduce⟩ | ⟨_, accept⟩⟩
  · cases action.symm.trans error
  · cases action.symm.trans goto
  · obtain rfl := Action.shift.inj (action.symm.trans shift)
    exact ⟨terminal, edge⟩
  · cases action.symm.trans reduce
  · cases action.symm.trans accept

/-- The end of the input is never shifted. -/
theorem ne_end_of_shift (represents : tables.Represents grammar)
    (action : tables.action state symbol = .shift next) : symbol ≠ endSymbol := by
  rintro rfl
  have edge := (represents.edge_of_shift action).2
  have range := FlatGrammar.edge_symbol_range represents.numbered edge
  exact absurd range.1 (Nat.lt_irrefl 0)

theorem hasItem_of_reduce (represents : tables.Represents grammar) {id : ProductionId}
    (action : tables.action state symbol = .reduce id) :
    ∃ production, grammar.productions[id.toNat]? = some production ∧
      grammar.automaton.HasItem state.toNat ⟨id.toNat, production.steps.length⟩ := by
  rcases represents.action_cases state symbol with
    error | ⟨_, _, _, goto⟩ |
      ⟨_, ⟨_, _, shift⟩ | ⟨other, production, found, has, reduce⟩ | ⟨_, accept⟩⟩
  · cases action.symm.trans error
  · cases action.symm.trans goto
  · cases action.symm.trans shift
  · obtain rfl := Action.reduce.inj (action.symm.trans reduce)
    exact ⟨production, found, has.hasItem⟩
  · cases action.symm.trans accept

theorem hasLookahead_of_accept (represents : tables.Represents grammar)
    (action : tables.action state symbol = .accept) :
    grammar.automaton.HasLookahead state.toNat ⟨grammar.productions.size, 1⟩
      symbol.toNat := by
  rcases represents.action_cases state symbol with
    error | ⟨_, _, _, goto⟩ | ⟨_, ⟨_, _, shift⟩ | ⟨_, _, _, _, reduce⟩ | ⟨has, _⟩⟩
  · cases action.symm.trans error
  · cases action.symm.trans goto
  · cases action.symm.trans shift
  · cases action.symm.trans reduce
  · exact has

/-- Over a nonterminal the table leads where the automaton does. -/
theorem goto?_eq_some_iff (represents : tables.Represents grammar) :
    tables.goto? state symbol = some next ↔
      grammar.isTerminal symbol.toNat = false ∧
        grammar.automaton.Edge state.toNat symbol.toNat next.toNat := by
  simp only [goto?]
  constructor
  · intro found
    rcases represents.action_cases state symbol with
      error | ⟨nonterminal, other, edge, goto⟩ |
        ⟨_, ⟨_, _, shift⟩ | ⟨_, _, _, _, reduce⟩ | ⟨_, accept⟩⟩
    · simp [error] at found
    · obtain rfl : other = next := by simpa [goto] using found
      exact ⟨nonterminal, edge⟩
    · simp [shift] at found
    · simp [reduce] at found
    · simp [accept] at found
  · rintro ⟨nonterminal, edge⟩
    obtain ⟨row, found, _⟩ := id edge
    have inside := (FlatGrammar.edge_symbol_range represents.numbered edge).2
    have listed := (FlatGrammar.lookup_transitions represents.numbered found).mpr edge
    have action : tables.action state symbol = .goto next := by
      rw [represents.action_eq, if_pos inside, found]
      simp [FlatGrammar.cell, nonterminal, listed]
    simp [action]

end LanguageTables.Represents

end Lalr
