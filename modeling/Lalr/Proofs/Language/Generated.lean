import Lalr.Proofs.Automaton.Precedence
import Lalr.Proofs.FlatGrammar.LexicalTable
import Lalr.Proofs.FlatGrammar.Numbering
import Lalr.Proofs.Language.Loading

set_option autoImplicit false

/-!
Generated tables are consistent. They pass every check of the loader, and the start symbol is
found wherever the end of the input is accepted behind it.
-/

namespace Lalr

theorem require_ok {condition : Bool} {defect : TableDefect} (holds : condition = true) :
    require condition defect = .ok () :=
  if_pos holds

theorem length_eraseDups_le {α : Type} [BEq α] (items : List α) :
    items.eraseDups.length ≤ items.length := by
  induction count : items.length using Nat.strongRecOn generalizing items with
  | ind count ih =>
      cases items with
      | nil => simp
      | cons first rest =>
          have shorter := List.length_filter_le (fun other => !other == first) rest
          rw [List.length_cons] at count
          have inside := ih _ (by omega) (rest.filter fun other => !other == first) rfl
          rw [List.eraseDups_cons, List.length_cons]
          omega

namespace FlatGrammar

theorem length_cells (grammar : FlatGrammar) (automaton : Automaton) :
    (grammar.cells automaton).length = automaton.states.size * grammar.tableSymbolCount := by
  simp [cells, List.length_flatMap]

end FlatGrammar

namespace LanguageTables

namespace Represents

variable {tables : LanguageTables} {grammar : FlatGrammar}

theorem stateCount_eq (represents : tables.Represents grammar) :
    tables.stateCount.toNat = grammar.automaton.states.size := by
  obtain ⟨actions, _, rfl⟩ := represents.assembled
  have bound := represents.states_le
  refine UInt64.toNat_ofNat_of_lt' ?_
  simp only [UInt32.size, UInt64.size] at bound ⊢
  omega

theorem checkSymbol_ok (represents : tables.Represents grammar) {source : Grammar}
    {draft : FlatDraft} (sound : draft.Sound source) (numbering : draft.NumberedAs source grammar)
    (few : tables.symbols.size ≤ 65535) {id : Nat} {info : SymbolInfo}
    (found : tables.symbols[id]? = some info) : tables.checkSymbol id info = .ok () := by
  have width := represents.tableSymbolCount_eq
  have terminals := represents.terminalCount_eq
  have symbols : tables.symbols = grammar.symbols := by
    obtain ⟨actions, _, rfl⟩ := represents.assembled
    rfl
  rw [symbols] at found few
  have range := numbering.hasRange sound found
  obtain ⟨kind, listed, own⟩ := numbering.isCanonical few found
  have inOrder : tables.isInOrder info.kind id = true := by
    simp only [isInOrder, width, terminals]
    cases kinded : info.kind with
    | terminal => simpa [kinded, SymbolKind.HasRange] using range
    | nonterminal => simpa [kinded, SymbolKind.HasRange] using range
    | auxiliary => simpa [kinded, SymbolKind.HasRange] using range
    | aliasOnly => simpa [kinded, SymbolKind.HasRange] using range
  have canonical : tables.isCanonical info.canonical = true := by
    simp [isCanonical, symbols, listed, own]
  rw [checkSymbol, require_ok inOrder, require_ok canonical]
  rfl

/-- The alias sequences that productions refer to. -/
theorem aliasSequence_of_stored (represents : tables.Represents grammar) {index : Nat}
    {info : ProductionInfo} (found : tables.productions[index]? = some info) {place : UInt32}
    (refers : info.aliasSequence = some place) :
    ∃ aliases, tables.aliasSequences[place.toNat]? = some aliases ∧
      aliases.length = info.rhs.length := by
  have few := represents.productions_le
  obtain ⟨actions, _, rfl⟩ := represents.assembled
  simp only [assemble, Array.getElem?_map] at found
  obtain ⟨production, placed, rfl⟩ := Option.map_eq_some_iff.mp found
  obtain ⟨aliases, has, rfl⟩ := Option.map_eq_some_iff.mp refers
  have listed : aliases ∈ (grammar.productions.toList.filterMap Production.aliases?).eraseDups :=
    List.mem_eraseDups.mpr (List.mem_filterMap.mpr ⟨production, by
      simpa using Array.mem_of_getElem? placed, has⟩)
  have short : (grammar.productions.toList.filterMap Production.aliases?).eraseDups.length ≤
      UInt32.size :=
    Nat.le_trans (length_eraseDups_le _) (Nat.le_trans (List.length_filterMap_le _ _)
      (by rwa [Array.length_toList]))
  have bound := List.idxOf_lt_length_of_mem listed
  have kept := UInt32.toNat_ofNat_of_lt' (Nat.lt_of_lt_of_le bound short)
  refine ⟨aliases, ?_, ?_⟩
  · simp only [assemble, Nat.toUInt32, kept, List.getElem?_toArray]
    rw [List.getElem?_eq_getElem bound, List.getElem_idxOf]
  · simp only [Production.aliases?] at has
    split at has
    · simp [← Option.some.inj has, Production.rhs]
    · cases has

theorem field_of_stored (represents : tables.Represents grammar) {source : Grammar}
    {draft : FlatDraft} (numbering : draft.NumberedAs source grammar) {index : Nat}
    {info : ProductionInfo} (found : tables.productions[index]? = some info) :
    info.fields.length = info.rhs.length ∧
      ∀ field, some field ∈ info.fields → field.toNat < tables.fields.size := by
  obtain ⟨actions, _, rfl⟩ := represents.assembled
  simp only [assemble, Array.getElem?_map] at found
  obtain ⟨production, placed, rfl⟩ := Option.map_eq_some_iff.mp found
  refine ⟨by simp [Production.rhs], fun field member => ?_⟩
  obtain ⟨step, listed, same⟩ := List.mem_map.mp member
  obtain ⟨number, named, rfl⟩ := Option.map_eq_some_iff.mp same
  have bound := numbering.fields production (Array.mem_of_getElem? placed) step listed number named
  simp only [assemble, List.size_toArray]
  exact Nat.lt_of_le_of_lt (Nat.mod_le number _) bound

theorem checkProduction_ok (represents : tables.Represents grammar) {source : Grammar}
    {draft : FlatDraft} (numbering : draft.NumberedAs source grammar) {index : Nat}
    {info : ProductionInfo} (found : tables.productions[index]? = some info) :
    tables.checkProduction index info = .ok () := by
  have width := represents.tableSymbolCount_eq
  have terminals := represents.terminalCount_eq
  obtain ⟨production, placed, lhs, rhs⟩ := represents.production_of_stored found
  have member := Array.mem_of_getElem? placed
  obtain ⟨low, high⟩ := represents.numbered.lhs_range production member
  obtain ⟨fieldCount, fieldRange⟩ := represents.field_of_stored numbering found
  have leftSide : (tables.terminalCount.toNat ≤ info.lhs.toNat &&
      info.lhs.toNat < tables.tableSymbolCount.toNat) = true := by
    simp [width, terminals, lhs, low, high]
  have rightSide : (info.rhs.all fun symbol =>
      symbol.toNat < tables.tableSymbolCount.toNat) = true := by
    refine List.all_eq_true.mpr fun symbol listed => ?_
    have inside := List.mem_map_of_mem (f := UInt16.toNat) listed
    rw [rhs] at inside
    simpa [width] using (represents.numbered.rhs_range production member _ inside).2
  have fields : (info.fields.all fun field =>
      field.all fun id => id.toNat < tables.fields.size) = true := by
    refine List.all_eq_true.mpr fun field listed => ?_
    cases field with
    | none => rfl
    | some id => simpa using fieldRange id listed
  unfold checkProduction
  dsimp only
  cases refers : info.aliasSequence with
  | none =>
      rw [require_ok leftSide, require_ok (beq_iff_eq.mpr fieldCount), require_ok rfl,
        require_ok rightSide, require_ok fields]
      rfl
  | some place =>
      obtain ⟨aliases, stored, length⟩ := represents.aliasSequence_of_stored found refers
      rw [require_ok leftSide, require_ok (beq_iff_eq.mpr fieldCount),
        require_ok (by simp [stored, length]), require_ok rightSide, require_ok fields]
      rfl

/-- The actions are those of the cells. -/
theorem actions_eq (represents : tables.Represents grammar) :
    tables.actions = ((grammar.cells grammar.automaton).map Prod.fst).toArray := by
  obtain ⟨actions, made, rfl⟩ := represents.assembled
  simp only [actionTable] at made
  split at made
  case h_1 => exact (Except.ok.inj made).symm
  case h_2 => cases made

/-- Every action of the table refers to a state or a production and stands in a column where it
may stand. -/
theorem isValidAction_cell (represents : tables.Represents grammar) {row column : Nat}
    {state : LookaheadState} (found : grammar.automaton.states[row]? = some state) :
    tables.isValidAction column (grammar.cell grammar.productions.size row state column).1 =
      true := by
  have terminals := represents.terminalCount_eq
  have states := represents.stateCount_eq
  have productions : tables.productions.size = grammar.productions.size := by
    obtain ⟨actions, _, rfl⟩ := represents.assembled
    simp [assemble]
  have target_lt : ∀ {symbol target : Nat}, state.transitions.lookup symbol = some target →
      target.toUInt32.toNat < grammar.automaton.states.size := by
    intro symbol target listed
    have edge := (FlatGrammar.lookup_transitions represents.numbered found).mp listed
    rw [represents.target_toNat edge]
    exact (FlatGrammar.lt_of_edge represents.numbered edge).2
  rcases grammar.cell_cases grammar.productions.size row state column with
    error | ⟨nonterminal, target, listed, action⟩ | ⟨terminal, candidate, member, action⟩
  · rw [error]
    rfl
  · rw [action]
    simp only [FlatGrammar.isTerminal] at nonterminal
    simp only [isValidAction, terminals, states, nonterminal, Bool.not_false, Bool.true_and,
      decide_eq_true_eq]
    exact target_lt listed
  · rw [action]
    simp only [FlatGrammar.isTerminal] at terminal
    rcases List.mem_append.mp member with shifted | reduced
    · obtain ⟨target, listed, rfl⟩ := List.mem_map.mp shifted
      simp only [Candidate.action, isValidAction, terminals, states, terminal, Bool.true_and,
        decide_eq_true_eq]
      exact target_lt (Option.mem_toList.mp listed)
    · obtain ⟨index, listed, rfl⟩ := List.mem_map.mp reduced
      obtain ⟨⟨index, dot⟩, lookahead, inside, contains, complete, rfl⟩ :=
        FlatGrammar.mem_reductionsAt.mp listed
      simp only [Candidate.action]
      split
      case isTrue start =>
          subst start
          have ends := FlatGrammar.eq_end_of_hasLookahead_start represents.numbered
            ⟨state, found, lookahead, inside, contains⟩
          simpa [isValidAction] using ends
      case isFalse other =>
          simp only [FlatGrammar.isCompleteItem, other, if_false, Option.any_eq_true] at complete
          obtain ⟨production, placed, _⟩ := complete
          have bound := (Array.getElem?_eq_some_iff.mp placed).1
          simp [isValidAction, terminals, productions, terminal,
            represents.production_toNat bound, bound]

theorem checkAction_ok (represents : tables.Represents grammar) {index : Nat} {action : Action}
    (found : tables.actions[index]? = some action) : tables.checkAction index action = .ok () := by
  have width := represents.tableSymbolCount_eq
  have wide : 0 < grammar.tableSymbolCount := Nat.zero_lt_of_lt represents.numbered.start_range.2
  have column : index % grammar.tableSymbolCount < grammar.tableSymbolCount := Nat.mod_lt _ wide
  rw [represents.actions_eq, List.getElem?_toArray, List.getElem?_map,
    ← Nat.div_add_mod' index grammar.tableSymbolCount, FlatGrammar.getElem?_cells column] at found
  obtain ⟨cell, placed, rfl⟩ := Option.map_eq_some_iff.mp found
  obtain ⟨state, row, rfl⟩ := Option.map_eq_some_iff.mp placed
  rw [checkAction, placeOfCell, width, if_neg (Nat.ne_of_gt wide)]
  refine require_ok ?_
  rw [FlatGrammar.automaton_startProduction]
  exact represents.isValidAction_cell row

/-- Generated tables with few enough symbols pass every check. -/
theorem validate_eq_ok (represents : tables.Represents grammar) {source : Grammar}
    {draft : FlatDraft} (sound : draft.Sound source) {entered : List String}
    (recognised : draft.Recognised entered) (numbering : draft.NumberedAs source grammar)
    (few : tables.symbols.size ≤ 65535) : tables.validate = .ok () := by
  have width := represents.tableSymbolCount_eq
  have terminals := represents.terminalCount_eq
  have states := represents.stateCount_eq
  have inside := represents.numbered.symbols_le
  obtain ⟨version, symbols, lexical, modes⟩ : tables.version = layoutVersion ∧
      tables.symbols = grammar.symbols ∧ tables.lexical = grammar.lexical ∧
        tables.lexModes.size = grammar.automaton.states.size := by
    obtain ⟨actions, _, rfl⟩ := represents.assembled
    exact ⟨rfl, rfl, rfl, by simp [assemble]⟩
  have counts : (tables.terminalCount != 0 &&
      tables.tableSymbolCount.toNat ≤ tables.symbols.size) = true := by
    have positive := represents.numbered.terminals_pos
    rw [← terminals] at positive
    have nonzero : tables.terminalCount ≠ 0 := by
      intro zero
      simp [zero] at positive
    simp [nonzero, width, symbols, inside]
  have cells : productOf tables.stateCount tables.tableSymbolCount =
      .ok (grammar.automaton.states.size * grammar.tableSymbolCount) := by
    have fits : grammar.automaton.states.size * grammar.tableSymbolCount < UInt64.size :=
      Nat.lt_of_le_of_lt (Nat.mul_le_mul represents.states_le represents.symbols_le) (by decide)
    rw [productOf, states, width, if_pos fits]
  have dimensions : (tables.actions.size ==
      grammar.automaton.states.size * grammar.tableSymbolCount &&
        tables.lexModes.size == tables.stateCount.toNat) = true := by
    simp [represents.actions_eq, grammar.length_cells, states, modes]
  have checked : tables.symbols.toList.zipIdx.forM (fun entry =>
      tables.checkSymbol entry.2 entry.1) = .ok () := forM_ok_of_forall fun entry member =>
    represents.checkSymbol_ok sound numbering few (by
      simpa using List.mk_mem_zipIdx_iff_getElem?.mp member)
  have derived : tables.productions.toList.zipIdx.forM (fun entry =>
      tables.checkProduction entry.2 entry.1) = .ok () :=
    forM_ok_of_forall fun entry member =>
      represents.checkProduction_ok numbering (by
        simpa using List.mk_mem_zipIdx_iff_getElem?.mp member)
  have acted : tables.actions.toList.zipIdx.forM (fun entry =>
      tables.checkAction entry.2 entry.1) = .ok () := forM_ok_of_forall fun entry member =>
    represents.checkAction_ok (by simpa using List.mk_mem_zipIdx_iff_getElem?.mp member)
  have lexed : tables.lexicalSymbols.forM tables.checkLexicalSymbol = .ok () :=
    forM_ok_of_forall fun symbol member => by
      have bound := represents.terminalCount_le
      rw [terminals, numbering.terminalCount] at bound
      obtain ⟨positive, small⟩ := FlatDraft.isToken_of_mem_lexicalSymbols sound recognised bound
        (lexical.trans numbering.lexical) member
      rw [← numbering.terminalCount, ← terminals] at small
      have other : symbol ≠ endSymbol := by
        rintro rfl
        exact absurd positive (Nat.lt_irrefl 0)
      exact require_ok (by simp [isTerminal, small, other])
  unfold validate
  dsimp only
  rw [if_neg (not_not.mpr version),
    require_ok (decide_eq_true (show tables.symbols.size ≤ errorSymbol.toNat from few)),
    require_ok counts, cells, checked, derived, acted, lexed]
  exact congrArg (· >>= fun _ => Except.ok ()) (require_ok dimensions)

/-- What is accepted behind a nonterminal is the start symbol. -/
theorem eq_start_of_accept (represents : tables.Represents grammar) {symbol : SymbolId}
    {next : StateId} (leads : tables.goto? 0 symbol = some next)
    (accepts : tables.action next endSymbol = .accept) : symbol.toNat = grammar.start := by
  have edge := (represents.goto?_eq_some_iff.mp leads).2
  have has := (represents.hasLookahead_of_accept accepts).hasItem
  have isPath : grammar.automaton.Path [(symbol.toNat, next.toNat)] := .step .start edge
  obtain ⟨target, same⟩ := FlatGrammar.path_of_accept represents.numbered isPath has
  exact (Prod.mk.inj (List.cons.inj same).1).1

theorem eq_start_of_startSymbol? (represents : tables.Represents grammar) {symbol : SymbolId}
    (found : tables.startSymbol? = some symbol) : symbol.toNat = grammar.start := by
  have accepting := List.find?_some found
  simp only [Option.any_eq_true, beq_iff_eq] at accepting
  obtain ⟨next, leads, accepts⟩ := accepting
  exact represents.eq_start_of_accept leads accepts

/-- Behind the start symbol the end of the input is accepted, or a reduction of the empty sequence
or of the start symbol alone is preferred. -/
theorem action_behind_start (represents : tables.Represents grammar) {start : SymbolId}
    (starts : start.toNat = grammar.start) :
    ∃ next, tables.goto? 0 start = some next ∧
      (tables.action next endSymbol = .accept ∨
        ∃ id production, tables.action next endSymbol = .reduce id ∧
          tables.productions[id.toNat]? = some production ∧
          (production.rhs = [] ∨ production.rhs = [start]) ∧
          (0 < production.precedence ∨ 0 < production.dynamicPrecedence ∨
            grammar.conflicts ≠ [])) := by
  have numbered := represents.numbered
  obtain ⟨actions, made, same⟩ := represents.assembled
  obtain ⟨target, state, edge, found, outcome⟩ := FlatGrammar.cell_at_acceptance numbered made
  have kept := represents.target_toNat edge
  have leads : tables.goto? 0 start = some target.toUInt32 := by
    refine represents.goto?_eq_some_iff.mpr ⟨?_, ?_⟩
    · simpa [FlatGrammar.isTerminal, starts] using numbered.start_range.1
    · rw [kept, starts]
      exact edge
  have inside : endSymbol.toNat < grammar.tableSymbolCount :=
    Nat.lt_of_lt_of_le numbered.terminals_pos
      (Nat.le_of_lt (Nat.lt_of_le_of_lt numbered.start_range.1 numbered.start_range.2))
  have action : tables.action target.toUInt32 endSymbol =
      (grammar.cell grammar.productions.size target state endSymbol.toNat).1 := by
    rw [represents.action_eq, if_pos inside, kept, found]
    rfl
  refine ⟨target.toUInt32, leads, ?_⟩
  rcases outcome with accept | ⟨index, production, placed, alone, preferred, reduce⟩
  · exact .inl (action.trans accept)
  · have bound := (Array.getElem?_eq_some_iff.mp placed).1
    have stored : ∃ info, tables.productions[index]? = some info ∧
        info.rhs = production.rhs.map Nat.toUInt16 ∧ info.precedence = production.precedence ∧
          info.dynamicPrecedence = production.dynamicPrecedence := by
      rw [same]
      exact ⟨_, by rw [assemble, Array.getElem?_map, placed, Option.map_some], rfl, rfl, rfl⟩
    obtain ⟨info, listed, rhs, precedence, dynamicPrecedence⟩ := stored
    refine .inr ⟨index.toUInt32, info, action.trans reduce, ?_, ?_, ?_⟩
    · rwa [represents.production_toNat bound]
    · rw [rhs]
      rcases alone with empty | single
      · exact .inl (by rw [empty, List.map_nil])
      · refine .inr ?_
        rw [single, List.map_singleton, ← starts]
        simp
    · simpa [FlatGrammar.PreferredToAccepting, FlatGrammar.precedenceOf,
        FlatGrammar.dynamicPrecedenceOf, placed, precedence, dynamicPrecedence] using preferred

/-- The start symbol is found where the end of the input is accepted behind it. -/
theorem startSymbol?_eq (represents : tables.Represents grammar) {start : SymbolId}
    (starts : start.toNat = grammar.start) (first : grammar.start = grammar.terminalCount)
    {next : StateId} (leads : tables.goto? 0 start = some next) :
    tables.startSymbol? = if tables.action next endSymbol = .accept then some start else none := by
  have width := represents.tableSymbolCount_eq
  have terminals := represents.terminalCount_eq
  have range := represents.numbered.start_range
  unfold startSymbol?
  rw [width, terminals]
  split
  case isTrue accepts =>
      obtain ⟨count, size⟩ : ∃ count, grammar.tableSymbolCount - grammar.terminalCount = count + 1 :=
        ⟨grammar.tableSymbolCount - grammar.terminalCount - 1, by omega⟩
      have symbol : grammar.terminalCount.toUInt16 = start := by
        rw [← first, ← starts]
        simp
      dsimp only
      rw [size, List.range'_succ, List.map_cons, List.find?_cons_of_pos]
      · rw [symbol]
      · simp [symbol, leads, accepts]
  case isFalse refuses =>
      refine List.find?_eq_none.mpr fun symbol _ accepting => refuses ?_
      simp only [Option.any_eq_true, beq_iff_eq] at accepting
      obtain ⟨other, leadsOn, accepts⟩ := accepting
      have same := represents.eq_start_of_accept leadsOn accepts
      rw [← starts] at same
      obtain rfl := UInt16.toNat_inj.mp same
      obtain rfl := Option.some.inj (leads.symm.trans leadsOn)
      exact accepts

end Represents

/-- A symbol is the nonterminal of the first rule of a grammar. -/
def IsStartSymbol (tables : LanguageTables) (source : Grammar) (symbol : SymbolId) : Prop :=
  ∃ name info, source.startRule? = some name ∧ tables.symbols[symbol.toNat]? = some info ∧
    info.name = name ∧ info.kind = .nonterminal

end LanguageTables

namespace Language

/-- Everything that is generated can be loaded, with the nonterminal of the first rule as the
start symbol, unless the end of the input behind the start symbol is not accepted: because a
reduction of the empty sequence or of the start symbol alone is preferred there, by a positive
precedence or dynamic precedence or by a conflict entry. Then the loader finds no start symbol. -/
theorem generated_loads {source : Grammar} {tables : LanguageTables} {scanner : Scanner}
    (generated : LanguageTables.generate source = .ok tables)
    (few : tables.symbols.size ≤ 65535) (numbered : tables.Numbered)
    (counted : scanner.tokenCount = source.externals.length) :
    ∃ start next, tables.IsStartSymbol source start ∧ tables.goto? 0 start = some next ∧
      ((tables.action next endSymbol = .accept ∧
          ∃ language, ofTables tables scanner = .ok language ∧ language.startSymbol = start) ∨
        (ofTables tables scanner = .error (.inconsistent .noStartSymbol) ∧
          ∃ id production, tables.action next endSymbol = .reduce id ∧
            tables.productions[id.toNat]? = some production ∧
            (production.rhs = [] ∨ production.rhs = [start]) ∧
            (0 < production.precedence ∨ 0 < production.dynamicPrecedence ∨
              source.conflicts ≠ []))) := by
  obtain ⟨grammar, flattened, _⟩ := LanguageTables.generate_ok generated
  have represents := LanguageTables.represents_of_generate generated flattened few numbered
  obtain ⟨draft, drafted, made⟩ := FlatGrammar.exists_draft_of_ofGrammar flattened
  have sound := FlatDraft.sound_of_ofGrammar drafted
  have recognised := FlatDraft.recognised_of_ofGrammar drafted
  have numbering := FlatDraft.numberedAs_of_number made
  obtain ⟨symbols, lexical⟩ : tables.symbols = grammar.symbols ∧
      tables.lexical = draft.lexicalTable source := by
    obtain ⟨actions, _, rfl⟩ := represents.assembled
    exact ⟨rfl, numbering.lexical⟩
  obtain ⟨first, name, info, starts, placed, named, kinded⟩ := numbering.start_eq sound
  have start : grammar.start.toUInt16.toNat = grammar.start :=
    represents.symbol_toNat represents.numbered.start_range.2
  have bound := represents.terminalCount_le
  rw [represents.terminalCount_eq, numbering.terminalCount] at bound
  obtain ⟨lexer, compiled⟩ := Lexer.exists_compile fun entry member =>
    FlatDraft.isSome_compile_of_mem_patterns sound recognised bound member
  have tokens : (scanner.tokenCount == tables.lexical.externals.length) = true := by
    rw [lexical, FlatDraft.length_externals recognised rfl, counted]
    exact beq_self_eq_true _
  have loads : ofTables tables scanner = tables.startSymbol?.elim
      (.error (.inconsistent .noStartSymbol)) fun start =>
        .ok ⟨tables, scanner, lexer, start⟩ := by
    unfold ofTables
    rw [represents.validate_eq_ok sound recognised numbering few, require_ok tokens, lexical,
      compiled]
    cases tables.startSymbol? <;> rfl
  obtain ⟨next, leads, outcome⟩ := represents.action_behind_start start
  refine ⟨grammar.start.toUInt16, next,
    ⟨name, info, starts, by rwa [start, symbols], named, kinded⟩, leads, ?_⟩
  rw [represents.startSymbol?_eq start first leads] at loads
  rcases outcome with accepts | ⟨id, production, reduces, stored, alone, preferred⟩
  · rw [if_pos accepts] at loads
    exact .inl ⟨accepts, _, loads, rfl⟩
  · rw [if_neg (by simp [reduces])] at loads
    rw [numbering.conflicts] at preferred
    exact .inr ⟨loads, id, production, reduces, stored, alone, preferred⟩

set_option maxRecDepth 10000 in
/-- The tables of the grammar of a pair load. -/
theorem generated_loads_pair :
    ∃ tables, LanguageTables.generate pairGrammar = .ok tables ∧ tables.symbols.size ≤ 65535 ∧
      tables.Numbered ∧ Scanner.noExternals.tokenCount = pairGrammar.externals.length ∧
      ∃ start next, tables.IsStartSymbol pairGrammar start ∧ tables.goto? 0 start = some next ∧
        ((tables.action next endSymbol = .accept ∧ ∃ language,
            ofTables tables .noExternals = .ok language ∧ language.startSymbol = start) ∨
          (ofTables tables .noExternals = .error (.inconsistent .noStartSymbol) ∧
            ∃ id production, tables.action next endSymbol = .reduce id ∧
              tables.productions[id.toNat]? = some production ∧
              (production.rhs = [] ∨ production.rhs = [start]) ∧
              (0 < production.precedence ∨ 0 < production.dynamicPrecedence ∨
                pairGrammar.conflicts ≠ []))) := by
  obtain ⟨_, language, _, loaded, numbered⟩ := pairGrammar_loads
  obtain ⟨generated, made⟩ := ofGrammar_ok loaded
  have few := (LanguageTables.validate_ok (ofTables_ok made).1).1
  exact ⟨language.tables, generated, few, numbered, rfl, generated_loads generated few numbered rfl⟩

/-- The grammar of an `x` whose start symbol may be a start symbol again, which is preferred. -/
def circularGrammar : Grammar :=
  ⟨{ name := "t", rules := [("start", .choice [.literal "x", .prec 1 none (.symbol "start")])] },
    by decide⟩

set_option maxRecDepth 10000 in
/-- Tables can be generated that are not loaded. -/
theorem not_all_generated_load :
    ∃ tables, LanguageTables.generate circularGrammar = .ok tables ∧
      tables.symbols.size ≤ 65535 ∧ circularGrammar.externals.length ≤ 64 ∧
      Scanner.noExternals.tokenCount = circularGrammar.externals.length ∧
      ∀ language, ofTables tables .noExternals ≠ .ok language := by
  have measured : ((LanguageTables.generate circularGrammar).toOption.map fun tables =>
      (tables.symbols.size, (ofTables tables .noExternals).toOption.isNone)) = some (3, true) := by
    cbv
  cases generated : LanguageTables.generate circularGrammar with
  | error failure => simp [generated, Except.toOption] at measured
  | ok tables =>
      simp only [generated, Except.toOption, Option.map_some, Option.some.injEq,
        Prod.mk.injEq] at measured
      refine ⟨tables, rfl, by omega, by decide, rfl, fun language loaded => ?_⟩
      simp [loaded] at measured

end Language

end Lalr
