import Lalr.Parser.Recovery
import Lalr.Proofs.Automaton.Propagation
import Lalr.Proofs.Automaton.Table
import Lalr.Proofs.FlatGrammar.Derivation
import Lalr.Proofs.Language.Loading

set_option autoImplicit false

/-!
The machine given by the action table. It reads a word only if the word is derived from the
start symbol, and where no actions compete it reads every such word.
-/

namespace Lalr

/-- A table accepts at the end of the input only. -/
theorem LanguageTables.Represents.eq_end_of_accept {tables : LanguageTables}
    {grammar : FlatGrammar} (represents : tables.Represents grammar) {state : StateId}
    {symbol : SymbolId} (accepts : tables.action state symbol = .accept) : symbol = endSymbol :=
  UInt16.toNat_inj.mp (FlatGrammar.eq_end_of_hasLookahead_start represents.numbered
    (represents.hasLookahead_of_accept accepts))

/-- The terminal that decides on the next action; behind the last one comes the end of the
input. -/
def nextTerminal (rest : List SymbolId) : SymbolId :=
  rest.head?.getD endSymbol

/-- A configuration of the machine: the states, the top first, and the terminals not read
yet. -/
structure Configuration where
  states : List StateId
  rest : List SymbolId
deriving DecidableEq, Repr

namespace Configuration

/-- The configuration after the next action, if it is a shift or a reduction. -/
def step? (tables : LanguageTables) (config : Configuration) : Option Configuration :=
  match config.states with
  | [] => none
  | top :: below =>
      match tables.action top (nextTerminal config.rest) with
      | .shift next => if config.rest = [] then none else
          some ⟨next :: top :: below, config.rest.tail⟩
      | .reduce id =>
          match tables.productions[id.toNat]? with
          | none => none
          | some production =>
              match (top :: below).drop production.rhs.length with
              | [] => none
              | under :: remaining => (tables.goto? under production.lhs).map fun next =>
                  ⟨next :: under :: remaining, config.rest⟩
      | .accept | .error | .goto _ => none

/-- The machine gets from one configuration to another. -/
def Reaches (tables : LanguageTables) : Configuration → Configuration → Prop :=
  Relation.ReflTransGen fun before after => before.step? tables = some after

/-- The next action is to accept. -/
def Accepting (tables : LanguageTables) (config : Configuration) : Prop :=
  ∃ top ∈ config.states.head?, tables.action top (nextTerminal config.rest) = .accept

end Configuration

/-- Started in the first state, the machine reads a whole word and accepts. -/
def LanguageTables.Accepts (tables : LanguageTables) (word : List SymbolId) : Prop :=
  ∃ states, Configuration.Reaches tables ⟨[0], word⟩ ⟨states, []⟩ ∧
    Configuration.Accepting tables ⟨states, []⟩

/-- In no state do two actions compete for a terminal. -/
def FlatGrammar.Unambiguous (grammar : FlatGrammar) : Prop :=
  ∀ state ∈ grammar.automaton.states, ∀ terminal < grammar.terminalCount,
    (grammar.candidatesAt grammar.automaton.startProduction state terminal).length ≤ 1

theorem FlatGrammar.unambiguous_iff {grammar : FlatGrammar} :
    grammar.Unambiguous ↔
      (grammar.automaton.states.all fun state => (List.range grammar.terminalCount).all
        fun terminal => (grammar.candidatesAt grammar.automaton.startProduction state
          terminal).length ≤ 1) = true := by
  simp only [Unambiguous, Array.all_eq_true_iff_forall_mem, List.all_eq_true, List.mem_range,
    decide_eq_true_eq]

instance (grammar : FlatGrammar) : Decidable grammar.Unambiguous :=
  decidable_of_iff' _ FlatGrammar.unambiguous_iff

namespace Configuration

variable {tables : LanguageTables} {grammar : FlatGrammar} {config after : Configuration}

/-! ## Single actions -/

theorem nextTerminal_toNat (rest : List SymbolId) :
    (nextTerminal rest).toNat = (rest.map UInt16.toNat).head?.getD endSymbol.toNat := by
  cases rest <;> rfl

/-- What the next action does. -/
theorem step?_cases (stepped : config.step? tables = some after) :
    ∃ top below, config.states = top :: below ∧
      ((∃ symbol next, config.rest = symbol :: after.rest ∧
          tables.action top symbol = .shift next ∧ after.states = next :: top :: below) ∨
        ∃ id production under remaining next, tables.action top (nextTerminal config.rest) = .reduce id ∧
          tables.productions[id.toNat]? = some production ∧
          (top :: below).drop production.rhs.length = under :: remaining ∧
          tables.goto? under production.lhs = some next ∧
          after = ⟨next :: under :: remaining, config.rest⟩) := by
  obtain ⟨states, rest⟩ := config
  cases states with
  | nil => simp [step?] at stepped
  | cons top below =>
      refine ⟨top, below, rfl, ?_⟩
      simp only [step?] at stepped
      split at stepped
      case h_1 next shift =>
          cases rest with
          | nil => simp at stepped
          | cons symbol rest =>
              simp only [reduceCtorEq, if_false, List.tail_cons, Option.some.injEq] at stepped
              subst stepped
              exact .inl ⟨symbol, next, rfl, shift, rfl⟩
      case h_2 id reduce =>
          split at stepped
          case h_1 => cases stepped
          case h_2 production found =>
              split at stepped
              case h_1 => cases stepped
              case h_2 under remaining popped =>
                  obtain ⟨next, leads, rfl⟩ := Option.map_eq_some_iff.mp stepped
                  exact .inr ⟨id, production, under, remaining, next, reduce, found, popped,
                    leads, rfl⟩
      all_goals cases stepped

theorem step?_shift {top next : StateId} {below : List StateId} {symbol : SymbolId}
    {rest : List SymbolId} (shift : tables.action top symbol = .shift next) :
    step? tables ⟨top :: below, symbol :: rest⟩ = some ⟨next :: top :: below, rest⟩ := by
  simp [step?, nextTerminal, shift]

theorem step?_reduce {top under next : StateId} {pushed remaining : List StateId}
    {rest : List SymbolId} {id : ProductionId} {production : ProductionInfo}
    (reduce : tables.action top (nextTerminal rest) = .reduce id)
    (found : tables.productions[id.toNat]? = some production)
    (length : pushed.length = production.rhs.length)
    (first : (pushed ++ under :: remaining).head? = some top)
    (leads : tables.goto? under production.lhs = some next) :
    step? tables ⟨pushed ++ under :: remaining, rest⟩ =
      some ⟨next :: under :: remaining, rest⟩ := by
  obtain ⟨below, shape⟩ : ∃ below, pushed ++ under :: remaining = top :: below :=
    List.head?_eq_some_iff.mp first
  have popped : (top :: below).drop production.rhs.length = under :: remaining := by
    rw [← shape, ← length, List.drop_left]
  simp [step?, shape, reduce, found, popped, leads]

/-! ## Every word read is derived -/

/-- The states spell a path of the automaton, whose symbols stand for what was read. -/
def Spells (grammar : FlatGrammar) (word : List Nat) (config : Configuration) : Prop :=
  ∃ path read, grammar.automaton.Path path ∧
    config.states.map UInt32.toNat = path.map Prod.snd ++ [0] ∧
    grammar.Yields (path.map Prod.fst).reverse read ∧
    word = read ++ config.rest.map UInt16.toNat

theorem top_eq_pathEnd {path : List (Nat × Nat)} {top : StateId} {below : List StateId}
    (states : (top :: below).map UInt32.toNat = path.map Prod.snd ++ [0]) :
    top.toNat = Automaton.pathEnd path := by
  cases path with
  | nil => exact (List.cons.inj states).1
  | cons => exact (List.cons.inj states).1

/-- A reduction takes the symbols of a production off the path that the states spell. -/
theorem path_of_reduction (represents : tables.Represents grammar) {path : List (Nat × Nat)}
    (isPath : grammar.automaton.Path path) {top under next : StateId}
    {below remaining : List StateId} {symbol : SymbolId} {id : ProductionId}
    {info : ProductionInfo} (states : (top :: below).map UInt32.toNat = path.map Prod.snd ++ [0])
    (reduce : tables.action top symbol = .reduce id)
    (stored : tables.productions[id.toNat]? = some info)
    (popped : (top :: below).drop info.rhs.length = under :: remaining)
    (leads : tables.goto? under info.lhs = some next) :
    ∃ production ∈ grammar.productions, ∃ taken rest, path = taken ++ rest ∧
      (taken.map Prod.fst).reverse = production.rhs ∧
      (next :: under :: remaining).map UInt32.toNat =
        ((production.lhs, next.toNat) :: rest).map Prod.snd ++ [0] ∧
      grammar.automaton.Path ((production.lhs, next.toNat) :: rest) := by
  obtain ⟨production, found, has⟩ := represents.hasItem_of_reduce reduce
  obtain ⟨other, again, lhs, rhs⟩ := represents.exists_production found
  obtain rfl := Option.some.inj (stored.symm.trans again)
  rw [top_eq_pathEnd states] at has
  obtain ⟨enough, symbols, _⟩ := FlatGrammar.path_of_complete represents.numbered isPath found has
  have length : info.rhs.length = production.steps.length := by
    have same := congrArg List.length rhs
    simpa [Production.rhs] using same
  have kept : (under :: remaining).map UInt32.toNat =
      (path.drop production.steps.length).map Prod.snd ++ [0] := by
    have dropped := congrArg (List.drop production.steps.length) states
    rw [← List.map_drop, ← length, popped, length] at dropped
    rw [dropped, List.drop_append_of_le_length (by simpa using enough), List.map_drop]
  obtain ⟨_, edge⟩ := represents.goto?_eq_some_iff.mp leads
  rw [top_eq_pathEnd kept, lhs] at edge
  refine ⟨production, Array.mem_of_getElem? found, path.take production.steps.length,
    path.drop production.steps.length, (List.take_append_drop _ _).symm, symbols, ?_,
    (isPath.drop _).step edge⟩
  rw [List.map_cons, kept]
  rfl

theorem Spells.step {word : List Nat} (represents : tables.Represents grammar)
    (spells : Spells grammar word config) (stepped : config.step? tables = some after) :
    Spells grammar word after := by
  obtain ⟨path, read, isPath, states, yields, rfl⟩ := spells
  obtain ⟨top, below, shape, cases⟩ := step?_cases stepped
  rw [shape] at states
  rcases cases with ⟨symbol, next, rest, shift, pushed⟩ |
    ⟨id, info, under, remaining, next, reduce, stored, popped, leads, rfl⟩
  · obtain ⟨terminal, edge⟩ := represents.edge_of_shift shift
    rw [top_eq_pathEnd states] at edge
    refine ⟨(symbol.toNat, next.toNat) :: path, read ++ [symbol.toNat], isPath.step edge, ?_, ?_,
      by simp [rest]⟩
    · rw [pushed, List.map_cons, states]
      rfl
    · rw [List.map_cons, List.reverse_cons]
      exact yields.append (.terminal terminal .nil)
  · obtain ⟨production, member, taken, below, rfl, symbols, kept, reduced⟩ :=
      path_of_reduction represents isPath states reduce stored popped leads
    rw [List.map_append, List.reverse_append, symbols] at yields
    obtain ⟨front, back, rfl, frontYields, backYields⟩ := yields.split
    refine ⟨_, front ++ back, reduced, kept, ?_, rfl⟩
    rw [List.map_cons, List.reverse_cons]
    have lead := FlatGrammar.Yields.production member backYields .nil
    rw [List.append_nil] at lead
    exact frontYields.append lead

theorem Reaches.spells {word : List SymbolId} (represents : tables.Represents grammar)
    (reaches : Reaches tables ⟨[0], word⟩ config) :
    Spells grammar (word.map UInt16.toNat) config := by
  induction reaches with
  | refl => exact ⟨[], [], .start, by simp, .nil, rfl⟩
  | tail _ stepped spells => exact spells.step represents stepped

/-- A word that the machine accepts is derived from the start symbol. -/
theorem generates_of_accepts {word : List SymbolId} (represents : tables.Represents grammar)
    (accepts : tables.Accepts word) : grammar.Generates (word.map UInt16.toNat) := by
  obtain ⟨states, reaches, top, first, accept⟩ := accepts
  obtain ⟨path, read, isPath, shape, yields, same⟩ := reaches.spells represents
  obtain ⟨below, rfl⟩ := List.head?_eq_some_iff.mp first
  have has := (represents.hasLookahead_of_accept accept).hasItem
  rw [top_eq_pathEnd shape] at has
  obtain ⟨target, rfl⟩ := FlatGrammar.path_of_accept represents.numbered isPath has
  rw [same, List.map_nil, List.append_nil]
  exact FlatGrammar.generates_iff_yields.mpr yields

/-! ## Every derived word is read -/

section complete

variable (represents : tables.Represents grammar) (unambiguous : grammar.Unambiguous)

include represents unambiguous

/-- Where nothing competes, a candidate is the action of the table. -/
theorem action_of_candidate {state : StateId} {symbol : SymbolId} {row : LookaheadState}
    {candidate : Candidate} (found : grammar.automaton.states[state.toNat]? = some row)
    (terminal : symbol.toNat < grammar.terminalCount)
    (member : candidate ∈
      grammar.candidatesAt grammar.automaton.startProduction row symbol.toNat) :
    tables.action state symbol = candidate.action grammar.productions.size := by
  have single : grammar.candidatesAt grammar.automaton.startProduction row symbol.toNat =
      [candidate] := by
    have few := unambiguous row (Array.mem_of_getElem? found) symbol.toNat terminal
    obtain ⟨other, same⟩ := List.length_eq_one_iff.mp
      (Nat.le_antisymm few (List.length_pos_of_mem member))
    rw [same] at member ⊢
    rw [List.mem_singleton.mp member]
  rw [FlatGrammar.automaton_startProduction] at single
  have width := represents.numbered.start_range
  rw [represents.action_eq, if_pos (by omega), found]
  exact FlatGrammar.cell_of_single (by simpa [FlatGrammar.isTerminal] using terminal) single

theorem action_of_edge {state : StateId} {symbol : SymbolId} {target : Nat}
    (terminal : grammar.isTerminal symbol.toNat = true)
    (edge : grammar.automaton.Edge state.toNat symbol.toNat target) :
    tables.action state symbol = .shift target.toUInt32 := by
  obtain ⟨row, found, _⟩ := id edge
  have listed := (FlatGrammar.lookup_transitions represents.numbered found).mpr edge
  have member : .shift target ∈
      grammar.candidatesAt grammar.automaton.startProduction row symbol.toNat := by
    simp [FlatGrammar.candidatesAt, FlatGrammar.candidates, listed]
  exact action_of_candidate represents unambiguous found
    (by simpa [FlatGrammar.isTerminal] using terminal) member

theorem action_of_complete {state : StateId} {symbol : SymbolId} {item : Item}
    (has : grammar.automaton.HasLookahead state.toNat item symbol.toNat)
    (complete : grammar.isCompleteItem grammar.productions.size item = true) :
    tables.action state symbol = (Candidate.reduce item.production).action
      grammar.productions.size := by
  obtain ⟨row, found, lookahead, member, contains⟩ := id has
  refine action_of_candidate represents unambiguous found
    (FlatGrammar.lt_of_hasLookahead represents.numbered has) ?_
  refine List.mem_append_right _ (List.mem_map_of_mem (FlatGrammar.mem_reductionsAt.mpr
    ⟨item, lookahead, member, contains, ?_, rfl⟩))
  rwa [FlatGrammar.automaton_startProduction]

/-- A complete production is taken off the stack, and its left-hand side read instead. -/
theorem step?_of_complete {index target : Nat} {production : Production}
    {pushed below : List StateId} {top last : StateId} {rest : List SymbolId}
    (found : grammar.productions[index]? = some production)
    (length : pushed.length = production.rhs.length)
    (first : (pushed ++ top :: below).head? = some last)
    (has : grammar.automaton.HasLookahead last.toNat ⟨index, production.rhs.length⟩
      (nextTerminal rest).toNat)
    (edge : grammar.automaton.Edge top.toNat production.lhs target) :
    step? tables ⟨pushed ++ top :: below, rest⟩ = some ⟨target.toUInt32 :: top :: below, rest⟩ := by
  have bound := (Array.getElem?_eq_some_iff.mp found).1
  have same := represents.production_toNat bound
  obtain ⟨info, stored, lhs, rhs⟩ := represents.exists_production found
  have nonterminal := (represents.numbered.lhs_range production (Array.mem_of_getElem? found)).1
  have complete : grammar.isCompleteItem grammar.productions.size
      ⟨index, production.rhs.length⟩ = true := by
    simp [FlatGrammar.isCompleteItem, Nat.ne_of_lt bound, found, Production.rhs]
  have action := action_of_complete represents unambiguous has complete
  simp only [Candidate.action, Nat.ne_of_lt bound, if_false] at action
  refine step?_reduce action (same.symm ▸ stored) ?_ first ?_
  · rw [length, ← rhs, List.length_map]
  · refine represents.goto?_eq_some_iff.mpr ⟨?_, ?_⟩
    · simpa [lhs, FlatGrammar.isTerminal] using nonterminal
    · rwa [lhs, represents.target_toNat edge]

/-- From a state whose item expects some symbols the machine reads what they stand for, and
pushes a state for each of them. -/
theorem reaches_of_yields {symbols word : List Nat} (yields : grammar.Yields symbols word) :
    ∀ (item : Item) (top : StateId) (below : List StateId) (read rest : List SymbolId),
      word = read.map UInt16.toNat →
      (grammar.items.symbols item.production).drop item.dot = symbols →
      grammar.automaton.HasLookahead top.toNat item (nextTerminal rest).toNat →
      ∃ pushed last, pushed.length = symbols.length ∧
        (pushed ++ top :: below).head? = some last ∧
        Reaches tables ⟨top :: below, read ++ rest⟩ ⟨pushed ++ top :: below, rest⟩ ∧
        grammar.automaton.HasLookahead last.toNat
          ⟨item.production, item.dot + symbols.length⟩ (nextTerminal rest).toNat := by
  have numbered := represents.numbered
  induction yields with
  | nil =>
      intro item top below read rest spelled _ has
      obtain rfl := List.map_eq_nil_iff.mp spelled.symm
      exact ⟨[], top, rfl, rfl, .refl, has⟩
  | @terminal symbol symbols word terminal _ hypothesis =>
      intro item top below read rest spelled expected has
      obtain ⟨token, read, rfl, rfl, rfl⟩ := List.map_eq_cons_iff.mp spelled.symm
      have next : grammar.items.next? item = some token.toNat := by
        rw [ItemGrammar.next?, ← List.head?_drop, expected]
        rfl
      have later : (grammar.items.symbols item.advance.production).drop item.advance.dot =
          symbols := by
        rw [Item.advance, ← List.tail_drop, expected, List.tail_cons]
      obtain ⟨target, edge, _⟩ := FlatGrammar.hasItem_advance numbered
        has.hasItem next
      have same := represents.target_toNat edge
      have advanced := FlatGrammar.hasLookahead_advance numbered edge next has
      rw [← same] at advanced
      obtain ⟨pushed, last, length, first, reaches, final⟩ :=
        hypothesis item.advance _ (top :: below) read rest rfl later advanced
      have step : step? tables ⟨top :: below, token :: (read ++ rest)⟩ =
          some ⟨target.toUInt32 :: top :: below, read ++ rest⟩ :=
        step?_shift (action_of_edge represents unambiguous terminal edge)
      refine ⟨pushed ++ [target.toUInt32], last, by simp [length], by simpa using first, ?_, ?_⟩
      · rw [List.append_assoc]
        exact reaches.head step
      · rw [List.length_cons, Nat.add_comm symbols.length, ← Nat.add_assoc]
        exact final
  | @production production symbols firstWord secondWord member inner outer innerHypothesis
      outerHypothesis =>
      intro item top below read rest spelled expected has
      obtain ⟨firstRead, secondRead, rfl, rfl, rfl⟩ := List.map_eq_append_iff.mp spelled.symm
      obtain ⟨index, bound, rfl⟩ := Array.getElem_of_mem member
      have found := Array.getElem?_eq_getElem bound
      have next : grammar.items.next? item = some grammar.productions[index].lhs := by
        rw [ItemGrammar.next?, ← List.head?_drop, expected]
        rfl
      have later : (grammar.items.symbols item.production).drop (item.dot + 1) = symbols := by
        rw [← List.tail_drop, expected, List.tail_cons]
      -- the production is predicted here, with what follows it as its lookahead
      have predicted : grammar.automaton.HasLookahead top.toNat ⟨index, 0⟩
          (nextTerminal (secondRead ++ rest)).toNat := by
        rw [nextTerminal_toNat, List.map_append]
        rw [nextTerminal_toNat] at has
        exact FlatGrammar.hasLookahead_predict numbered found next (later.symm ▸ outer) has
      obtain ⟨pushed, last, length, first, reads, complete⟩ := innerHypothesis
        ⟨index, 0⟩ top below firstRead _ rfl (by simp [FlatGrammar.items_symbols found])
        predicted
      obtain ⟨target, edge, _⟩ := FlatGrammar.hasItem_advance numbered
        has.hasItem next
      have reduces := step?_of_complete represents unambiguous found length first
        (by simpa using complete) edge
      have advanced := FlatGrammar.hasLookahead_advance numbered edge next has
      rw [← represents.target_toNat edge] at advanced
      obtain ⟨more, final, moreLength, moreFirst, goes, ends⟩ :=
        outerHypothesis item.advance _ (top :: below) secondRead rest rfl later advanced
      refine ⟨more ++ [target.toUInt32], final, by simp [moreLength],
        by simpa using moreFirst, ?_, ?_⟩
      · rw [List.append_assoc, List.append_assoc]
        exact (reads.tail reduces).trans goes
      · rw [List.length_cons, Nat.add_comm symbols.length, ← Nat.add_assoc]
        exact ends

/-- Where no actions compete, a word derived from the start symbol is accepted. -/
theorem accepts_of_generates {word : List SymbolId}
    (generates : grammar.Generates (word.map UInt16.toNat)) : tables.Accepts word := by
  have start := FlatGrammar.hasLookahead_start represents.numbered
  obtain ⟨pushed, last, length, first, reaches, final⟩ :=
    reaches_of_yields represents unambiguous (FlatGrammar.generates_iff_yields.mp generates)
      ⟨grammar.productions.size, 0⟩ 0 [] word [] rfl
      FlatGrammar.items_symbols_start start
  rw [List.append_nil] at reaches
  refine ⟨pushed ++ [0], reaches, last, first, ?_⟩
  have action := action_of_complete represents unambiguous final
    (by simp [FlatGrammar.isCompleteItem])
  simpa [Candidate.action] using action

end complete

/-- An accepting configuration has reached the end of the input. -/
theorem Accepting.nextTerminal_eq (represents : tables.Represents grammar)
    (accepting : Accepting tables config) : nextTerminal config.rest = endSymbol := by
  obtain ⟨top, _, accept⟩ := accepting
  exact represents.eq_end_of_accept accept

/-- What is tried out for a terminal in recovery is a run of the machine. -/
theorem reaches_of_simulateFrom {language : Language}
    (represents : language.tables.Represents grammar) {symbol : SymbolId} {limit : Nat}
    {states found : List StateId} {rest : List SymbolId} (next : nextTerminal rest = symbol)
    (simulated : simulateFrom language symbol limit states = some found) :
    Reaches language.tables ⟨states, rest⟩ ⟨found, rest.tail⟩ ∨
      Reaches language.tables ⟨states, rest⟩ ⟨found, rest⟩ ∧
        Accepting language.tables ⟨found, rest⟩ := by
  induction limit generalizing states with
  | zero => cases simulated
  | succ limit hypothesis =>
      cases states with
      | nil => cases simulated
      | cons top below =>
          simp only [simulateFrom] at simulated
          split at simulated
          case h_1 target shift =>
              obtain rfl := Option.some.inj simulated
              cases rest with
              | nil => exact absurd next.symm (represents.ne_end_of_shift shift)
              | cons token rest =>
                  obtain rfl : token = symbol := next
                  exact .inl (.single (step?_shift shift))
          case h_2 accept =>
              obtain rfl := Option.some.inj simulated
              exact .inr ⟨.refl, top, rfl, by rw [next]; exact accept⟩
          case h_3 id reduce =>
              split at simulated
              case h_1 => cases simulated
              case h_2 production known =>
                  split at simulated
                  case h_1 => cases simulated
                  case h_2 under remaining popped =>
                      split at simulated
                      case h_1 => cases simulated
                      case h_2 target leads =>
                          have step : step? language.tables ⟨top :: below, rest⟩ =
                              some ⟨target :: under :: remaining, rest⟩ := by
                            simp only [Language.action, Language.goto?,
                              Language.production?] at reduce known leads
                            simp [step?, next, reduce, known, popped, leads]
                          rcases hypothesis simulated with reads | ⟨reads, accepts⟩
                          · exact .inl (reads.head step)
                          · exact .inr ⟨reads.head step, accepts⟩
          all_goals cases simulated

end Configuration

/-- Where no actions compete, the machine accepts the words derived from the start symbol. -/
theorem accepts_iff_generates {source : Grammar} {grammar : FlatGrammar}
    {tables : LanguageTables} (flattened : FlatGrammar.ofGrammar source = .ok grammar)
    (generated : LanguageTables.generate source = .ok tables)
    (few : tables.symbols.size ≤ 65535) (numbered : tables.Numbered)
    (unambiguous : grammar.Unambiguous) (word : List SymbolId) :
    tables.Accepts word ↔ grammar.Generates (word.map UInt16.toNat) := by
  have represents := LanguageTables.represents_of_generate generated flattened few numbered
  exact ⟨Configuration.generates_of_accepts represents,
    Configuration.accepts_of_generates represents unambiguous⟩

theorem accepts_iff_generates_of_pair :
    ∃ grammar tables, FlatGrammar.ofGrammar pairGrammar = .ok grammar ∧
      LanguageTables.generate pairGrammar = .ok tables ∧ tables.symbols.size ≤ 65535 ∧
      tables.Numbered ∧ grammar.Unambiguous ∧
      ∀ word, tables.Accepts word ↔ grammar.Generates (word.map UInt16.toNat) := by
  have single : ((FlatGrammar.ofGrammar pairGrammar).toOption.map fun grammar =>
      grammar.automaton.states.all fun state => (List.range grammar.terminalCount).all
        fun terminal => (grammar.candidatesAt grammar.automaton.startProduction state
          terminal).length ≤ 1) = some true := by cbv
  obtain ⟨grammar, language, flattened, loaded, numbered⟩ := pairGrammar_loads
  have generated := (Language.ofGrammar_ok loaded).1
  have few := (LanguageTables.validate_ok
    (Language.ofTables_ok (Language.ofGrammar_ok loaded).2).1).1
  have unambiguous : grammar.Unambiguous := by
    rw [flattened] at single
    exact FlatGrammar.unambiguous_iff.mpr (Option.some.inj single)
  exact ⟨grammar, language.tables, flattened, generated, few, numbered, unambiguous,
    accepts_iff_generates flattened generated few numbered unambiguous⟩

end Lalr
