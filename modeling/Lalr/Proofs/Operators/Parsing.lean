import Lalr.Proofs.Language.Generated
import Lalr.Proofs.Operators.Grammar
import Lalr.Proofs.Operators.Table
import Lalr.Proofs.Parser.Reading

set_option autoImplicit false

/-!
The machine on a chain of binary operators. Where climbing goes on over an operator the machine
shifts it, and where climbing stops the machine reduces; so both build the same tree. Tables are
generated for every set of binary operators, and the machine they give is of this kind.
-/

namespace Lalr

variable {τ : Type}

namespace Expression

/-- The tree of an expression, where the tokens have numbers. -/
def toTree (expression atom : SymbolId) (number : τ → SymbolId) : Expression τ → SymbolTree
  | .atom => .node expression [.token atom]
  | .binary operator left right =>
      .node expression [left.toTree expression atom number, .token (number operator.token),
        right.toTree expression atom number]

end Expression

/-- The symbols of a chain behind its first atom: each operator with the atom behind it. -/
def chainBehind (atom : SymbolId) (number : τ → SymbolId) (chain : List (BinaryOperator τ)) :
    List SymbolId :=
  chain.flatMap fun operator => [number operator.token, atom]

namespace FlatGrammar

variable {grammar : FlatGrammar} {operators : List (BinaryOperator Nat)}

/-- What can stand behind an operand. -/
def Follows (operators : List (BinaryOperator Nat)) (terminal : Nat) : Prop :=
  terminal = endSymbol.toNat ∨ ∃ operator ∈ operators, terminal = operator.token

/-- An operand can start in a state, and anything that stands behind operands can follow it. -/
def Opens (grammar : FlatGrammar) (operators : List (BinaryOperator Nat)) (place : Nat) : Prop :=
  ∀ index, index < grammar.productions.size → ∀ terminal, Follows operators terminal →
    grammar.automaton.HasLookahead place ⟨index, 0⟩ terminal

namespace IsOperatorGrammar

variable {atom : Nat}

theorem lhs_eq (shape : grammar.IsOperatorGrammar atom operators) {index : Nat}
    {production : Production} (found : grammar.productions[index]? = some production) :
    production.lhs = grammar.start := by
  rcases shape.production_cases found with rfl | ⟨operator, _, rfl⟩ <;> rfl

theorem token_pos (shape : grammar.IsOperatorGrammar atom operators)
    {operator : BinaryOperator Nat} (listed : operator ∈ operators) : 0 < operator.token := by
  obtain ⟨index, isOperator⟩ := shape.exists_operator listed
  exact (shape.numbered.rhs_range _ (Array.mem_of_getElem? isOperator.found) operator.token
    (by simp [operatorProduction, Production.rhs])).1

/-- Where an operand is read, every production starts. -/
theorem hasLookahead_operand (shape : grammar.IsOperatorGrammar atom operators)
    {place final index : Nat} {item : Item} {word : List Nat} (rest : List Nat)
    (next : grammar.items.next? item = some grammar.start)
    (yields : grammar.Yields ((grammar.items.symbols item.production).drop (item.dot + 1)) word)
    (has : grammar.automaton.HasLookahead place item (rest.head?.getD final))
    (bound : index < grammar.productions.size) :
    grammar.automaton.HasLookahead place ⟨index, 0⟩ ((word ++ rest).head?.getD final) := by
  have found := Array.getElem?_eq_getElem bound
  exact hasLookahead_predict shape.numbered found (shape.lhs_eq found ▸ next) yields has

theorem opens_first (shape : grammar.IsOperatorGrammar atom operators) :
    grammar.Opens operators 0 := by
  have atEnd : ∀ index, index < grammar.productions.size →
      grammar.automaton.HasLookahead 0 ⟨index, 0⟩ endSymbol.toNat := by
    intro index bound
    have rest : grammar.Yields
        ((grammar.items.symbols grammar.productions.size).drop (0 + 1)) [] := by
      rw [items_symbols_start]
      exact .nil
    exact shape.hasLookahead_operand [] (shape.next?_of_reads .start) rest
      (hasLookahead_start shape.numbered) bound
  rintro index bound terminal (rfl | ⟨operator, listed, rfl⟩)
  · exact atEnd index bound
  · -- behind the left operand of an operator stands that operator
    obtain ⟨place, isOperator⟩ := shape.exists_operator listed
    obtain ⟨single, isAtom⟩ := shape.exists_atom
    have operand : grammar.Yields [grammar.start] [atom] :=
      .production (Array.mem_of_getElem? isAtom)
        (.terminal (decide_eq_true shape.atom_lt) .nil) .nil
    have rest : grammar.Yields ((grammar.items.symbols place).drop (0 + 1))
        [operator.token, atom] := by
      rw [shape.symbols_operator isOperator]
      exact .terminal (decide_eq_true (shape.token_lt listed)) operand
    exact shape.hasLookahead_operand [] (shape.next?_of_reads (.left isOperator)) rest
      (atEnd place (shape.index_lt isOperator)) bound

/-- Behind an operand and an operator another operand can start, and the production of the
operator goes on. -/
theorem opens_behind (shape : grammar.IsOperatorGrammar atom operators)
    {place middle target index : Nat} {operator : BinaryOperator Nat}
    (opens : grammar.Opens operators place) (isOperator : grammar.IsOperatorAt operators index operator)
    (crosses : grammar.automaton.Edge place grammar.start middle)
    (into : grammar.automaton.Edge middle operator.token target) :
    grammar.Opens operators target ∧ ∀ terminal, Follows operators terminal →
      grammar.automaton.HasLookahead target ⟨index, 2⟩ terminal := by
  have goesOn : ∀ terminal, Follows operators terminal →
      grammar.automaton.HasLookahead target ⟨index, 2⟩ terminal := by
    intro terminal follows
    have moved := hasLookahead_advance shape.numbered crosses
      (shape.next?_of_reads (.left isOperator)) (opens index (shape.index_lt isOperator) _ follows)
    exact hasLookahead_advance shape.numbered into
      (shape.next?_of_reads (.operator isOperator)) moved
  refine ⟨fun other bound terminal follows => ?_, goesOn⟩
  have rest : grammar.Yields ((grammar.items.symbols index).drop (2 + 1)) [] := by
    rw [shape.symbols_operator isOperator]
    exact .nil
  exact shape.hasLookahead_operand [] (shape.next?_of_reads (.right isOperator)) rest
    (goesOn terminal follows) bound

/-- Behind an operand every operator can be read. -/
theorem exists_edge_operator (shape : grammar.IsOperatorGrammar atom operators)
    {place target : Nat} {operator : BinaryOperator Nat}
    (opens : grammar.Opens operators place)
    (crosses : grammar.automaton.Edge place grammar.start target) (listed : operator ∈ operators) :
    ∃ next, grammar.automaton.Edge target operator.token next := by
  obtain ⟨index, isOperator⟩ := shape.exists_operator listed
  have starts := opens index (shape.index_lt isOperator) _ (.inl rfl)
  have moved := hasLookahead_advance shape.numbered crosses
    (shape.next?_of_reads (.left isOperator)) starts
  obtain ⟨next, edge, _⟩ := hasItem_advance shape.numbered moved.hasItem
    (shape.next?_of_reads (.operator isOperator))
  exact ⟨next, edge⟩

/-- Nothing is completed where an operand can start. -/
theorem not_completes_of_opens (shape : grammar.IsOperatorGrammar atom operators)
    {place terminal : Nat} (opens : grammar.Opens operators place) {item : Item}
    (completes : grammar.Completes atom operators item) :
    ¬ grammar.automaton.HasLookahead place item terminal := by
  intro has
  obtain ⟨index, isAtom⟩ := shape.exists_atom
  have starts := opens index (Array.getElem?_eq_some_iff.mp isAtom).1 _ (.inl rfl)
  exact shape.not_hasItem_start_of_completes has.hasItem completes index starts.hasItem

end IsOperatorGrammar

end FlatGrammar

/-! ## Actions -/

open FlatGrammar

/-- The tables of a grammar of binary operators. -/
structure LanguageTables.IsOperatorTable (tables : LanguageTables) (grammar : FlatGrammar)
    (expression atom : SymbolId) (operators : List (BinaryOperator Nat)) : Prop where
  represents : tables.Represents grammar
  shape : grammar.IsOperatorGrammar atom.toNat operators
  start : grammar.start = expression.toNat

namespace LanguageTables.IsOperatorTable

variable {tables : LanguageTables} {grammar : FlatGrammar} {expression atom : SymbolId}
  {operators : List (BinaryOperator Nat)} {state : StateId} {symbol : SymbolId}

theorem action_eq (table : tables.IsOperatorTable grammar expression atom operators)
    {row : LookaheadState} (found : grammar.automaton.states[state.toNat]? = some row)
    (terminal : symbol.toNat < grammar.terminalCount) :
    tables.action state symbol =
      (grammar.cell grammar.productions.size state.toNat row symbol.toNat).1 := by
  have range := table.represents.numbered.start_range
  rw [table.represents.action_eq, if_pos (by omega), found]
  rfl

theorem shift_of_edge (table : tables.IsOperatorTable grammar expression atom operators)
    {target : Nat} (terminal : symbol.toNat < grammar.terminalCount)
    (edge : grammar.automaton.Edge state.toNat symbol.toNat target)
    (free : ∀ item, grammar.Completes atom.toNat operators item →
      ¬ grammar.automaton.HasLookahead state.toNat item symbol.toNat) :
    ∃ next : StateId, tables.action state symbol = .shift next ∧
      grammar.automaton.Edge state.toNat symbol.toNat next.toNat := by
  obtain ⟨row, found, _⟩ := id edge
  refine ⟨target.toUInt32, ?_, by rwa [table.represents.target_toNat edge]⟩
  rw [table.action_eq found terminal, table.shape.cell_shift found terminal edge free]

/-- Where an operand can start, the atom is shifted. -/
theorem shift_atom (table : tables.IsOperatorTable grammar expression atom operators)
    (opens : grammar.Opens operators state.toNat) :
    ∃ next : StateId, tables.action state atom = .shift next ∧
      grammar.automaton.Edge state.toNat atom.toNat next.toNat := by
  obtain ⟨index, isAtom⟩ := table.shape.exists_atom
  have has := opens index (Array.getElem?_eq_some_iff.mp isAtom).1 _ (.inl rfl)
  obtain ⟨target, edge, _⟩ := hasItem_advance table.represents.numbered has.hasItem
    (table.shape.next?_of_reads (.atom isAtom))
  exact table.shift_of_edge table.shape.atom_lt edge fun item completes =>
    table.shape.not_completes_of_opens opens completes

/-- Behind the right operand of an operator, an operator of a great enough level is shifted. -/
theorem shift_operator (table : tables.IsOperatorTable grammar expression atom operators)
    {index target : Nat} {operator next : BinaryOperator Nat}
    (isOperator : grammar.IsOperatorAt operators index operator) (listed : next ∈ operators)
    (named : symbol.toNat = next.token)
    (has : grammar.automaton.HasLookahead state.toNat ⟨index, 3⟩ symbol.toNat)
    (edge : grammar.automaton.Edge state.toNat symbol.toNat target)
    (tighter : operator.rightMinimum ≤ next.level.toInt) :
    ∃ after : StateId, tables.action state symbol = .shift after ∧
      grammar.automaton.Edge state.toNat symbol.toNat after.toNat := by
  obtain ⟨row, found, _⟩ := id edge
  refine ⟨target.toUInt32, ?_, by rwa [table.represents.target_toNat edge]⟩
  rw [table.action_eq found (named ▸ table.shape.token_lt listed), named,
    table.shape.cell_operator found isOperator listed (named ▸ has) (named ▸ edge), if_pos tighter]

theorem reduce_of_completes (table : tables.IsOperatorTable grammar expression atom operators)
    {index dot : Nat} (bound : index < grammar.productions.size)
    (completes : grammar.Completes atom.toNat operators ⟨index, dot⟩)
    (has : grammar.automaton.HasLookahead state.toNat ⟨index, dot⟩ symbol.toNat)
    (unread : ∀ target, ¬ grammar.automaton.Edge state.toNat symbol.toNat target) :
    tables.action state symbol = .reduce index.toUInt32 := by
  obtain ⟨row, found, _⟩ := id has
  rw [table.action_eq found (lt_of_hasLookahead table.represents.numbered has),
    table.shape.cell_reduce found completes has unread]
  simp [Candidate.action, Nat.ne_of_lt bound]

/-- Behind the right operand of an operator, at the end or before an operator of a lesser level,
the production of the operator is reduced. -/
theorem reduce_operator (table : tables.IsOperatorTable grammar expression atom operators)
    {index : Nat} {operator : BinaryOperator Nat}
    (isOperator : grammar.IsOperatorAt operators index operator)
    (has : grammar.automaton.HasLookahead state.toNat ⟨index, 3⟩ symbol.toNat)
    (looser : ∀ next ∈ operators, symbol.toNat = next.token →
      next.level.toInt < operator.rightMinimum) :
    tables.action state symbol = .reduce index.toUInt32 := by
  have completes : grammar.Completes atom.toNat operators ⟨index, 3⟩ := .operator isOperator
  by_cases read : ∃ target, grammar.automaton.Edge state.toNat symbol.toNat target
  case neg =>
      exact table.reduce_of_completes (table.shape.index_lt isOperator) completes has
        fun target edge => read ⟨target, edge⟩
  case pos =>
      obtain ⟨target, edge⟩ := read
      obtain ⟨reader, hasReader, next⟩ := exists_item_of_edge table.represents.numbered edge
      have terminal := lt_of_hasLookahead table.represents.numbered has
      obtain ⟨⟨other, rival, isRival, _, named⟩, _⟩ :=
        table.shape.operator_of_edge has.hasItem completes hasReader next terminal
      obtain ⟨row, found, _⟩ := id has
      rw [table.action_eq found terminal, named,
        table.shape.cell_operator found isOperator isRival.listed (named ▸ has) (named ▸ edge),
        if_neg (Int.not_le.mpr (looser rival isRival.listed named))]

/-- Behind an atom it is reduced. -/
theorem reduce_atom (table : tables.IsOperatorTable grammar expression atom operators)
    {index before : Nat} (opens : grammar.Opens operators before)
    (isAtom : grammar.productions[index]? = some (atomProduction grammar.start atom.toNat))
    (edge : grammar.automaton.Edge before atom.toNat state.toNat)
    (follows : Follows operators symbol.toNat) :
    tables.action state symbol = .reduce index.toUInt32 := by
  have bound := (Array.getElem?_eq_some_iff.mp isAtom).1
  have completes : grammar.Completes atom.toNat operators ⟨index, 1⟩ := .atom isAtom
  have has : grammar.automaton.HasLookahead state.toNat ⟨index, 1⟩ symbol.toNat :=
    hasLookahead_advance table.represents.numbered edge
      (table.shape.next?_of_reads (.atom isAtom)) (opens index bound _ follows)
  refine table.reduce_of_completes bound completes has fun target read => ?_
  obtain ⟨reader, hasReader, next⟩ := exists_item_of_edge table.represents.numbered read
  have terminal := lt_of_hasLookahead table.represents.numbered has
  obtain ⟨_, starts | ⟨_, _, _, same⟩⟩ :=
    table.shape.operator_of_edge has.hasItem completes hasReader next terminal
  · exact absurd starts (Nat.ne_of_lt bound)
  · exact absurd (Item.mk.inj same).2 (by decide)

/-- Behind an operand the state over the start symbol is taken. -/
theorem goto?_of_edge (table : tables.IsOperatorTable grammar expression atom operators)
    {next : StateId} (edge : grammar.automaton.Edge state.toNat grammar.start next.toNat) :
    tables.goto? state expression = some next := by
  rw [table.represents.goto?_eq_some_iff, ← table.start]
  have range := table.represents.numbered.start_range
  exact ⟨by simpa [FlatGrammar.isTerminal] using range.1, edge⟩

/-- The productions of the tables have the start symbol on their left-hand side. -/
theorem exists_stored (table : tables.IsOperatorTable grammar expression atom operators)
    {index : Nat} {production : Production}
    (found : grammar.productions[index]? = some production) :
    ∃ stored, tables.productions[index.toUInt32.toNat]? = some stored ∧
      stored.lhs = expression ∧ stored.rhs.length = production.rhs.length := by
  obtain ⟨stored, listed, lhs, rhs⟩ := table.represents.exists_production found
  have bound := (Array.getElem?_eq_some_iff.mp found).1
  refine ⟨stored, by rw [table.represents.production_toNat bound, listed], ?_, ?_⟩
  · rw [← UInt16.toNat_inj, lhs, table.shape.lhs_eq found, table.start]
  · rw [← rhs, List.length_map]

end LanguageTables.IsOperatorTable

/-! ## Runs -/

namespace LanguageTables.IsOperatorTable

open BuildConfiguration

variable {tables : LanguageTables} {grammar : FlatGrammar} {expression atom : SymbolId}
  {operators : List (BinaryOperator Nat)} {number : τ → SymbolId}

/-- An operator whose token has a number is one of the grammar. -/
def Knows (operators : List (BinaryOperator Nat)) (number : τ → SymbolId)
    (operator : BinaryOperator τ) : Prop :=
  operator.map (fun token => (number token).toNat) ∈ operators

theorem follows_nextTerminal {chain : List (BinaryOperator τ)}
    (known : ∀ operator ∈ chain, Knows operators number operator) :
    Follows operators (nextTerminal (chainBehind atom number chain)).toNat := by
  cases chain with
  | nil => exact .inl rfl
  | cons operator chain => exact .inr ⟨_, known operator List.mem_cons_self, rfl⟩

/-- An atom is read and reduced where an operand can start. -/
theorem reaches_atom (table : tables.IsOperatorTable grammar expression atom operators)
    (entries : List (StateId × SymbolTree)) (rest : List SymbolId)
    (opens : grammar.Opens operators (topOf entries).toNat)
    (follows : Follows operators (nextTerminal rest).toNat) :
    ∃ state : StateId, grammar.automaton.Edge (topOf entries).toNat grammar.start state.toNat ∧
      Reaches tables ⟨entries, atom :: rest⟩
        ⟨(state, .node expression [.token atom]) :: entries, rest⟩ := by
  obtain ⟨shifted, shift, edge⟩ := table.shift_atom opens
  obtain ⟨index, isAtom⟩ := table.shape.exists_atom
  have reduce := table.reduce_atom opens isAtom edge follows
  have starts := opens index (Array.getElem?_eq_some_iff.mp isAtom).1 _ (.inl rfl)
  obtain ⟨target, crosses⟩ := exists_goto table.represents.numbered isAtom starts.hasItem
  rw [← table.represents.target_toNat crosses] at crosses
  obtain ⟨stored, listed, lhs, length⟩ := table.exists_stored isAtom
  refine ⟨target.toUInt32, crosses, .tail (.single (step?_shift shift)) ?_⟩
  have step : step? tables ⟨[(shifted, .token atom)] ++ entries, rest⟩ =
      some ⟨(target.toUInt32, .node stored.lhs [.token atom]) :: entries, rest⟩ :=
    step?_reduce reduce listed length.symm (lhs ▸ table.goto?_of_edge crosses)
  simpa [lhs] using step

/-- Climbing over a chain and running the machine over it build the same trees. The state behind
the operand shifts every operator that climbing takes. -/
theorem reaches_climbFrom (table : tables.IsOperatorTable grammar expression atom operators)
    (minimum : Int) (left : Expression τ) (chain : List (BinaryOperator τ))
    (known : ∀ operator ∈ chain, Knows operators number operator)
    {entries : List (StateId × SymbolTree)} {state : StateId}
    (opens : grammar.Opens operators (topOf entries).toNat)
    (crosses : grammar.automaton.Edge (topOf entries).toNat grammar.start state.toNat)
    (climbs : ∀ operator : BinaryOperator τ, Knows operators number operator →
      minimum ≤ operator.level.toInt → ∃ next : StateId,
        tables.action state (number operator.token) = .shift next ∧
        grammar.automaton.Edge state.toNat (number operator.token).toNat next.toNat) :
    Reaches tables
      ⟨(state, left.toTree expression atom number) :: entries, chainBehind atom number chain⟩
      ⟨(state, (left.climbFrom minimum chain).1.toTree expression atom number) :: entries,
        chainBehind atom number (left.climbFrom minimum chain).2.val⟩ := by
  fun_induction Expression.climbFrom minimum left chain generalizing entries state with
  | case1 minimum left => exact .refl
  | case3 minimum left operator chain lesser => exact .refl
  | case2 minimum left operator chain taken right behind shorter climbed whole rest shortest
      continued inner outer =>
      have here := known operator List.mem_cons_self
      have later : ∀ other ∈ chain, Knows operators number other :=
        fun other member => known other (List.mem_cons_of_mem _ member)
      obtain ⟨index, isOperator⟩ := table.shape.exists_operator here
      obtain ⟨next, shift, into⟩ := climbs operator here taken
      obtain ⟨opensNext, goesOn⟩ := table.shape.opens_behind opens isOperator crosses into
      -- the operator is shifted, and the atom behind it read
      let operand : List (StateId × SymbolTree) := (next, .token (number operator.token)) ::
        (state, left.toTree expression atom number) :: entries
      obtain ⟨last, leads, atomRead⟩ := table.reaches_atom operand (chainBehind atom number chain)
        opensNext (follows_nextTerminal later)
      have ends : ∀ terminal, Follows operators terminal →
          grammar.automaton.HasLookahead last.toNat ⟨index, 3⟩ terminal := fun terminal follows =>
        hasLookahead_advance table.represents.numbered leads
          (table.shape.next?_of_reads (.right isOperator)) (goesOn terminal follows)
      -- the right operand is climbed; it stops before an operator of a lesser level
      have climbedRight : Reaches tables
          ⟨(last, Expression.atom.toTree expression atom number) :: operand,
            chainBehind atom number chain⟩ _ :=
        inner later opensNext leads fun other knows tighter => by
          obtain ⟨target, edge⟩ := table.shape.exists_edge_operator opensNext leads knows
          exact table.shift_operator isOperator knows rfl (ends _ (.inr ⟨_, knows, rfl⟩)) edge
            (by simpa using tighter)
      obtain ⟨suffix, stops⟩ := Expression.climbFrom_rest operator.rightMinimum .atom chain
      rw [climbed] at climbedRight suffix stops
      have remaining : ∀ other ∈ behind, Knows operators number other :=
        fun other member => later other (suffix.subset member)
      have reduce : tables.action last (nextTerminal (chainBehind atom number behind)) =
          .reduce index.toUInt32 := by
        refine table.reduce_operator isOperator (ends _ (follows_nextTerminal remaining)) ?_
        intro other listed named
        cases behind with
        | nil => exact absurd named (Nat.ne_of_lt (table.shape.token_pos listed))
        | cons first others =>
            have same := table.shape.eq_of_token_eq (remaining first List.mem_cons_self) listed named
            exact same ▸ stops first rfl
      obtain ⟨stored, found, lhs, length⟩ := table.exists_stored isOperator.found
      have folded : step? tables ⟨[(last, right.toTree expression atom number),
          (next, .token (number operator.token)), (state, left.toTree expression atom number)] ++
            entries, chainBehind atom number behind⟩ =
          some ⟨(state, .node stored.lhs [left.toTree expression atom number,
            .token (number operator.token), right.toTree expression atom number]) :: entries,
            chainBehind atom number behind⟩ :=
        step?_reduce reduce found length.symm (lhs ▸ table.goto?_of_edge crosses)
      rw [lhs] at folded
      -- the operator between its operands is the left operand of what follows
      have goes := outer remaining opens crosses climbs
      rw [continued] at goes
      have start : step? tables ⟨(state, left.toTree expression atom number) :: entries,
          chainBehind atom number (operator :: chain)⟩ =
            some ⟨operand, atom :: chainBehind atom number chain⟩ := step?_shift shift
      exact .head start (atomRead.trans (climbedRight.trans (.head folded goes)))

/-- The machine builds of a chain the tree of its expression. -/
theorem builds_climb (table : tables.IsOperatorTable grammar expression atom operators)
    (chain : List (BinaryOperator τ))
    (known : ∀ operator ∈ chain, Knows operators number operator) :
    tables.Builds (atom :: chainBehind atom number chain)
      ((Expression.climb chain).toTree expression atom number) := by
  have opens : grammar.Opens operators (topOf []).toNat := table.shape.opens_first
  obtain ⟨state, crosses, atomRead⟩ := table.reaches_atom [] (chainBehind atom number chain) opens
    (follows_nextTerminal known)
  have final := hasLookahead_advance table.represents.numbered crosses
    (table.shape.next?_of_reads .start) (hasLookahead_start table.represents.numbered)
  have run := table.reaches_climbFrom Int32.minValue.toInt .atom chain known opens crosses
    fun operator knows _ => by
      obtain ⟨target, edge⟩ := table.shape.exists_edge_operator opens crosses knows
      refine table.shift_of_edge (table.shape.token_lt knows) edge fun item completes has => ?_
      obtain rfl := table.shape.eq_of_completes has.hasItem completes final.hasItem .start
      have atEnd := eq_end_of_hasLookahead_start table.represents.numbered has
      exact absurd atEnd (Nat.ne_of_gt (table.shape.token_pos knows))
  rw [Expression.climbFrom_minValue_rest] at run
  refine ⟨state, atomRead.trans run, ?_⟩
  obtain ⟨row, found, _⟩ := id final
  have unread : ∀ target, ¬ grammar.automaton.Edge state.toNat endSymbol.toNat target :=
    fun target edge => Nat.lt_irrefl 0 (edge_symbol_range table.represents.numbered edge).1
  have terminal : endSymbol.toNat < grammar.terminalCount :=
    table.represents.numbered.terminals_pos
  rw [table.action_eq found terminal, table.shape.cell_reduce found .start final unread]
  simp [Candidate.action]

end LanguageTables.IsOperatorTable

/-! ## From grammar to tree -/

namespace LanguageTables

/-- The numbers of 16 and 32 bits suffice for the tables of an operator grammar that has at most
65535 symbols. -/
theorem represents_of_operators {grammar : FlatGrammar} {atom : Nat}
    {operators : List (BinaryOperator Nat)} (shape : grammar.IsOperatorGrammar atom operators)
    {actions : Array Action} (made : actionTable grammar grammar.automaton = .ok actions)
    (few : grammar.symbols.size ≤ 65535) :
    (assemble grammar grammar.automaton.states.size actions).Represents grammar := by
  have symbols := Nat.le_trans shape.numbered.symbols_le few
  have square := Nat.mul_le_mul symbols symbols
  have states := shape.size_states_le
  have counted : grammar.productions.size = operators.length + 1 := by
    simpa using shape.productions.length_eq
  -- the operators have different terminals
  have tokens : operators.length + 1 ≤ grammar.terminalCount := by
    have inside : (atom :: operators.map BinaryOperator.token).toFinset ⊆
        Finset.range grammar.terminalCount := fun token member =>
      Finset.mem_range.mpr (shape.terminals token (List.mem_toFinset.mp member))
    have small := Finset.card_le_card inside
    rw [List.toFinset_card_of_nodup shape.distinct, Finset.card_range] at small
    simpa using small
  have range := shape.numbered.start_range
  refine ⟨shape.numbered, ?_, ?_, symbols, actions, made, rfl⟩
  · simp only [UInt32.size]
    omega
  · simp only [UInt32.size]
    omega

theorem isStartSymbol_of_ofGrammar {source : Grammar} {grammar : FlatGrammar}
    {tables : LanguageTables} (flattened : FlatGrammar.ofGrammar source = .ok grammar)
    (represents : tables.Represents grammar) :
    tables.IsStartSymbol source grammar.start.toUInt16 := by
  obtain ⟨draft, drafted, numbered⟩ := FlatGrammar.exists_draft_of_ofGrammar flattened
  obtain ⟨_, name, info, starts, listed, named, kinded⟩ :=
    (FlatDraft.numberedAs_of_number numbered).start_eq (FlatDraft.sound_of_ofGrammar drafted)
  have symbols : tables.symbols = grammar.symbols := by
    obtain ⟨actions, _, rfl⟩ := represents.assembled
    rfl
  rw [← symbols, ← represents.symbol_toNat represents.numbered.start_range.2] at listed
  exact ⟨name, info, starts, listed, named, kinded⟩

section tokens

variable {source : Grammar} {grammar : FlatGrammar} {tables : LanguageTables} {atom : Rule}
  {operators : List (BinaryOperator Rule)}
  (represents : tables.Represents grammar)
  (shape : grammar.IsOperatorGrammar (source.tokenNumber atom)
    (operators.map fun operator => operator.map source.tokenNumber))

include represents shape

theorem toNat_tokenNumber {token : Rule}
    (member : token ∈ atom :: operators.map BinaryOperator.token) :
    (source.tokenNumber token).toUInt16.toNat = source.tokenNumber token := by
  have mapped : source.tokenNumber token ∈ source.tokenNumber atom ::
      (operators.map fun operator => operator.map source.tokenNumber).map
        BinaryOperator.token := by
    have image := List.mem_map_of_mem (f := source.tokenNumber) member
    simpa [BinaryOperator.map, Function.comp_def] using image
  have small := shape.terminals _ mapped
  have symbols := represents.symbols_le
  have range := represents.numbered.start_range
  exact represents.symbol_toNat (by omega)

theorem isOperatorTable_of_numbers :
    IsOperatorTable tables grammar grammar.start.toUInt16 (source.tokenNumber atom).toUInt16
      (operators.map fun operator => operator.map source.tokenNumber) where
  represents := represents
  shape := (toNat_tokenNumber represents shape List.mem_cons_self).symm ▸ shape
  start := (represents.symbol_toNat represents.numbered.start_range.2).symm

theorem knows_of_mem {operator : BinaryOperator Rule} (member : operator ∈ operators) :
    IsOperatorTable.Knows (operators.map fun operator => operator.map source.tokenNumber)
      (fun token => (source.tokenNumber token).toUInt16) operator := by
  refine List.mem_map.mpr ⟨operator, member, ?_⟩
  have same := toNat_tokenNumber represents shape
    (List.mem_cons_of_mem _ (List.mem_map_of_mem member))
  simp only [BinaryOperator.map, same]

end tokens

/-- Tables are generated for every set of binary operators with different tokens around an atom.
If their symbols can be told apart by numbers of 16 bits, the machine of the tables builds of a
chain the tree of its expression, and no other. -/
theorem builds_iff_climb {source : Grammar} {start : String} {atom : Rule}
    {operators : List (BinaryOperator Rule)}
    (shape : source.IsOperatorGrammar start atom operators) :
    ∃ tables, generate source = .ok tables ∧ (tables.symbols.size ≤ 65535 →
      ∃ (expression : SymbolId) (number : Rule → SymbolId),
        tables.IsStartSymbol source expression ∧
        (∀ token ∈ atom :: operators.map BinaryOperator.token, ∃ key,
          source.tokenKey? token = some key ∧
            source.terminalNumber? key = some (number token).toNat) ∧
        ∀ chain : List (BinaryOperator Rule), (∀ operator ∈ chain, operator ∈ operators) →
          ∀ tree, tables.Builds (number atom :: chainBehind (number atom) number chain) tree ↔
            tree = (Expression.climb chain).toTree expression (number atom) number) := by
  obtain ⟨grammar, flattened, numbers, flatShape⟩ := shape.exists_flat_operators
  obtain ⟨actions, made⟩ := flatShape.exists_actionTable
  have generated : generate source =
      .ok (assemble grammar grammar.automaton.states.size actions) := by
    rw [generate, flattened]
    change ofFlatGrammar grammar = _
    simp only [ofFlatGrammar, made]
  refine ⟨_, generated, fun few => ?_⟩
  have represents := represents_of_operators flatShape made few
  have table := isOperatorTable_of_numbers represents flatShape
  refine ⟨grammar.start.toUInt16, fun token => (source.tokenNumber token).toUInt16,
    isStartSymbol_of_ofGrammar flattened represents, ?_, ?_⟩
  · intro token member
    obtain ⟨key, keyed, number⟩ := numbers token member
    exact ⟨key, keyed, by rw [toNat_tokenNumber represents flatShape member, number]⟩
  · intro chain known tree
    have builds := table.builds_climb chain fun operator member =>
      knows_of_mem represents flatShape (known operator member)
    exact ⟨fun built => built.eq builds, fun same => same ▸ builds⟩

/-- Addition, multiplication and exponentiation, and assignment with a level below zero. -/
def arithmetic : List (BinaryOperator String) :=
  [⟨"+", 1, .left⟩, ⟨"*", 2, .left⟩, ⟨"^", 3, .right⟩, ⟨"=", -1, .right⟩]

set_option maxRecDepth 10000 in
/-- The machine for arithmetic builds the trees of precedence climbing. -/
theorem builds_iff_climb_arithmetic :
    ∃ tables, generate (.ofOperators "n" arithmetic) = .ok tables ∧
      ∃ (expression : SymbolId) (number : Rule → SymbolId),
        tables.IsStartSymbol (.ofOperators "n" arithmetic) expression ∧
        ∀ chain : List (BinaryOperator Rule),
          (∀ operator ∈ chain, operator ∈ arithmetic.map fun operator => operator.map .literal) →
          ∀ tree, tables.Builds
            (number (.literal "n") :: chainBehind (number (.literal "n")) number chain) tree ↔
              tree = (Expression.climb chain).toTree expression (number (.literal "n")) number := by
  have distinct : ("n" :: arithmetic.map BinaryOperator.token).Nodup := by decide
  obtain ⟨tables, generated, builds⟩ :=
    builds_iff_climb (Grammar.isOperatorGrammar_ofOperators distinct)
  have counted : (FlatGrammar.ofGrammar (.ofOperators "n" arithmetic)).toOption.map
      (·.symbols.size) = some 7 := by cbv
  obtain ⟨grammar, flattened, actions, _, rfl⟩ := generate_ok generated
  simp only [flattened, Except.toOption, Option.map_some, Option.some.injEq] at counted
  have few : grammar.symbols.size ≤ 65535 := by omega
  obtain ⟨expression, number, starts, _, iff⟩ := builds few
  exact ⟨_, generated, expression, number, starts, iff⟩

end LanguageTables

end Lalr
