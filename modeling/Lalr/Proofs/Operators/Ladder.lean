import Lalr.Proofs.Automaton.Precedence
import Lalr.Proofs.Parser.Reading

set_option autoImplicit false

/-!
Ladders of operators. Where the operations of a grammar stand under one expression symbol, binary
ones group to the left and unary ones bind like none of them, every tree that the table reads
respects their levels.
-/

namespace Lalr

/-- The operations of a grammar with the levels of their operators. -/
structure Ladder (σ : Type) where
  /-- What operands are. -/
  expression : σ
  /-- An operator between two operands. -/
  binary : σ
  /-- An operator in front of its operand. -/
  unary : σ
  binaries : List (σ × Int32)
  unaries : List (σ × Int32)
deriving DecidableEq, Repr

namespace FlatGrammar

/-- The operations of a grammar climb a ladder: their productions have the levels of their
operators, and nothing else in the grammar can be taken for an operation. -/
structure Climbs (grammar : FlatGrammar) (ladder : Ladder Nat) : Prop where
  binary : ∀ production ∈ grammar.productions, production.lhs = ladder.binary →
    ∃ operator ∈ ladder.binaries,
      production.rhs = [ladder.expression, operator.1, ladder.expression] ∧
        ∀ step ∈ production.steps,
          step.precedence = operator.2 ∧ step.associativity = some .left
  unary : ∀ production ∈ grammar.productions, production.lhs = ladder.unary →
    ∃ operator ∈ ladder.unaries, production.rhs = [operator.1, ladder.expression] ∧
      ∀ step ∈ production.steps, step.precedence = operator.2
  wraps : ∀ production ∈ grammar.productions, production.lhs = ladder.expression →
    production.rhs.length = 1
  wraps_binary : ∃ production ∈ grammar.productions,
    production.lhs = ladder.expression ∧ production.rhs = [ladder.binary]
  wraps_unary : ∃ production ∈ grammar.productions,
    production.lhs = ladder.expression ∧ production.rhs = [ladder.unary]
  terminals : ∀ operator ∈ ladder.binaries ++ ladder.unaries, operator.1 < grammar.terminalCount
  known : ∀ operator ∈ ladder.binaries, ∃ production ∈ grammar.productions,
    production.lhs = ladder.binary ∧
      production.rhs = [ladder.expression, operator.1, ladder.expression]
  /-- Only in its own productions does an operator stand behind an operand. -/
  behind : ∀ production ∈ grammar.productions, ∀ (dot : Nat),
    production.rhs[dot]? = some ladder.expression → ∀ operator ∈ ladder.binaries,
      production.rhs[dot + 1]? = some operator.1 → production.lhs = ladder.binary
  /-- No operand is followed by what can start with a unary operation. -/
  apart : ∀ production ∈ grammar.productions, ∀ (dot next : Nat),
    production.rhs[dot]? = some ladder.expression → production.rhs[dot + 1]? = some next →
      ¬ grammar.StartsWith next ladder.unary
  /-- The operators of unary operations stand in operations only. -/
  elsewhere : ∀ production ∈ grammar.productions, ∀ operator ∈ ladder.unaries,
    operator.1 ∈ production.rhs → production.lhs = ladder.binary ∨ production.lhs = ladder.unary
  level : ∀ first ∈ ladder.binaries, ∀ second ∈ ladder.binaries, first.1 = second.1 →
    first.2 = second.2
  level_unary : ∀ first ∈ ladder.unaries, ∀ second ∈ ladder.unaries, first.1 = second.1 →
    first.2 = second.2
  distinct : ∀ first ∈ ladder.unaries, ∀ second ∈ ladder.binaries, first.2 ≠ second.2

namespace Climbs

variable {grammar : FlatGrammar} {ladder : Ladder Nat} {place index : Nat}
  {production : Production} {operator : Nat × Int32}

/-! ## Productions -/

/-- A production with symbols has the marks of its last step. -/
theorem exists_last_step (found : grammar.productions[index]? = some production)
    (filled : production.rhs ≠ []) :
    ∃ step ∈ production.steps, grammar.precedenceOf index = step.precedence ∧
      grammar.associativityOf index = step.associativity := by
  have steps : production.steps ≠ [] := fun none => filled (by simp [Production.rhs, none])
  refine ⟨_, List.getLast_mem steps, ?_, ?_⟩
  · simp [precedenceOf, found, Production.precedence, List.getLast?_eq_getLast_of_ne_nil steps]
  · simp [associativityOf, found, Production.associativity,
      List.getLast?_eq_getLast_of_ne_nil steps]

theorem rhs_binary (climbs : grammar.Climbs ladder)
    (found : grammar.productions[index]? = some production)
    (isBinary : production.lhs = ladder.binary) :
    ∃ operator ∈ ladder.binaries,
      production.rhs = [ladder.expression, operator.1, ladder.expression] ∧
      (∀ step ∈ production.steps, step.precedence = operator.2) ∧
      grammar.precedenceOf index = operator.2 ∧ grammar.associativityOf index = some .left := by
  obtain ⟨operator, listed, rhs, marks⟩ :=
    climbs.binary production (Array.mem_of_getElem? found) isBinary
  obtain ⟨step, member, precedence, associativity⟩ := exists_last_step found (by simp [rhs])
  exact ⟨operator, listed, rhs, fun other inside => (marks other inside).1,
    precedence.trans (marks step member).1, associativity.trans (marks step member).2⟩

theorem rhs_unary (climbs : grammar.Climbs ladder)
    (found : grammar.productions[index]? = some production)
    (isUnary : production.lhs = ladder.unary) :
    ∃ operator ∈ ladder.unaries, production.rhs = [operator.1, ladder.expression] ∧
      grammar.precedenceOf index = operator.2 := by
  obtain ⟨operator, listed, rhs, marks⟩ :=
    climbs.unary production (Array.mem_of_getElem? found) isUnary
  obtain ⟨step, member, precedence, _⟩ := exists_last_step found (by simp [rhs])
  exact ⟨operator, listed, rhs, precedence.trans (marks step member)⟩

theorem le_expression (climbs : grammar.Climbs ladder) (numbered : grammar.WellNumbered) :
    grammar.terminalCount ≤ ladder.expression := by
  obtain ⟨production, member, same, _⟩ := climbs.wraps_binary
  exact same ▸ (numbered.lhs_range production member).1

theorem binary_lt (climbs : grammar.Climbs ladder) (listed : operator ∈ ladder.binaries) :
    operator.1 < grammar.terminalCount :=
  climbs.terminals operator (List.mem_append_left _ listed)

theorem unary_lt (climbs : grammar.Climbs ladder) (listed : operator ∈ ladder.unaries) :
    operator.1 < grammar.terminalCount :=
  climbs.terminals operator (List.mem_append_right _ listed)

/-! ## Operators behind operands -/

theorem exists_wrap {inner : Nat}
    (wraps : ∃ production ∈ grammar.productions,
      production.lhs = ladder.expression ∧ production.rhs = [inner]) :
    ∃ (index : Nat) (production : Production), grammar.productions[index]? = some production ∧
      production.lhs = ladder.expression ∧ grammar.items.symbols index = [inner] := by
  obtain ⟨production, member, lhs, rhs⟩ := wraps
  obtain ⟨index, found⟩ := Array.getElem?_of_mem member
  exact ⟨index, production, found, lhs, (items_symbols found).trans rhs⟩

/-- Where an operand is expected, every binary operation can start. -/
theorem exists_binary (climbs : grammar.Climbs ladder) (numbered : grammar.WellNumbered)
    {item : Item} (has : grammar.automaton.HasItem place item)
    (next : grammar.items.next? item = some ladder.expression)
    (listed : operator ∈ ladder.binaries) :
    ∃ index, grammar.automaton.HasItem place ⟨index, 0⟩ ∧
      grammar.items.symbols index = [ladder.expression, operator.1, ladder.expression] := by
  obtain ⟨wrap, wrapper, foundWrap, lhsWrap, symbols⟩ := exists_wrap climbs.wraps_binary
  have wrapped := hasItem_predict numbered has foundWrap (by rw [next, lhsWrap])
  obtain ⟨production, member, lhs, rhs⟩ := climbs.known operator listed
  obtain ⟨index, found⟩ := Array.getElem?_of_mem member
  exact ⟨index, hasItem_predict numbered wrapped found (by simp [ItemGrammar.next?, symbols, lhs]),
    (items_symbols found).trans rhs⟩

/-- Behind an operand an operator is read with its level. -/
theorem readsWith (climbs : grammar.Climbs ladder) (numbered : grammar.WellNumbered)
    {target : Nat} (edge : grammar.automaton.Edge place ladder.expression target)
    (listed : operator ∈ ladder.binaries) :
    grammar.ReadsWith target operator.1 operator.2 := by
  constructor
  · obtain ⟨item, has, next⟩ := exists_item_of_edge numbered edge
    obtain ⟨index, starts, symbols⟩ := climbs.exists_binary numbered has next listed
    obtain ⟨other, otherEdge, moved⟩ := hasItem_advance numbered starts
      (show _ = some ladder.expression by simp [ItemGrammar.next?, symbols])
    obtain rfl := edge_functional numbered edge otherEdge
    exact ⟨index, 0, moved, by simp [ItemGrammar.next?, symbols]⟩
  · intro index dot production step has found placed same
    have before := (hasItem_retreat numbered edge has).2
    rw [ItemGrammar.next?, items_symbols found] at before
    have here : production.rhs[dot + 1]? = some operator.1 := by
      simp [Production.rhs, placed, same]
    have isBinary := climbs.behind production (Array.mem_of_getElem? found) dot before operator
      listed here
    obtain ⟨other, otherListed, rhs, levels, _⟩ := climbs.rhs_binary found isBinary
    rw [levels step (List.mem_of_getElem? placed)]
    refine climbs.level other otherListed operator listed ?_
    rw [rhs] at here
    cases dot with
    | zero => simpa using here
    | succ dot =>
        cases dot with
        | zero =>
            have same : ladder.expression = operator.1 := by simpa using here
            exact absurd (climbs.binary_lt listed)
              (Nat.not_lt.mpr (same ▸ climbs.le_expression numbered))
        | succ dot => simp at here

/-- An operation that starts where an operand is expected may be followed by any operator. -/
theorem hasLookahead_start (climbs : grammar.Climbs ladder) (numbered : grammar.WellNumbered)
    {item : Item} (has : grammar.automaton.HasItem place item)
    (next : grammar.items.next? item = some ladder.expression)
    (found : grammar.productions[index]? = some production)
    (wraps : ∃ wrapper ∈ grammar.productions,
      wrapper.lhs = ladder.expression ∧ wrapper.rhs = [production.lhs])
    (listed : operator ∈ ladder.binaries) :
    grammar.automaton.HasLookahead place ⟨index, 0⟩ operator.1 := by
  obtain ⟨start, starts, symbols⟩ := climbs.exists_binary numbered has next listed
  obtain ⟨wrap, wrapper, foundWrap, lhsWrap, wrapped⟩ := exists_wrap wraps
  have outer : grammar.automaton.HasLookahead place ⟨wrap, 0⟩ ([operator.1].head?.getD 0) :=
    hasLookahead_before_terminal numbered starts foundWrap
      (by simp [ItemGrammar.next?, symbols, lhsWrap])
      (by simp [symbols]) (climbs.binary_lt listed)
  have inner : grammar.Yields ((grammar.items.symbols wrap).drop (0 + 1)) [] := by
    rw [wrapped]
    exact .nil
  exact hasLookahead_predict numbered found (by simp [ItemGrammar.next?, wrapped]) inner outer

/-- Behind its right operand a binary operation may be followed by any operator. -/
theorem hasLookahead_binary (climbs : grammar.Climbs ladder) (numbered : grammar.WellNumbered)
    (found : grammar.productions[index]? = some production)
    (isBinary : production.lhs = ladder.binary) {dot : Nat}
    (has : grammar.automaton.HasItem place ⟨index, dot⟩) (listed : operator ∈ ladder.binaries) :
    grammar.automaton.HasLookahead place ⟨index, dot⟩ operator.1 := by
  obtain ⟨_, _, rhs, _⟩ := climbs.rhs_binary found isBinary
  obtain ⟨row, placed, _⟩ := id has
  obtain ⟨path, isPath, rfl⟩ := exists_path numbered (Array.getElem?_eq_some_iff.mp placed).1
  refine hasLookahead_of_start numbered (fun place starts => ?_) isPath has
  refine climbs.hasLookahead_start numbered starts ?_ found ?_ listed
  · rw [ItemGrammar.next?, items_symbols found, rhs]
    rfl
  · rw [isBinary]
    exact climbs.wraps_binary

/-! ## Operators in front of operands -/

/-- Where a unary operation can start, nothing else reads its operator. -/
theorem starts_of_reads (climbs : grammar.Climbs ladder) (numbered : grammar.WellNumbered)
    (found : grammar.productions[index]? = some production)
    (isUnary : production.lhs = ladder.unary)
    (starts : grammar.automaton.HasItem place ⟨index, 0⟩) (listed : operator ∈ ladder.unaries)
    {item : Item} (has : grammar.automaton.HasItem place item)
    (reads : grammar.items.next? item = some operator.1) :
    item.dot = 0 ∧ ∃ other, grammar.productions[item.production]? = some other ∧
      other.lhs = ladder.unary := by
  have notOperand : ladder.expression ≠ operator.1 := fun same =>
    absurd (climbs.unary_lt listed) (Nat.not_lt.mpr (same ▸ climbs.le_expression numbered))
  obtain ⟨reader, dot⟩ := item
  obtain ⟨other, known, next⟩ := exists_production_of_terminal numbered reads (climbs.unary_lt listed)
  rcases climbs.elsewhere other (Array.mem_of_getElem? known) operator listed
    (List.mem_of_getElem? next) with otherBinary | otherUnary
  · -- the operator would stand behind an operand, and a unary operation could start there
    obtain ⟨_, _, rhs, _⟩ := climbs.rhs_binary known otherBinary
    rw [rhs] at next
    obtain rfl : dot = 1 := by
      cases dot with
      | zero => exact absurd (by simpa using next) notOperand
      | succ dot =>
          cases dot with
          | zero => rfl
          | succ dot =>
              cases dot with
              | zero => exact absurd (by simpa using next) notOperand
              | succ dot => simp at next
    obtain ⟨row, placed, _⟩ := id has
    obtain ⟨path, isPath, rfl⟩ := exists_path numbered (Array.getElem?_eq_some_iff.mp placed).1
    cases isPath with
    | start => exact absurd (path_of_hasItem numbered .start has).1 (Nat.not_succ_le_zero 0)
    | @step path symbol target _ edge =>
        have inner : 0 < target := Nat.pos_of_ne_zero fun zero =>
          not_edge_zero numbered (zero ▸ edge)
        obtain ⟨outer, holder, dot, expected, held, behind, moved, leads⟩ :=
          exists_outer numbered inner found starts
        have before := (hasItem_retreat numbered edge has).2
        rw [ItemGrammar.next?, items_symbols known, rhs] at before
        obtain rfl : ladder.expression = symbol := by simpa using before
        have operand := (hasItem_retreat numbered edge moved).2
        rw [ItemGrammar.next?, items_symbols held] at operand
        exact absurd (isUnary ▸ leads) (climbs.apart holder (Array.mem_of_getElem? held) dot
          expected operand behind)
  · obtain ⟨_, _, rhs, _⟩ := climbs.rhs_unary known otherUnary
    refine ⟨?_, other, known, otherUnary⟩
    rw [rhs] at next
    cases dot with
    | zero => rfl
    | succ dot =>
        cases dot with
        | zero => exact absurd (by simpa using next) notOperand
        | succ dot => simp at next

/-- Behind its operator a unary operation can start again, and its operator leads back there. -/
theorem edge_again (climbs : grammar.Climbs ladder) (numbered : grammar.WellNumbered)
    (found : grammar.productions[index]? = some production)
    (isUnary : production.lhs = ladder.unary) (listed : operator ∈ ladder.unaries)
    (rhs : production.rhs = [operator.1, ladder.expression])
    (has : grammar.automaton.HasItem place ⟨index, 1⟩) :
    grammar.automaton.HasItem place ⟨index, 0⟩ ∧
      grammar.automaton.Edge place operator.1 place := by
  obtain ⟨wrap, wrapper, foundWrap, lhsWrap, wrapped⟩ := exists_wrap climbs.wraps_unary
  have outer := hasItem_predict numbered has foundWrap (by
    simp [ItemGrammar.next?, items_symbols found, rhs, lhsWrap])
  have starts := hasItem_predict numbered outer found (by
    simp [ItemGrammar.next?, wrapped, isUnary])
  have reads : grammar.items.next? ⟨index, 0⟩ = some operator.1 := by
    simp [ItemGrammar.next?, items_symbols found, rhs]
  obtain ⟨target, again, _⟩ := hasItem_advance numbered starts reads
  obtain ⟨row, placed, _⟩ := id has
  obtain ⟨path, isPath, rfl⟩ := exists_path numbered (Array.getElem?_eq_some_iff.mp placed).1
  cases isPath with
  | start => exact absurd (path_of_hasItem numbered .start has).1 (Nat.not_succ_le_zero 0)
  | @step path symbol place _ edge =>
      obtain ⟨before, next⟩ := hasItem_retreat numbered edge has
      obtain rfl := Option.some.inj (next.symm.trans reads)
      -- in both states the operator is read where unary operations start, and nowhere else
      have reader : ∀ {first second : Nat}, grammar.automaton.HasItem first ⟨index, 0⟩ →
          grammar.automaton.HasItem second ⟨index, 0⟩ → ∀ {item : Item},
            grammar.items.next? item = some operator.1 →
              grammar.automaton.HasItem first item → grammar.automaton.HasItem second item := by
        rintro first second starts startsSecond ⟨other, dot⟩ reading inside
        obtain ⟨rfl, production', known, lhs⟩ :=
          climbs.starts_of_reads numbered found isUnary starts listed inside reading
        obtain ⟨item, expecting, expects⟩ := exists_expecting numbered found startsSecond
        exact hasItem_predict numbered expecting known (by rw [expects, isUnary, lhs])
      have same := target_eq_of_readers numbered edge again fun item reading =>
        ⟨reader before starts reading, reader starts before reading⟩
      exact ⟨starts, same ▸ again⟩

/-- Behind its operand a unary operation may be followed by any binary operator. -/
theorem hasLookahead_unary (climbs : grammar.Climbs ladder) (numbered : grammar.WellNumbered)
    (found : grammar.productions[index]? = some production)
    (isUnary : production.lhs = ladder.unary)
    (has : grammar.automaton.HasItem place ⟨index, 1⟩) {target : Nat}
    (edge : grammar.automaton.Edge place ladder.expression target)
    (listed : operator ∈ ladder.binaries) :
    grammar.automaton.HasLookahead target ⟨index, 2⟩ operator.1 := by
  obtain ⟨front, frontListed, rhs, _⟩ := climbs.rhs_unary found isUnary
  obtain ⟨_, again⟩ := climbs.edge_again numbered found isUnary frontListed rhs has
  have expects : grammar.items.next? ⟨index, 1⟩ = some ladder.expression := by
    simp [ItemGrammar.next?, items_symbols found, rhs]
  have start := climbs.hasLookahead_start numbered has expects found
    (isUnary.symm ▸ climbs.wraps_unary) listed
  have operand := hasLookahead_advance numbered again
    (by simp [ItemGrammar.next?, items_symbols found, rhs]) start
  exact hasLookahead_advance numbered edge expects operand

end Climbs

end FlatGrammar

/-! ## Trees -/

namespace Ladder

/-- An operation between two operands, at the level of its operator. -/
def IsBinary (ladder : Ladder Nat) (tree : SymbolTree) (level : Int32) (left right : SymbolTree) :
    Prop :=
  ∃ symbol first operator last,
    tree = .node symbol [.node first [left], .token operator, .node last [right]] ∧
      symbol.toNat = ladder.binary ∧ first.toNat = ladder.expression ∧
      last.toNat = ladder.expression ∧ (operator.toNat, level) ∈ ladder.binaries

/-- An operation in front of its operand, at the level of its operator. -/
def IsUnary (ladder : Ladder Nat) (tree : SymbolTree) (level : Int32) (operand : SymbolTree) :
    Prop :=
  ∃ symbol operator last, tree = .node symbol [.token operator, .node last [operand]] ∧
    symbol.toNat = ladder.unary ∧ last.toNat = ladder.expression ∧
    (operator.toNat, level) ∈ ladder.unaries

/-- The operations of a tree have operands, and those of its root bind as the ladder says: what
stands to the left binds no weaker, what stands to the right binds stronger. -/
structure Respected (ladder : Ladder Nat) (tree : SymbolTree) : Prop where
  binary : ∀ symbol children, tree = .node symbol children → symbol.toNat = ladder.binary →
    ∃ level left right, ladder.IsBinary tree level left right
  unary : ∀ symbol children, tree = .node symbol children → symbol.toNat = ladder.unary →
    ∃ level operand, ladder.IsUnary tree level operand
  left : ∀ level left right, ladder.IsBinary tree level left right →
    (∀ inner first second, ladder.IsBinary left inner first second → level ≤ inner) ∧
      ∀ inner operand, ladder.IsUnary left inner operand → level ≤ inner
  right : ∀ level left right, ladder.IsBinary tree level left right →
    ∀ inner first second, ladder.IsBinary right inner first second → level < inner
  operand : ∀ level operand, ladder.IsUnary tree level operand →
    ∀ inner first second, ladder.IsBinary operand inner first second → level < inner

theorem respected_token (ladder : Ladder Nat) (symbol : SymbolId) :
    ladder.Respected (.token symbol) where
  binary := nofun
  unary := nofun
  left := nofun
  right := nofun
  operand := nofun

/-- A node without children is no operation. -/
theorem respected_childless (ladder : Ladder Nat) {symbol : SymbolId}
    (notBinary : symbol.toNat ≠ ladder.binary) (notUnary : symbol.toNat ≠ ladder.unary) :
    ladder.Respected (.node symbol []) where
  binary other _ same isBinary :=
    absurd ((SymbolTree.node.inj same).1 ▸ isBinary) notBinary
  unary other _ same isUnary := absurd ((SymbolTree.node.inj same).1 ▸ isUnary) notUnary
  left := by
    rintro _ _ _ ⟨_, _, _, _, shape, _⟩
    cases shape
  right := by
    rintro _ _ _ ⟨_, _, _, _, shape, _⟩
    cases shape
  operand := by
    rintro _ _ ⟨_, _, _, shape, _⟩
    cases shape

end Ladder

namespace FlatGrammar.Climbs

open LanguageTables SymbolTree

variable {tables : LanguageTables} {grammar : FlatGrammar} {ladder : Ladder Nat}
  {state final : StateId} {tree : SymbolTree} {children : List SymbolTree} {rest : List SymbolId}
  (climbs : grammar.Climbs ladder) (represents : tables.Represents grammar)

include climbs represents

/-- An operand is a node over a single tree. -/
theorem operand_spec (reads : tables.Reads state [tree] final rest)
    (same : tree.symbol.toNat = ladder.expression) :
    ∃ symbol inner below, tree = .node symbol [inner] ∧ symbol.toNat = ladder.expression ∧
      tables.Reads state [inner] below rest ∧
      grammar.automaton.Edge state.toNat ladder.expression final.toNat := by
  obtain ⟨symbol, children, rfl⟩ := reads.isNode_of_nonterminal represents
    (same ▸ climbs.le_expression represents.numbered)
  obtain ⟨below, id, production, inside, _, found, lhs, symbols, _, edge⟩ :=
    reads.node_spec represents
  have single := climbs.wraps production (Array.mem_of_getElem? found) (lhs.trans same)
  rw [← symbols, List.length_map] at single
  obtain ⟨inner, rfl⟩ := List.length_eq_one_iff.mp single
  exact ⟨symbol, inner, below, rfl, same, inside, same ▸ edge⟩

/-- An operation that is reduced in front of an operator is at least as strong. -/
theorem le_of_reads {symbol token : SymbolId} (front : List SymbolTree) {last : SymbolTree}
    (reads : tables.Reads state [.node symbol (front ++ [last])] final (token :: rest))
    (same : last.symbol.toNat = ladder.expression) {level : Int32}
    (listed : (token.toNat, level) ∈ ladder.binaries) :
    ∃ (id : ProductionId) (production : Production),
      grammar.productions[id.toNat]? = some production ∧ production.lhs = symbol.toNat ∧
      (front ++ [last]).map (fun child => child.symbol.toNat) = production.rhs ∧
      level ≤ grammar.precedenceOf id.toNat := by
  obtain ⟨inner, id, production, inside, action, found, lhs, symbols, _⟩ :=
    reads.node_spec represents
  obtain ⟨middle, _, operand⟩ := inside.append_inv
  obtain ⟨_, _, _, _, _, _, edge⟩ := climbs.operand_spec represents operand same
  refine ⟨id, production, found, lhs, symbols, ?_⟩
  exact represents.le_precedenceOf (climbs.readsWith represents.numbered edge listed)
    (by simpa [isTerminal] using climbs.binary_lt listed) action

/-- A binary operation that is read as the last operand of another one is at least as strong; if
it is as strong, the other one does not group to the left. -/
theorem le_of_reads_operand {last : SymbolId} {right first second : SymbolTree} {level : Int32}
    (reads : tables.Reads state [.node last [right]] final rest)
    (same : last.toNat = ladder.expression) (isBinary : ladder.IsBinary right level first second)
    {index : Nat} {production : Production} (found : grammar.productions[index]? = some production)
    (ends : ∀ operator ∈ ladder.binaries, grammar.automaton.HasLookahead final.toNat
      ⟨index, production.steps.length⟩ operator.1) :
    grammar.precedenceOf index ≤ level ∧
      (grammar.precedenceOf index = level → grammar.associativityOf index ≠ some .left) := by
  obtain ⟨_, before, token, _, rfl, _, isOperand, _, listed⟩ := isBinary
  obtain ⟨_, _, _, inside, _, _, _, _, _, edge⟩ := reads.node_spec represents
  obtain ⟨_, _, _, operation, _⟩ := inside.node_spec represents
  obtain ⟨middle, operand, behind⟩ := operation.cons_inv
  obtain ⟨next, operator, _⟩ := behind.cons_inv
  -- the operator is shifted where the outer operation could be reduced
  obtain ⟨_, _, _, _, _, _, _, _, _, edgeOperand⟩ := operand.node_spec represents
  rw [same] at edge
  rw [isOperand] at edgeOperand
  obtain rfl : final = middle := UInt32.toNat_inj.mp
    (edge_functional represents.numbered edge edgeOperand)
  exact represents.precedenceOf_le (climbs.readsWith represents.numbered edge listed)
    operator.token_inv found (ends _ listed)

theorem isBinary_of_reads {symbol : SymbolId}
    (reads : tables.Reads state [.node symbol children] final rest)
    (same : symbol.toNat = ladder.binary) :
    ∃ level left right, ladder.IsBinary (.node symbol children) level left right := by
  obtain ⟨inner, id, production, inside, _, found, lhs, symbols, _⟩ := reads.node_spec represents
  obtain ⟨operator, listed, rhs, _⟩ := climbs.rhs_binary found (lhs.trans same)
  rw [rhs] at symbols
  obtain ⟨first, children, rfl, isFirst, symbols⟩ := List.map_eq_cons_iff.mp symbols
  obtain ⟨middle, children, rfl, isOperator, symbols⟩ := List.map_eq_cons_iff.mp symbols
  obtain ⟨last, children, rfl, isLast, symbols⟩ := List.map_eq_cons_iff.mp symbols
  obtain rfl := List.map_eq_nil_iff.mp symbols
  obtain ⟨_, operand, behind⟩ := inside.cons_inv
  obtain ⟨_, token, second⟩ := behind.cons_inv
  obtain ⟨_, left, _, rfl, isLeft, _⟩ := climbs.operand_spec represents operand isFirst
  obtain ⟨_, rfl, _⟩ := token.isToken_of_terminal represents
    (by rw [isOperator]; exact climbs.binary_lt listed)
  obtain ⟨_, right, _, rfl, isRight, _⟩ := climbs.operand_spec represents second isLast
  exact ⟨operator.2, left, right, _, _, _, _, rfl, same, isLeft, isRight, isOperator ▸ listed⟩

theorem isUnary_of_reads {symbol : SymbolId}
    (reads : tables.Reads state [.node symbol children] final rest)
    (same : symbol.toNat = ladder.unary) :
    ∃ level operand, ladder.IsUnary (.node symbol children) level operand := by
  obtain ⟨inner, id, production, inside, _, found, lhs, symbols, _⟩ := reads.node_spec represents
  obtain ⟨operator, listed, rhs, _⟩ := climbs.rhs_unary found (lhs.trans same)
  rw [rhs] at symbols
  obtain ⟨first, children, rfl, isOperator, symbols⟩ := List.map_eq_cons_iff.mp symbols
  obtain ⟨last, children, rfl, isLast, symbols⟩ := List.map_eq_cons_iff.mp symbols
  obtain rfl := List.map_eq_nil_iff.mp symbols
  obtain ⟨_, token, operand⟩ := inside.cons_inv
  obtain ⟨_, rfl, _⟩ := token.isToken_of_terminal represents
    (by rw [isOperator]; exact climbs.unary_lt listed)
  obtain ⟨_, inner, _, rfl, isOperand, _⟩ := climbs.operand_spec represents operand isLast
  exact ⟨operator.2, inner, _, _, _, rfl, same, isOperand, isOperator ▸ listed⟩

omit represents in
theorem precedenceOf_binary {index : Nat} {production : Production}
    (found : grammar.productions[index]? = some production)
    (isBinary : production.lhs = ladder.binary) {token : SymbolId} {level : Int32}
    (reads : production.rhs[1]? = some token.toNat) (listed : (token.toNat, level) ∈ ladder.binaries) :
    grammar.precedenceOf index = level ∧ grammar.associativityOf index = some .left := by
  obtain ⟨operator, operatorListed, rhs, _, precedence, associativity⟩ :=
    climbs.rhs_binary found isBinary
  rw [rhs] at reads
  obtain rfl := climbs.level operator operatorListed _ listed (Option.some.inj reads)
  exact ⟨precedence, associativity⟩

omit represents in
theorem precedenceOf_unary {index : Nat} {production : Production}
    (found : grammar.productions[index]? = some production)
    (isUnary : production.lhs = ladder.unary) {token : SymbolId} {level : Int32}
    (reads : production.rhs[0]? = some token.toNat) (listed : (token.toNat, level) ∈ ladder.unaries) :
    grammar.precedenceOf index = level := by
  obtain ⟨operator, operatorListed, rhs, precedence⟩ := climbs.rhs_unary found isUnary
  rw [rhs] at reads
  obtain rfl := climbs.level_unary operator operatorListed _ listed (Option.some.inj reads)
  exact precedence

/-- Whatever is read as an operation is respected. -/
theorem respected_of_reads_node {symbol : SymbolId}
    (reads : tables.Reads state [.node symbol children] final rest) :
    ladder.Respected (.node symbol children) := by
  have numbered := represents.numbered
  refine ⟨?_, ?_, ?_, ?_, ?_⟩
  case refine_1 =>
      intro _ _ shape same
      obtain ⟨rfl, rfl⟩ := SymbolTree.node.inj shape
      exact climbs.isBinary_of_reads represents reads same
  case refine_2 =>
      intro _ _ shape same
      obtain ⟨rfl, rfl⟩ := SymbolTree.node.inj shape
      exact climbs.isUnary_of_reads represents reads same
  case refine_3 =>
      rintro level left right ⟨_, first, token, last, shape, _, _, _, listed⟩
      obtain ⟨rfl, rfl⟩ := SymbolTree.node.inj shape
      obtain ⟨_, _, _, inside, _⟩ := reads.node_spec represents
      obtain ⟨_, operand, _⟩ := inside.cons_inv
      obtain ⟨_, _, _, below, _⟩ := operand.node_spec represents
      constructor
      · rintro inner before behind ⟨_, _, sign, back, rfl, isBinary, _, isBack, signed⟩
        obtain ⟨id, production, found, lhs, symbols, le⟩ :=
          climbs.le_of_reads represents [_, _] below isBack listed
        rwa [(climbs.precedenceOf_binary found (lhs.trans isBinary)
          (by rw [← symbols]; rfl) signed).1] at le
      · rintro inner operand ⟨_, sign, back, rfl, isUnary, isBack, signed⟩
        obtain ⟨id, production, found, lhs, symbols, le⟩ :=
          climbs.le_of_reads represents [_] below isBack listed
        rwa [climbs.precedenceOf_unary found (lhs.trans isUnary)
          (by rw [← symbols]; rfl) signed] at le
  case refine_4 =>
      rintro level left right ⟨_, first, token, last, shape, isBinary, _, isLast, listed⟩
      obtain ⟨rfl, rfl⟩ := SymbolTree.node.inj shape
      intro inner before behind isInner
      obtain ⟨_, id, production, inside, _, found, lhs, symbols, complete, _⟩ :=
        reads.node_spec represents
      obtain ⟨_, _, others⟩ := inside.cons_inv
      obtain ⟨_, _, operand⟩ := others.cons_inv
      rw [Production.rhs, List.length_map] at complete
      obtain ⟨precedence, associativity⟩ := climbs.precedenceOf_binary found (lhs.trans isBinary)
        (by rw [← symbols]; rfl) listed
      obtain ⟨le, notLeft⟩ := climbs.le_of_reads_operand represents operand isLast isInner found
        fun operator known =>
          climbs.hasLookahead_binary numbered found (lhs.trans isBinary) complete known
      rw [precedence] at le notLeft
      exact Int32.lt_of_le_of_ne le fun same => notLeft same associativity
  case refine_5 =>
      rintro level operand ⟨_, token, last, shape, isUnary, isLast, listed⟩
      obtain ⟨rfl, rfl⟩ := SymbolTree.node.inj shape
      intro inner before behind isInner
      obtain ⟨_, id, production, inside, _, found, lhs, symbols, complete, _⟩ :=
        reads.node_spec represents
      obtain ⟨_, _, reading⟩ := inside.cons_inv
      obtain ⟨_, _, _, _, _, _, edge⟩ := climbs.operand_spec represents reading isLast
      rw [← symbols] at complete
      have length : production.steps.length = 2 := by
        rw [← List.length_map Step.symbol]
        exact (congrArg List.length symbols).symm
      have before := (hasItem_retreat numbered edge complete).1
      have precedence := climbs.precedenceOf_unary found (lhs.trans isUnary)
        (by rw [← symbols]; rfl) listed
      obtain ⟨le, _⟩ := climbs.le_of_reads_operand represents reading isLast isInner found
        fun operator known => length ▸
          climbs.hasLookahead_unary numbered found (lhs.trans isUnary) before edge known
      obtain ⟨_, _, sign, _, _, _, _, _, signed⟩ := isInner
      rw [precedence] at le
      exact Int32.lt_of_le_of_ne le (climbs.distinct _ listed _ signed)

/-- Every tree that the table reads respects the ladder, in all its parts. -/
theorem respected_of_reads {trees : List SymbolTree} (reads : tables.Reads state trees final rest) :
    ∀ tree ∈ trees, tree.Everywhere ladder.Respected := by
  induction reads with
  | nil => exact nofun
  | token _ _ ih =>
      rw [List.forall_mem_cons]
      exact ⟨everywhere_token (ladder.respected_token _), ih⟩
  | node inside action stored symbols leads _ ihChildren ih =>
      rw [List.forall_mem_cons]
      exact ⟨everywhere_node (climbs.respected_of_reads_node represents
        (.node inside action stored symbols leads (.nil _ _))) ihChildren, ih⟩

end FlatGrammar.Climbs

end Lalr
