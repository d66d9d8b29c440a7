import Lalr.Proofs.Parser.Machine

set_option autoImplicit false

/-!
The machine with the trees it builds. A shift pushes a token, a reduction puts the trees it takes
off the stack under one node; forgetting the trees gives the machine back. Where a tree stands on a
stack, the table reads its word from the state below it to the state behind it, with the terminal
behind it in view; so what is known of single actions carries over to trees of any depth.
-/

namespace Lalr

/-! ## The machine and its trees -/

/-- A tree over the symbols of a table. -/
inductive SymbolTree where
  | token (symbol : SymbolId)
  | node (symbol : SymbolId) (children : List SymbolTree)
deriving Repr

/-- A configuration of the building machine: the states behind the first one with the trees read
before them, the top first, and the terminals not read yet. -/
structure BuildConfiguration where
  stack : List (StateId × SymbolTree)
  rest : List SymbolId

namespace BuildConfiguration

/-- The state on top of a stack. -/
def topOf (stack : List (StateId × SymbolTree)) : StateId :=
  (stack.head?.map Prod.fst).getD 0

/-- The configuration after the next action, if it is a shift or a reduction. -/
def step? (tables : LanguageTables) (config : BuildConfiguration) : Option BuildConfiguration :=
  match tables.action (topOf config.stack) (nextTerminal config.rest) with
  | .shift next =>
      match config.rest with
      | [] => none
      | symbol :: rest => some ⟨(next, .token symbol) :: config.stack, rest⟩
  | .reduce id =>
      match tables.productions[id.toNat]? with
      | none => none
      | some production =>
          let count := production.rhs.length
          if count ≤ config.stack.length then
            let under := config.stack.drop count
            let children := ((config.stack.take count).map Prod.snd).reverse
            (tables.goto? (topOf under) production.lhs).map fun next =>
              ⟨(next, .node production.lhs children) :: under, config.rest⟩
          else none
  | .accept | .error | .goto _ => none

/-- The machine gets from one configuration to another. -/
def Reaches (tables : LanguageTables) : BuildConfiguration → BuildConfiguration → Prop :=
  Relation.ReflTransGen fun before after => before.step? tables = some after

/-- The configuration without its trees. -/
def forget (config : BuildConfiguration) : Configuration :=
  ⟨config.stack.map Prod.fst ++ [0], config.rest⟩

variable {tables : LanguageTables} {config after : BuildConfiguration}

theorem states_eq (stack : List (StateId × SymbolTree)) :
    ∃ below, stack.map Prod.fst ++ [0] = topOf stack :: below := by
  cases stack with
  | nil => exact ⟨[], rfl⟩
  | cons entry stack => exact ⟨stack.map Prod.fst ++ [0], rfl⟩

/-- Building trees changes nothing about the steps. -/
theorem step?_forget (config : BuildConfiguration) :
    (config.step? tables).map forget = config.forget.step? tables := by
  obtain ⟨stack, rest⟩ := config
  obtain ⟨below, shape⟩ := states_eq stack
  simp only [step?, forget, Configuration.step?, shape]
  cases tables.action (topOf stack) (nextTerminal rest) with
  | shift next =>
      cases rest with
      | nil => rfl
      | cons symbol rest => simp [forget, shape]
  | reduce id =>
      dsimp only
      cases tables.productions[id.toNat]? with
      | none => rfl
      | some production =>
          dsimp only
          rw [← shape]
          by_cases enough : production.rhs.length ≤ stack.length
          case pos =>
              obtain ⟨remaining, under⟩ := states_eq (stack.drop production.rhs.length)
              have popped : (stack.map Prod.fst ++ [0]).drop production.rhs.length =
                  topOf (stack.drop production.rhs.length) :: remaining := by
                rw [List.drop_append_of_le_length (by simpa using enough), ← List.map_drop, under]
              rw [if_pos enough, popped]
              dsimp only
              cases tables.goto? (topOf (stack.drop production.rhs.length)) production.lhs with
              | none => rfl
              | some next => simp [forget, ← under]
          case neg =>
              have empty : (stack.map Prod.fst ++ [0]).drop production.rhs.length = [] :=
                List.drop_eq_nil_of_le (by simp; omega)
              rw [if_neg enough, empty]
              rfl
  | accept => rfl
  | error => rfl
  | goto next => rfl

theorem step?_shift {stack : List (StateId × SymbolTree)} {next : StateId} {symbol : SymbolId}
    {rest : List SymbolId} (shift : tables.action (topOf stack) symbol = .shift next) :
    step? tables ⟨stack, symbol :: rest⟩ = some ⟨(next, .token symbol) :: stack, rest⟩ := by
  simp [step?, nextTerminal, shift]

theorem step?_reduce {pushed under : List (StateId × SymbolTree)} {rest : List SymbolId}
    {id : ProductionId} {production : ProductionInfo} {next : StateId}
    (reduce : tables.action (topOf (pushed ++ under)) (nextTerminal rest) = .reduce id)
    (found : tables.productions[id.toNat]? = some production)
    (length : pushed.length = production.rhs.length)
    (leads : tables.goto? (topOf under) production.lhs = some next) :
    step? tables ⟨pushed ++ under, rest⟩ =
      some ⟨(next, .node production.lhs (pushed.map Prod.snd).reverse) :: under, rest⟩ := by
  simp [step?, reduce, found, ← length, leads]

/-- Where no step is left, the machine has got to one configuration only. -/
theorem eq_of_reaches {first second : BuildConfiguration} (reached : Reaches tables config first)
    (done : first.step? tables = none) (other : Reaches tables config second)
    (otherDone : second.step? tables = none) : first = second := by
  induction reached using Relation.ReflTransGen.head_induction_on with
  | refl =>
      cases other using Relation.ReflTransGen.head_induction_on with
      | refl => rfl
      | head step _ => exact nomatch done.symm.trans step
  | head step _ ih =>
      cases other using Relation.ReflTransGen.head_induction_on with
      | refl => exact nomatch otherDone.symm.trans step
      | head otherStep later =>
          obtain rfl := Option.some.inj (step.symm.trans otherStep)
          exact ih later

end BuildConfiguration

/-- Started in the first state, the machine reads a whole word, accepts, and has built a tree. -/
def LanguageTables.Builds (tables : LanguageTables) (word : List SymbolId) (tree : SymbolTree) :
    Prop :=
  ∃ state, BuildConfiguration.Reaches tables ⟨[], word⟩ ⟨[(state, tree)], []⟩ ∧
    tables.action state endSymbol = .accept

/-- At most one tree is built of a word. -/
theorem LanguageTables.Builds.eq {tables : LanguageTables} {word : List SymbolId}
    {tree other : SymbolTree} (built : tables.Builds word tree)
    (otherBuilt : tables.Builds word other) : tree = other := by
  obtain ⟨state, reached, accepts⟩ := built
  obtain ⟨otherState, otherReached, otherAccepts⟩ := otherBuilt
  have done : ∀ {state : StateId} {tree : SymbolTree}, tables.action state endSymbol = .accept →
      BuildConfiguration.step? tables ⟨[(state, tree)], []⟩ = none := by
    intro state tree accepts
    simp [BuildConfiguration.step?, BuildConfiguration.topOf, nextTerminal, accepts]
  have same := BuildConfiguration.eq_of_reaches reached (done accepts) otherReached
    (done otherAccepts)
  have entries := List.cons.inj (congrArg BuildConfiguration.stack same)
  exact (Prod.mk.inj entries.1).2

/-! ## Whole trees -/

namespace SymbolTree

/-- A tree within another, or the whole of it. -/
inductive IsPartOf (part : SymbolTree) : SymbolTree → Prop where
  | whole : IsPartOf part part
  | inside {symbol : SymbolId} {children : List SymbolTree} {child : SymbolTree} :
      child ∈ children → IsPartOf part child → IsPartOf part (.node symbol children)

/-- All trees within a tree, itself included, have a property. -/
def Everywhere (property : SymbolTree → Prop) (tree : SymbolTree) : Prop :=
  ∀ part, part.IsPartOf tree → property part

theorem everywhere_token {property : SymbolTree → Prop} {symbol : SymbolId}
    (here : property (.token symbol)) : (token symbol).Everywhere property := by
  intro part lies
  cases lies with
  | whole => exact here

theorem everywhere_node {property : SymbolTree → Prop} {symbol : SymbolId}
    {children : List SymbolTree} (here : property (.node symbol children))
    (below : ∀ child ∈ children, child.Everywhere property) :
    (node symbol children).Everywhere property := by
  intro part lies
  cases lies with
  | whole => exact here
  | inside member lies => exact below _ member part lies

/-- The symbol at the root. -/
def symbol : SymbolTree → SymbolId
  | .token symbol => symbol
  | .node symbol _ => symbol

mutual

/-- The tokens of a tree. -/
def word : SymbolTree → List SymbolId
  | .token symbol => [symbol]
  | .node _ children => wordOf children

/-- The tokens of several trees. -/
def wordOf : List SymbolTree → List SymbolId
  | [] => []
  | tree :: trees => tree.word ++ wordOf trees

end

theorem wordOf_append (first second : List SymbolTree) :
    wordOf (first ++ second) = wordOf first ++ wordOf second := by
  induction first with
  | nil => rfl
  | cons tree first ih => rw [List.cons_append, wordOf, ih, wordOf, List.append_assoc]

end SymbolTree

open SymbolTree

namespace LanguageTables

variable {tables : LanguageTables} {grammar : FlatGrammar}

/-- From one state the table reads several trees to another, and the rest of the word follows. -/
inductive Reads (tables : LanguageTables) :
    StateId → List SymbolTree → StateId → List SymbolId → Prop where
  | nil (state : StateId) (rest : List SymbolId) : Reads tables state [] state rest
  | token {state next final : StateId} {symbol : SymbolId} {trees : List SymbolTree}
      {rest : List SymbolId} : tables.action state symbol = .shift next →
      Reads tables next trees final rest → Reads tables state (.token symbol :: trees) final rest
  | node {state inner next final : StateId} {id : ProductionId} {info : ProductionInfo}
      {children trees : List SymbolTree} {rest : List SymbolId} :
      Reads tables state children inner (wordOf trees ++ rest) →
      tables.action inner (nextTerminal (wordOf trees ++ rest)) = .reduce id →
      tables.productions[id.toNat]? = some info → children.map symbol = info.rhs →
      tables.goto? state info.lhs = some next → Reads tables next trees final rest →
      Reads tables state (.node info.lhs children :: trees) final rest

namespace Reads

variable {state middle final : StateId} {first second trees : List SymbolTree} {tree : SymbolTree}
  {rest : List SymbolId}

theorem append (left : tables.Reads state first middle (wordOf second ++ rest))
    (right : tables.Reads middle second final rest) :
    tables.Reads state (first ++ second) final rest := by
  generalize behind : wordOf second ++ rest = following at left
  induction left with
  | nil => exact right
  | token shift _ ih => exact .token shift (ih right behind)
  | @node _ _ _ _ _ _ children trees _ inner reduce found symbols leads _ _ ih =>
      subst behind
      rw [← List.append_assoc, ← wordOf_append] at inner reduce
      exact .node inner reduce found symbols leads (ih right rfl)

/-- The first tree is read for itself, and then the others. -/
theorem cons_inv (reads : tables.Reads state (tree :: trees) final rest) :
    ∃ middle, tables.Reads state [tree] middle (wordOf trees ++ rest) ∧
      tables.Reads middle trees final rest := by
  cases reads with
  | token shift behind => exact ⟨_, .token shift (.nil _ _), behind⟩
  | node inner reduce found symbols leads behind =>
      exact ⟨_, .node inner reduce found symbols leads (.nil _ _), behind⟩

theorem nil_inv (reads : tables.Reads state [] final rest) : final = state := by
  cases reads
  rfl

/-- A single token is shifted. -/
theorem token_inv {symbol : SymbolId} (reads : tables.Reads state [.token symbol] final rest) :
    tables.action state symbol = .shift final := by
  cases reads with
  | token shift behind => exact behind.nil_inv ▸ shift

/-- A single node has its children read, and is then reduced. -/
theorem node_inv {symbol : SymbolId} {children : List SymbolTree}
    (reads : tables.Reads state [.node symbol children] final rest) :
    ∃ inner id info, tables.Reads state children inner rest ∧
      tables.action inner (nextTerminal rest) = .reduce id ∧
      tables.productions[id.toNat]? = some info ∧ info.lhs = symbol ∧
      children.map SymbolTree.symbol = info.rhs ∧ tables.goto? state symbol = some final := by
  cases reads with
  | node inner reduce found symbols leads behind =>
      exact ⟨_, _, _, inner, reduce, found, rfl, symbols, behind.nil_inv ▸ leads⟩

/-- The trees in front are read for themselves, and then those behind. -/
theorem append_inv (reads : tables.Reads state (first ++ second) final rest) :
    ∃ middle, tables.Reads state first middle (wordOf second ++ rest) ∧
      tables.Reads middle second final rest := by
  induction first generalizing state with
  | nil => exact ⟨state, .nil _ _, reads⟩
  | cons tree first ih =>
      rw [List.cons_append] at reads
      obtain ⟨next, front, others⟩ := cons_inv reads
      obtain ⟨middle, behind, last⟩ := ih others
      rw [wordOf_append, List.append_assoc] at front
      exact ⟨middle, append front behind, last⟩

section represents

variable (represents : tables.Represents grammar)

include represents

/-- A single node was reduced by a production that is complete behind its children. -/
theorem node_spec {symbol : SymbolId} {children : List SymbolTree}
    (reads : tables.Reads state [.node symbol children] final rest) :
    ∃ inner id production, tables.Reads state children inner rest ∧
      tables.action inner (nextTerminal rest) = .reduce id ∧
      grammar.productions[id.toNat]? = some production ∧ production.lhs = symbol.toNat ∧
      children.map (fun child => child.symbol.toNat) = production.rhs ∧
      grammar.automaton.HasItem inner.toNat ⟨id.toNat, production.rhs.length⟩ ∧
      grammar.automaton.Edge state.toNat symbol.toNat final.toNat := by
  obtain ⟨inner, id, info, below, action, stored, rfl, symbols, leads⟩ := node_inv reads
  obtain ⟨production, found, lhs, rhs⟩ := represents.production_of_stored stored
  obtain ⟨other, again, complete⟩ := represents.hasItem_of_reduce action
  obtain rfl := Option.some.inj (found.symm.trans again)
  refine ⟨inner, id, production, below, action, found, lhs.symm, ?_, ?_,
    (represents.goto?_eq_some_iff.mp leads).2⟩
  · rw [← rhs, ← symbols, List.map_map]
    rfl
  · rwa [Production.rhs, List.length_map]

/-- A tree with a terminal at its root is a token. -/
theorem isToken_of_terminal (reads : tables.Reads state [tree] final rest)
    (terminal : tree.symbol.toNat < grammar.terminalCount) :
    ∃ symbol, tree = .token symbol ∧ tables.action state symbol = .shift final := by
  cases tree with
  | token symbol => exact ⟨symbol, rfl, token_inv reads⟩
  | node symbol children =>
      obtain ⟨_, _, production, _, _, found, lhs, _⟩ := node_spec represents reads
      have large := (represents.numbered.lhs_range production (Array.mem_of_getElem? found)).1
      rw [lhs] at large
      exact absurd terminal (Nat.not_lt.mpr large)

/-- A tree with a nonterminal at its root is a node. -/
theorem isNode_of_nonterminal (reads : tables.Reads state [tree] final rest)
    (nonterminal : grammar.terminalCount ≤ tree.symbol.toNat) :
    ∃ symbol children, tree = .node symbol children := by
  cases tree with
  | node symbol children => exact ⟨symbol, children, rfl⟩
  | token symbol =>
      have terminal := (represents.edge_of_shift (token_inv reads)).1
      simp only [FlatGrammar.isTerminal, decide_eq_true_eq] at terminal
      exact absurd terminal (Nat.not_lt.mpr nonterminal)

end represents

end Reads

/-- Every tree on a stack has been read above the one below it. -/
def Stands (tables : LanguageTables) : List (StateId × SymbolTree) → List SymbolId → Prop
  | [], _ => True
  | (state, tree) :: below, rest =>
      tables.Reads (BuildConfiguration.topOf below) [tree] state rest ∧
        Stands tables below (tree.word ++ rest)

open BuildConfiguration

namespace Stands

variable {stack pushed under : List (StateId × SymbolTree)} {rest : List SymbolId}

/-- The trees on top of a stack, read one after the other. -/
theorem append_inv (stands : tables.Stands (pushed ++ under) rest) :
    tables.Reads (topOf under) (pushed.map Prod.snd).reverse (topOf (pushed ++ under)) rest ∧
      tables.Stands under (wordOf (pushed.map Prod.snd).reverse ++ rest) := by
  induction pushed generalizing rest with
  | nil => exact ⟨.nil _ _, stands⟩
  | cons entry pushed ih =>
      obtain ⟨state, tree⟩ := entry
      obtain ⟨top, below⟩ := stands
      obtain ⟨reads, kept⟩ := ih below
      have alone : wordOf [tree] = tree.word := List.append_nil _
      rw [List.map_cons, List.reverse_cons]
      refine ⟨.append (by rwa [alone]) top, ?_⟩
      rwa [wordOf_append, alone, List.append_assoc]

theorem shift {symbol : SymbolId} {next : StateId} (stands : tables.Stands stack (symbol :: rest))
    (action : tables.action (topOf stack) symbol = .shift next) :
    tables.Stands ((next, .token symbol) :: stack) rest :=
  ⟨.token action (.nil _ _), stands⟩

theorem reduce {id : ProductionId} {info : ProductionInfo} {next : StateId}
    (stands : tables.Stands (pushed ++ under) rest)
    (action : tables.action (topOf (pushed ++ under)) (nextTerminal rest) = .reduce id)
    (found : tables.productions[id.toNat]? = some info)
    (symbols : (pushed.map Prod.snd).reverse.map SymbolTree.symbol = info.rhs)
    (leads : tables.goto? (topOf under) info.lhs = some next) :
    tables.Stands ((next, .node info.lhs (pushed.map Prod.snd).reverse) :: under) rest := by
  obtain ⟨reads, kept⟩ := stands.append_inv
  exact ⟨.node reads action found symbols leads (.nil _ _), kept⟩

end Stands

end LanguageTables

end Lalr
