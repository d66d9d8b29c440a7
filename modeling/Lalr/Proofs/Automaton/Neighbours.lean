import Lalr.Proofs.Automaton.Validity

set_option autoImplicit false

/-!
Symbols side by side. Two kinds of symbols are severed if nothing that ends like the one ever
stands in front of something that begins like the other. Behind a terminal of the one kind, the
automaton then has no action for a terminal of the other, whatever the lookaheads of its states
have been merged from.
-/

namespace Lalr

namespace FlatGrammar

/-- Only the start symbol may stand for nothing, and no production has it on its right-hand
side. -/
structure Filled (grammar : FlatGrammar) : Prop where
  rhs : ∀ production ∈ grammar.productions, production.rhs = [] →
    production.lhs = grammar.start
  start : ∀ production ∈ grammar.productions, grammar.start ∉ production.rhs

/-- Nothing that ends like the symbols of one kind stands in front of anything that begins like
those of another. -/
structure Severs (grammar : FlatGrammar) (left right : Nat → Prop) : Prop where
  ends : ∀ production ∈ grammar.productions, ∀ symbol ∈ production.rhs.getLast?, left symbol →
    left production.lhs
  begins : ∀ production ∈ grammar.productions, ∀ symbol ∈ production.rhs.head?, right symbol →
    right production.lhs
  apart : ∀ production ∈ grammar.productions, ∀ dot first second,
    production.rhs[dot]? = some first → production.rhs[dot + 1]? = some second → left first →
      ¬ right second
  final : ¬ right endSymbol.toNat

/-- An item is not the start item, and its left-hand side does not end like the symbols of the one
kind, if a terminal of the other kind can come behind it. -/
structure Separated (grammar : FlatGrammar) (left right : Nat → Prop)
    (entry : Item × Option Nat) : Prop where
  isTerminal : ∀ terminal ∈ entry.2, grammar.isTerminal terminal = true
  inside : ∀ terminal ∈ entry.2, right terminal →
    entry.1.production ≠ grammar.productions.size
  apart : ∀ terminal ∈ entry.2, right terminal → ∀ production,
    grammar.productions[entry.1.production]? = some production → ¬ left production.lhs

variable {grammar : FlatGrammar}

section productions

variable {place index : Nat} {item : Item} {production : Production} {symbol : Nat}

theorem Filled.symbol_ne_start (filled : grammar.Filled) (inside : item.production ≠
    grammar.productions.size) (occurs : symbol ∈ grammar.items.symbols item.production) :
    symbol ≠ grammar.start := by
  rintro rfl
  rcases Nat.lt_or_gt_of_ne inside with here | beyond
  · rw [items_symbols (Array.getElem?_eq_getElem here)] at occurs
    exact filled.start _ (Array.getElem_mem here) occurs
  · simp [items_symbols_beyond beyond] at occurs

/-- An item that expects something is that of a production, unless it is the start item. -/
theorem exists_production_of_expected (next : grammar.items.next? item = some symbol)
    (inside : item.production ≠ grammar.productions.size) :
    ∃ production, grammar.productions[item.production]? = some production ∧
      production.rhs[item.dot]? = some symbol := by
  rcases Nat.lt_or_gt_of_ne inside with here | beyond
  · have found := Array.getElem?_eq_getElem here
    exact ⟨_, found, items_symbols found ▸ next⟩
  · simp [ItemGrammar.next?, items_symbols_beyond beyond] at next

/-- A production without symbols starts only in the first state. -/
theorem Filled.eq_zero_of_hasItem (filled : grammar.Filled) (numbered : grammar.WellNumbered)
    (found : grammar.productions[index]? = some production) (empty : production.rhs = [])
    (has : grammar.automaton.HasItem place ⟨index, 0⟩) : place = 0 := by
  obtain ⟨item, listed, next⟩ := exists_expecting numbered found has
  rw [filled.rhs production (Array.mem_of_getElem? found) empty] at next
  by_cases start : item.production = grammar.productions.size
  · obtain ⟨production', dot⟩ := item
    obtain rfl : production' = grammar.productions.size := start
    obtain rfl : dot = 0 := by
      rw [ItemGrammar.next?, items_symbols_start, List.getElem?_singleton] at next
      split at next
      · assumption
      · cases next
    exact eq_zero_of_hasItem_start numbered listed
  · exact absurd rfl (filled.symbol_ne_start start (List.mem_of_getElem? next))

/-- Behind a terminal only productions that end with it can be completed. -/
theorem Filled.getLast?_of_complete (filled : grammar.Filled) (numbered : grammar.WellNumbered)
    {source target : Nat} (edge : grammar.automaton.Edge source symbol target)
    (found : grammar.productions[index]? = some production)
    (has : grammar.automaton.HasItem target ⟨index, production.rhs.length⟩) :
    production.rhs.getLast? = some symbol := by
  cases shape : production.rhs.length with
  | zero =>
      rw [shape] at has
      obtain rfl := filled.eq_zero_of_hasItem numbered found
        (List.eq_nil_of_length_eq_zero shape) has
      exact absurd edge (not_edge_zero numbered)
  | succ dot =>
      rw [shape] at has
      have next := (hasItem_retreat numbered edge has).2
      rw [ItemGrammar.next?, items_symbols found] at next
      rw [List.getLast?_eq_getElem?, shape]
      exact next

end productions

/-! ## What can stand behind what -/

section severed

variable {left right : Nat → Prop} (severs : grammar.Severs left right)
  (filled : grammar.Filled)

include severs filled

/-- What is derived begins as its first symbol does. -/
theorem Severs.begins_of_derives {first : Nat} {behind after : List Nat}
    (other : grammar.start ∉ first :: behind)
    (derives : grammar.Derives (first :: behind) after) :
    grammar.start ∉ after ∧ ∃ symbol rest, after = symbol :: rest ∧
      (right symbol → right first) := by
  induction derives with
  | refl => exact ⟨other, first, behind, rfl, id⟩
  | tail _ rewrites ih =>
      obtain ⟨started, symbol, rest, rfl, begun⟩ := ih
      obtain ⟨production, member, front, back, whole, rfl⟩ := rewrites
      have here : grammar.start ∉ front ++ production.lhs :: back := whole ▸ started
      have absent : grammar.start ∉ front ++ production.rhs ++ back := by
        simp only [List.mem_append, List.mem_cons, not_or] at here ⊢
        exact ⟨⟨here.1, filled.start production member⟩, here.2.2⟩
      refine ⟨absent, ?_⟩
      cases front with
      | cons known front =>
          obtain ⟨rfl, rfl⟩ := List.cons.inj whole
          exact ⟨_, _, rfl, begun⟩
      | nil =>
          obtain ⟨rfl, rfl⟩ := List.cons.inj whole
          cases shape : production.rhs with
          | nil =>
              rw [filled.rhs production member shape] at here
              exact absurd List.mem_cons_self here
          | cons opening tail =>
              exact ⟨opening, tail ++ _, rfl, fun known =>
                begun (severs.begins production member opening (by simp [shape]) known)⟩

theorem Severs.begins_of_begins {first terminal : Nat} {behind : List Nat}
    (other : grammar.start ∉ first :: behind)
    (begun : grammar.Begins (first :: behind) terminal) (known : right terminal) :
    right first := by
  obtain ⟨_, rest, derives⟩ := begun
  obtain ⟨_, symbol, _, same, back⟩ := severs.begins_of_derives filled other derives
  exact back ((List.cons.inj same).1 ▸ known)

omit severs filled in
theorem Separated.start_not_mem (numbered : grammar.WellNumbered) {entry : Item × Option Nat}
    (separated : grammar.Separated left right entry) : grammar.start ∉ entry.2.toList := by
  intro listed
  have isTerminal := separated.isTerminal _ (Option.mem_toList.mp listed)
  exact absurd (of_decide_eq_true isTerminal) (Nat.not_lt.mpr numbered.start_range.1)

section expected

variable (numbered : grammar.WellNumbered) {item : Item} {context : Option Nat}
  (separated : grammar.Separated left right (item, context)) {expected symbol terminal : Nat}
  {behind : List Nat} (next : grammar.items.next? item = some expected)

include numbered separated next

/-- What an item expects at its end ends unlike the one kind, as the item does. -/
theorem Severs.not_left_of_final (later : grammar.later item = [])
    (begun : grammar.Begins context.toList terminal) (known : right terminal) :
    ¬ left expected := by
  intro ending
  cases context with
  | none =>
      obtain ⟨_, rest, derives⟩ := begun
      rcases Relation.ReflTransGen.cases_head derives with same | ⟨_, ⟨_, _, _, _, whole, _⟩, _⟩
      · cases same
      · simp at whole
  | some follower =>
      have back := severs.begins_of_begins filled (separated.start_not_mem numbered) begun known
      obtain ⟨container, placed, known'⟩ :=
        exists_production_of_expected next (separated.inside follower rfl back)
      have last : container.rhs.getLast? = some expected := by
        have short := List.drop_eq_nil_iff.mp later
        rw [items_symbols placed] at short
        have bound := (List.getElem?_eq_some_iff.mp known').1
        have place : container.rhs.length - 1 = item.dot := by omega
        rw [List.getLast?_eq_getElem?, place]
        exact known'
      exact separated.apart follower rfl back container placed
        (severs.ends container (Array.mem_of_getElem? placed) _ last ending)

/-- What an item expects before another symbol is kept apart from it by the production. -/
theorem Severs.not_left_of_inner (later : grammar.later item = symbol :: behind)
    (begun : grammar.Begins (symbol :: (behind ++ context.toList)) terminal)
    (known : right terminal) : ¬ left expected := by
  intro ending
  have inside : item.production ≠ grammar.productions.size := by
    intro start
    simp [FlatGrammar.later, start, items_symbols_start] at later
  obtain ⟨container, placed, known'⟩ := exists_production_of_expected next inside
  have member := Array.mem_of_getElem? placed
  rw [FlatGrammar.later, items_symbols placed] at later
  have follows : container.rhs[item.dot + 1]? = some symbol := by
    rw [← List.head?_drop, later, List.head?_cons]
  have absent : grammar.start ∉ symbol :: (behind ++ context.toList) := by
    rw [← List.cons_append, ← later]
    intro listed
    exact (List.mem_append.mp listed).elim
      (fun own => filled.start container member (List.mem_of_mem_drop own))
      (separated.start_not_mem numbered)
  exact severs.apart container member _ _ _ known' follows ending
    (severs.begins_of_begins filled absent begun known)

end expected

omit filled in
theorem Severs.separated_start (numbered : grammar.WellNumbered) :
    grammar.Separated left right (grammar.startItem, some endSymbol.toNat) := by
  have other : ∀ terminal ∈ some endSymbol.toNat, ¬ right terminal :=
    fun _ same => Option.some.inj same ▸ severs.final
  refine ⟨fun terminal same => ?_, fun terminal same known => absurd known (other terminal same),
    fun terminal same known => absurd known (other terminal same)⟩
  obtain rfl := Option.some.inj same
  exact isTerminal_end numbered

theorem Severs.separated_of_predicts (numbered : grammar.WellNumbered)
    {entry other : Item × Option Nat} (separated : grammar.Separated left right entry)
    (predicts : grammar.lr1Open.Predicts entry other) : grammar.Separated left right other := by
  obtain ⟨item, context⟩ := entry
  obtain ⟨_, follow⟩ := other
  obtain ⟨⟨index, production, listed, next, rfl⟩, begun⟩ := predicts
  refine ⟨fun terminal member => (begun terminal member).1,
    fun _ _ _ => Nat.ne_of_lt (Array.getElem?_eq_some_iff.mp listed).1,
    fun terminal member known same placed => ?_⟩
  obtain rfl := Option.some.inj (listed.symm.trans placed)
  have starts := begun terminal member
  cases later : grammar.later item with
  | nil =>
      rw [later, List.nil_append] at starts
      exact severs.not_left_of_final filled numbered separated next later starts known
  | cons symbol behind =>
      rw [later, List.cons_append] at starts
      exact severs.not_left_of_inner filled numbered separated next later starts known

/-- A production whose left-hand side ends like the one kind is never followed by a terminal that
begins like the other. -/
theorem Severs.not_ends_of_valid (numbered : grammar.WellNumbered) {symbols : List Nat}
    {entry : Item × Option Nat}
    (valid : entry ∈
      grammar.lr1Open.itemsBehind (grammar.startItem, some endSymbol.toNat) symbols)
    {terminal : Nat} (ahead : terminal ∈ entry.2) (known : right terminal)
    {production : Production}
    (found : grammar.productions[entry.1.production]? = some production) :
    ¬ left production.lhs := by
  have separated : grammar.Separated left right entry :=
    grammar.lr1Open.itemsBehind_forall (fun _ => grammar.Separated left right)
      (severs.separated_start numbered)
      (fun _ _ _ here predicts => severs.separated_of_predicts filled numbered here predicts)
      (fun _ _ _ here _ => ⟨here.isTerminal, here.inside, here.apart⟩) valid
  exact separated.apart terminal ahead known production found

omit filled in
/-- Behind a symbol of the one kind no item expects one of the other. -/
theorem Severs.not_begins_of_next (numbered : grammar.WellNumbered) {source symbol target : Nat}
    (edge : grammar.automaton.Edge source symbol target) (ending : left symbol) {item : Item}
    (has : grammar.automaton.HasItem target item) {expected : Nat}
    (next : grammar.items.next? item = some expected) : ¬ right expected := by
  have behind : item ∈ grammar.itemsAt target := has
  rw [itemsAt_of_edge numbered edge] at behind
  let property (item : Item) : Prop :=
    ∀ expected, grammar.items.next? item = some expected → ¬ right expected
  suffices all : property item from all expected next
  refine ItemKind.Closure.forall ?_ ?_ behind
  · rintro _ ⟨before, _, read, rfl⟩ expected next
    have inside : before.production ≠ grammar.productions.size := by
      intro start
      change (grammar.items.symbols before.production)[before.dot + 1]? = _ at next
      simp [start, items_symbols_start] at next
    obtain ⟨production, found, here⟩ := exists_production_of_expected read inside
    change (grammar.items.symbols before.production)[before.dot + 1]? = _ at next
    rw [items_symbols found] at next
    exact severs.apart production (Array.mem_of_getElem? found) _ _ _ here next ending
  · rintro item _ known ⟨index, production, found, next, rfl⟩ expected first begun
    rw [ItemGrammar.next?, items_symbols found, ← List.head?_eq_getElem?] at first
    exact known production.lhs next
      (severs.begins production (Array.mem_of_getElem? found) expected first begun)

end severed

end FlatGrammar

namespace LanguageTables.Represents

variable {tables : LanguageTables} {grammar : FlatGrammar} {state next : StateId}
  {symbol : SymbolId}

/-- Behind a terminal only productions that end with it are completed. -/
theorem getLast?_of_reduce (represents : tables.Represents grammar) (filled : grammar.Filled)
    (shifted : tables.action state symbol = .shift next) {follower : SymbolId}
    {id : ProductionId} (reduced : tables.action next follower = .reduce id) :
    ∃ production ∈ grammar.productions, production.rhs.getLast? = some symbol.toNat := by
  obtain ⟨production, found, has⟩ := represents.hasItem_of_reduce reduced
  refine ⟨production, Array.mem_of_getElem? found,
    filled.getLast?_of_complete represents.numbered (represents.edge_of_shift shifted).2 found ?_⟩
  rwa [Production.rhs, List.length_map]

/-- Behind a terminal of the one kind there is no action for a terminal of the other. -/
theorem action_of_severs (represents : tables.Represents grammar) (filled : grammar.Filled)
    {left right : Nat → Prop} (severs : grammar.Severs left right)
    (shifted : tables.action state symbol = .shift next) (ending : left symbol.toNat)
    {follower : SymbolId} (begun : right follower.toNat)
    (terminal : grammar.isTerminal follower.toNat = true) :
    tables.action next follower = .error := by
  have numbered := represents.numbered
  have edge := (represents.edge_of_shift shifted).2
  rcases represents.action_cases next follower with error | ⟨nonterminal, _⟩ |
    ⟨_, ⟨_, onward, _⟩ | ⟨id, production, found, has, _⟩ | ⟨has, _⟩⟩
  · exact error
  · rw [terminal] at nonterminal
    cases nonterminal
  · obtain ⟨item, listed, expects⟩ := FlatGrammar.exists_item_of_edge numbered onward
    exact absurd begun (severs.not_begins_of_next numbered edge ending listed expects)
  · obtain ⟨path, _, _, valid⟩ := FlatGrammar.justified_of_hasLookahead numbered has
    have last := filled.getLast?_of_complete numbered edge found (by
      rw [Production.rhs, List.length_map]
      exact has.hasItem)
    exact absurd (severs.ends production (Array.mem_of_getElem? found) _ last ending)
      (severs.not_ends_of_valid filled numbered valid rfl begun found)
  · have final := FlatGrammar.eq_end_of_hasLookahead_start numbered has
    exact absurd (final ▸ begun) severs.final

end LanguageTables.Represents

end Lalr
