import Lalr.Automaton.Lookahead
import Lalr.Proofs.FlatGrammar.Numbering

set_option autoImplicit false

/-!
The items of a state. A closure adds the productions of every nonterminal that can start a
derivation from behind a dot, and nothing else; a successor holds the items behind a symbol.
-/

namespace Lalr

/-- Without repeated keys, every pair of a list is found by its key. -/
theorem lookup_eq_some_iff_mem {α β : Type} [BEq α] [LawfulBEq α] {pairs : List (α × β)}
    (distinct : (pairs.map Prod.fst).Nodup) {key : α} {value : β} :
    pairs.lookup key = some value ↔ (key, value) ∈ pairs := by
  induction pairs with
  | nil => simp
  | cons pair pairs hypothesis =>
      obtain ⟨first, other⟩ := pair
      obtain ⟨fresh, later⟩ := List.nodup_cons.mp distinct
      by_cases same : key = first
      · subst same
        have absent : (key, value) ∉ pairs := fun member =>
          fresh (List.mem_map.mpr ⟨(key, value), member, rfl⟩)
        simp [absent, eq_comm]
      · simp [List.lookup_cons, beq_false_of_ne same, same, hypothesis later]

/-- A grammar prepared for building its automaton. -/
abbrev FlatGrammar.items (grammar : FlatGrammar) : ItemGrammar :=
  ItemGrammar.ofGrammar grammar

namespace FlatGrammar

variable {grammar : FlatGrammar}

/-! ## The prepared grammar -/

theorem items_startProduction : grammar.items.startProduction = grammar.productions.size := by
  simp [ItemGrammar.startProduction, ItemGrammar.ofGrammar]

theorem items_symbols_start :
    grammar.items.symbols grammar.productions.size = [grammar.start] := by
  simp [ItemGrammar.symbols, ItemGrammar.ofGrammar, Array.getElem_push]

theorem items_symbols {index : Nat} {production : Production}
    (found : grammar.productions[index]? = some production) :
    grammar.items.symbols index = production.rhs := by
  obtain ⟨bound, same⟩ := Array.getElem?_eq_some_iff.mp found
  simp [ItemGrammar.symbols, ItemGrammar.ofGrammar, Array.getElem?_push, found,
    Nat.ne_of_lt bound]

theorem items_symbols_beyond {index : Nat} (beyond : grammar.productions.size < index) :
    grammar.items.symbols index = [] := by
  have outside : grammar.productions.size ≤ index := Nat.le_of_lt beyond
  simp [ItemGrammar.symbols, ItemGrammar.ofGrammar, Array.getElem?_push,
    Nat.ne_of_gt beyond, outside]

theorem items_symbols_range (numbered : grammar.WellNumbered) {index symbol : Nat}
    (occurs : symbol ∈ grammar.items.symbols index) :
    0 < symbol ∧ symbol < grammar.tableSymbolCount := by
  rcases Nat.lt_trichotomy index grammar.productions.size with inside | start | beyond
  · rw [items_symbols (Array.getElem?_eq_getElem inside)] at occurs
    exact numbered.rhs_range _ (Array.getElem_mem inside) symbol occurs
  · rw [start, items_symbols_start] at occurs
    obtain rfl := List.mem_singleton.mp occurs
    exact ⟨Nat.lt_of_lt_of_le numbered.terminals_pos numbered.start_range.1,
      numbered.start_range.2⟩
  · simp [items_symbols_beyond beyond] at occurs

theorem items_lhs {index : Nat} {production : Production}
    (found : grammar.productions[index]? = some production) :
    grammar.items.lhs.getD index 0 = production.lhs := by
  simp [ItemGrammar.ofGrammar, found]

/-- The numbers of the productions of a nonterminal, as the prepared grammar lists them. -/
theorem items_productionsOf (numbered : grammar.WellNumbered) {symbol : Nat}
    (nonterminal : grammar.terminalCount ≤ symbol) :
    grammar.items.productionsOf.getD (grammar.items.place symbol) [] =
      grammar.productionsOf symbol := by
  have restored : grammar.terminalCount + (symbol - grammar.terminalCount) = symbol := by omega
  by_cases inside : symbol - grammar.terminalCount < grammar.nonterminalCount
  · simp [ItemGrammar.ofGrammar, ItemGrammar.place, inside, restored]
  · have none_listed : grammar.productionsOf symbol = [] := by
      simp only [productionsOf, List.filter_eq_nil_iff, List.mem_range]
      intro index bound matched
      have range := (numbered.lhs_range grammar.productions[index] (Array.getElem_mem bound)).2
      simp only [Array.getElem?_eq_getElem bound, Option.any_some, beq_iff_eq] at matched
      simp only [nonterminalCount] at inside
      omega
    simp [ItemGrammar.ofGrammar, ItemGrammar.place, inside, none_listed]

theorem mem_productionsOf {symbol index : Nat} :
    index ∈ grammar.productionsOf symbol ↔
      ∃ production, grammar.productions[index]? = some production ∧ production.lhs = symbol := by
  simp only [productionsOf, List.mem_filter, List.mem_range, Option.any_eq_true, beq_iff_eq,
    and_iff_right_iff_imp]
  rintro ⟨production, found, _⟩
  exact (Array.getElem?_eq_some_iff.mp found).1

/-- The nonterminal that some symbols start with, and how the others begin. -/
def leadOf? (grammar : FlatGrammar) (symbols : List Nat) : Option (Nat × Beginning) :=
  match symbols with
  | [] => none
  | symbol :: rest =>
      if grammar.isTerminal symbol then none
      else some (symbol, grammar.items.first.ofSequence rest)

/-- The nonterminals that the productions of a nonterminal start with. -/
theorem mem_items_leads (numbered : grammar.WellNumbered) {symbol lead : Nat}
    {rest : Beginning} (nonterminal : grammar.terminalCount ≤ symbol) :
    (lead, rest) ∈ grammar.items.leads.getD (grammar.items.place symbol) [] ↔
      ∃ index ∈ grammar.productionsOf symbol, ∃ symbols,
        grammar.items.symbols index = lead :: symbols ∧ grammar.terminalCount ≤ lead ∧
          rest = grammar.items.first.ofSequence symbols := by
  have listed := items_productionsOf numbered nonterminal
  have mapped : grammar.items.leads.getD (grammar.items.place symbol) [] =
      (grammar.productionsOf symbol).filterMap fun production =>
        grammar.leadOf? ((grammar.productions.map Production.rhs).getD production []) := by
    rw [← listed]
    simp only [ItemGrammar.ofGrammar, Array.getD_eq_getD_getElem?, Array.getElem?_map,
      ItemGrammar.place]
    cases (Array.range grammar.nonterminalCount)[symbol - grammar.terminalCount]? <;> rfl
  rw [mapped]
  simp only [List.mem_filterMap]
  constructor
  · rintro ⟨index, member, chosen⟩
    obtain ⟨production, found, _⟩ := mem_productionsOf.mp member
    have symbols := items_symbols found
    simp only [Array.getD_eq_getD_getElem?, Array.getElem?_map, found, Option.map_some,
      Option.getD_some] at chosen
    cases shape : production.rhs with
    | nil => simp [shape, leadOf?] at chosen
    | cons first tail =>
        simp only [shape, leadOf?, Option.ite_none_left_eq_some, Option.some.injEq, Prod.mk.injEq,
          isTerminal, decide_eq_true_eq] at chosen
        obtain ⟨large, rfl, rfl⟩ := chosen
        exact ⟨index, member, tail, symbols.trans shape, by omega, rfl⟩
  · rintro ⟨index, member, tail, shape, large, rfl⟩
    obtain ⟨production, found, _⟩ := mem_productionsOf.mp member
    rw [items_symbols found] at shape
    refine ⟨index, member, ?_⟩
    simp [found, shape, leadOf?, isTerminal, large]

end FlatGrammar

/-! ## Prediction -/

namespace ItemGrammar

/-- The nonterminals that can start what is expected behind the dots of some items. -/
inductive Expects (grammar : ItemGrammar) (kernel : List Item) : Nat → Prop where
  | direct {item : Item} {symbol : Nat} :
      item ∈ kernel → grammar.nextNonterminal? item = some symbol → Expects grammar kernel symbol
  | lead {symbol lead : Nat} {rest : Beginning} :
      Expects grammar kernel symbol →
        (lead, rest) ∈ grammar.leads.getD (grammar.place symbol) [] → Expects grammar kernel lead

theorem predict_forall (grammar : ItemGrammar) {property : Nat → Prop}
    (closed : ∀ symbol, property symbol →
      ∀ entry ∈ grammar.leads.getD (grammar.place symbol) [], property entry.1)
    {limit : Nat} {found pending : List Nat} (known : ∀ symbol ∈ found, property symbol)
    (waiting : ∀ symbol ∈ pending, property symbol) :
    ∀ symbol ∈ grammar.predict limit found pending, property symbol := by
  fun_induction predict grammar limit found pending with
  | case1 found pending => exact known
  | case2 limit found => exact known
  | case3 limit found symbol pending _ hypothesis =>
      exact hypothesis known fun other member => waiting other (List.mem_cons_of_mem _ member)
  | case4 limit found symbol pending _ leads hypothesis =>
      have here := waiting symbol List.mem_cons_self
      refine hypothesis ?_ ?_
      · intro other member
        rcases List.mem_cons.mp member with rfl | old
        · exact here
        · exact known other old
      · intro other member
        rcases List.mem_append.mp member with added | old
        · obtain ⟨entry, listed, rfl⟩ := List.mem_map.mp added
          exact closed symbol here entry listed
        · exact waiting other (List.mem_cons_of_mem _ old)

theorem nodup_predict (grammar : ItemGrammar) {limit : Nat} {found pending : List Nat}
    (distinct : found.Nodup) : (grammar.predict limit found pending).Nodup := by
  fun_induction predict grammar limit found pending with
  | case1 found pending => exact distinct
  | case2 limit found => exact distinct
  | case3 limit found symbol pending _ hypothesis => exact hypothesis distinct
  | case4 limit found symbol pending unknown leads hypothesis =>
      exact hypothesis (List.nodup_cons.mpr ⟨by simpa using unknown, distinct⟩)

end ItemGrammar

namespace FlatGrammar

variable {grammar : FlatGrammar}

/-- The number of productions of nonterminals that are not found yet. -/
def unfoundProductions (grammar : FlatGrammar) (found : List Nat) : Nat :=
  (List.range grammar.productions.size).countP fun index =>
    (grammar.productions[index]?).any fun production => !found.contains production.lhs

theorem unfoundProductions_cons (grammar : FlatGrammar) {symbol : Nat} {found : List Nat}
    (unknown : found.contains symbol = false) :
    grammar.unfoundProductions found =
      grammar.unfoundProductions (symbol :: found) + (grammar.productionsOf symbol).length := by
  simp only [unfoundProductions, productionsOf, ← List.countP_eq_length_filter]
  rw [List.countP_eq_countP_filter_add _ _
    fun index => (grammar.productions[index]?).any fun production => production.lhs == symbol]
  rw [List.countP_filter, List.countP_filter, Nat.add_comm]
  congr 1
  · refine List.countP_congr fun index bound => ?_
    have inside := List.mem_range.mp bound
    simp only [Array.getElem?_eq_getElem inside, Option.any_some]
    grind
  · refine List.countP_congr fun index bound => ?_
    have inside := List.mem_range.mp bound
    simp only [Array.getElem?_eq_getElem inside, Option.any_some]
    grind

theorem length_leads_le (numbered : grammar.WellNumbered) {symbol : Nat}
    (nonterminal : grammar.terminalCount ≤ symbol) :
    (grammar.items.leads.getD (grammar.items.place symbol) []).length ≤
      (grammar.productionsOf symbol).length := by
  rw [← items_productionsOf numbered nonterminal]
  simp only [ItemGrammar.ofGrammar, Array.getD_eq_getD_getElem?, Array.getElem?_map,
    ItemGrammar.place]
  cases (Array.range grammar.nonterminalCount)[symbol - grammar.terminalCount]? with
  | none => simp
  | some place => exact List.length_filterMap_le _ _

/-- Prediction with enough steps reaches all that can start a derivation. -/
theorem predict_complete (numbered : grammar.WellNumbered) {limit : Nat}
    {found pending : List Nat}
    (nonterminals : ∀ symbol ∈ pending, grammar.terminalCount ≤ symbol)
    (enough : pending.length + grammar.unfoundProductions found < limit) 
    (progress : ∀ symbol ∈ found,
      ∀ entry ∈ grammar.items.leads.getD (grammar.items.place symbol) [],
        entry.1 ∈ found ∨ entry.1 ∈ pending) :
    (∀ symbol, symbol ∈ found ∨ symbol ∈ pending →
      symbol ∈ grammar.items.predict limit found pending) ∧
    ∀ symbol ∈ grammar.items.predict limit found pending,
      ∀ entry ∈ grammar.items.leads.getD (grammar.items.place symbol) [],
        entry.1 ∈ grammar.items.predict limit found pending := by
  fun_induction ItemGrammar.predict grammar.items limit found pending with
  | case1 found pending => omega
  | case2 limit found => exact ⟨by simp, by simpa using progress⟩
  | case3 limit found symbol pending known hypothesis =>
      have listed : symbol ∈ found := by simpa using known
      obtain ⟨kept, closed⟩ := hypothesis
        (fun other member => nonterminals other (List.mem_cons_of_mem _ member))
        (by simp only [List.length_cons] at enough; omega)
        (fun other member entry lead => by
          rcases progress other member entry lead with old | waiting
          · exact .inl old
          · rcases List.mem_cons.mp waiting with same | later
            · exact .inl (same ▸ listed)
            · exact .inr later)
      refine ⟨?_, closed⟩
      rintro other (old | waiting)
      · exact kept other (.inl old)
      · rcases List.mem_cons.mp waiting with rfl | later
        · exact kept other (.inl listed)
        · exact kept other (.inr later)
  | case4 limit found symbol pending unknown leads hypothesis =>
      have nonterminal := nonterminals symbol List.mem_cons_self
      have fewer := length_leads_le numbered nonterminal
      have counted := unfoundProductions_cons grammar (Bool.eq_false_iff.mpr unknown)
      obtain ⟨kept, closed⟩ := hypothesis
        (fun other member => by
          rcases List.mem_append.mp member with added | old
          · obtain ⟨⟨lead, rest⟩, listed, rfl⟩ := List.mem_map.mp added
            obtain ⟨_, _, _, _, large, _⟩ := (mem_items_leads numbered nonterminal).mp listed
            exact large
          · exact nonterminals other (List.mem_cons_of_mem _ old))
        (by
          simp only [List.length_cons] at enough
          simp only [leads, List.length_append, List.length_map]
          omega)
        (fun other member entry lead => by
          rcases List.mem_cons.mp member with rfl | old
          · exact .inr (List.mem_append_left _ (List.mem_map_of_mem lead))
          · rcases progress other old entry lead with before | waiting
            · exact .inl (List.mem_cons_of_mem _ before)
            · rcases List.mem_cons.mp waiting with same | later
              · exact .inl (same ▸ List.mem_cons_self)
              · exact .inr (List.mem_append_right _ later))
      refine ⟨?_, closed⟩
      rintro other (old | waiting)
      · exact kept other (.inl (List.mem_cons_of_mem _ old))
      · rcases List.mem_cons.mp waiting with rfl | later
        · exact kept other (.inl List.mem_cons_self)
        · exact kept other (.inr (List.mem_append_right _ later))

theorem le_of_nextNonterminal? {item : Item} {symbol : Nat}
    (next : grammar.items.nextNonterminal? item = some symbol) :
    grammar.items.next? item = some symbol ∧ grammar.terminalCount ≤ symbol := by
  obtain ⟨same, large⟩ := Option.filter_eq_some_iff.mp next
  exact ⟨same, by simpa [ItemGrammar.ofGrammar] using large⟩

theorem le_of_expects (numbered : grammar.WellNumbered) {kernel : List Item} {symbol : Nat}
    (expects : grammar.items.Expects kernel symbol) : grammar.terminalCount ≤ symbol := by
  induction expects with
  | direct _ next => exact (le_of_nextNonterminal? next).2
  | lead _ listed nonterminal =>
      obtain ⟨_, _, _, _, large, _⟩ := (mem_items_leads numbered nonterminal).mp listed
      exact large

/-- An item set predicts the nonterminals that can start what it expects. -/
theorem mem_predicted (numbered : grammar.WellNumbered) {kernel : List Item} {symbol : Nat} :
    symbol ∈ grammar.items.predicted kernel ↔ grammar.items.Expects kernel symbol := by
  have enough : (kernel.filterMap grammar.items.nextNonterminal?).length +
      grammar.unfoundProductions [] <
        (kernel.filterMap grammar.items.nextNonterminal?).length + grammar.items.lhs.size + 1 := by
    have counted : grammar.unfoundProductions [] ≤ grammar.productions.size := by
      simpa [unfoundProductions] using
        (List.countP_le_length (l := List.range grammar.productions.size))
    simp only [ItemGrammar.ofGrammar, Array.size_map]
    omega
  simp only [ItemGrammar.predicted, List.mem_mergeSort]
  constructor
  · refine ItemGrammar.predict_forall grammar.items ?_ (by simp) ?_ symbol
    · exact fun symbol expects entry listed => .lead expects listed
    · intro symbol member
      obtain ⟨item, listed, next⟩ := List.mem_filterMap.mp member
      exact .direct listed next
  · intro expects
    obtain ⟨kept, closed⟩ := predict_complete numbered
      (fun symbol member => by
        obtain ⟨item, _, next⟩ := List.mem_filterMap.mp member
        exact (le_of_nextNonterminal? next).2) enough (by simp)
    induction expects with
    | direct member next => exact kept _ (.inr (List.mem_filterMap.mpr ⟨_, member, next⟩))
    | lead _ listed hypothesis => exact closed _ hypothesis _ listed

theorem nodup_predicted (kernel : List Item) : (grammar.items.predicted kernel).Nodup :=
  (List.mergeSort_perm _ _).nodup_iff.mpr (ItemGrammar.nodup_predict _ List.nodup_nil)

end FlatGrammar

/-! ## Closure -/

namespace ItemGrammar

/-- All items of a state with a given kernel. -/
def closure (grammar : ItemGrammar) (kernel : List Item) : List Item :=
  grammar.closureItems kernel (grammar.predicted kernel)

theorem mem_closureItems {grammar : ItemGrammar} {kernel : List Item} {predicted : List Nat}
    {item : Item} :
    item ∈ grammar.closureItems kernel predicted ↔
      item ∈ kernel ∨ item.dot = 0 ∧ ∃ symbol ∈ predicted,
        item.production ∈ grammar.productionsOf.getD (grammar.place symbol) [] := by
  obtain ⟨production, dot⟩ := item
  simp only [closureItems, List.mem_mergeSort, List.mem_append, List.mem_flatMap, List.mem_map,
    Item.mk.injEq]
  constructor
  · rintro (inside | ⟨symbol, expected, index, listed, rfl, rfl⟩)
    · exact .inl inside
    · exact .inr ⟨rfl, symbol, expected, listed⟩
  · rintro (inside | ⟨rfl, symbol, expected, listed⟩)
    · exact .inl inside
    · exact .inr ⟨symbol, expected, production, listed, rfl, rfl⟩

theorem mem_successors {grammar : ItemGrammar} {items kernel : List Item} {symbol : Nat} :
    (symbol, kernel) ∈ grammar.successors items ↔
      (∃ item ∈ items, grammar.next? item = some symbol) ∧
        kernel = (items.filter fun item => grammar.next? item == some symbol).map Item.advance := by
  simp only [successors, List.mem_map, List.mem_eraseDups, List.mem_mergeSort,
    List.mem_filterMap, Prod.mk.injEq]
  constructor
  · rintro ⟨other, found, rfl, rfl⟩
    exact ⟨found, rfl⟩
  · rintro ⟨found, rfl⟩
    exact ⟨symbol, found, rfl, rfl⟩

theorem nodup_eraseDups (symbols : List Nat) : symbols.eraseDups.Nodup := by
  induction length : symbols.length using Nat.strongRecOn generalizing symbols with
  | ind size hypothesis =>
      cases symbols with
      | nil => simp
      | cons symbol symbols =>
          have shorter := List.length_filter_le (fun other => !other == symbol) symbols
          rw [List.eraseDups_cons, List.nodup_cons]
          refine ⟨by simp [List.mem_eraseDups], hypothesis _ ?_ _ rfl⟩
          simp only [List.length_cons] at length
          omega

theorem nodup_successors {grammar : ItemGrammar} {items : List Item} :
    ((grammar.successors items).map Prod.fst).Nodup := by
  simp only [successors, List.map_map, Function.comp_def, List.map_id']
  exact nodup_eraseDups _

end ItemGrammar

namespace FlatGrammar

variable {grammar : FlatGrammar}

theorem mem_closure (numbered : grammar.WellNumbered) {kernel : List Item} {item : Item} :
    item ∈ grammar.items.closure kernel ↔
      item ∈ kernel ∨ item.dot = 0 ∧ ∃ production,
        grammar.productions[item.production]? = some production ∧
          grammar.items.Expects kernel production.lhs := by
  simp only [ItemGrammar.closure, ItemGrammar.mem_closureItems, mem_predicted numbered]
  refine or_congr_right (and_congr_right fun _ => ?_)
  constructor
  · rintro ⟨symbol, expects, listed⟩
    rw [items_productionsOf numbered (le_of_expects numbered expects)] at listed
    obtain ⟨production, found, rfl⟩ := mem_productionsOf.mp listed
    exact ⟨production, found, expects⟩
  · rintro ⟨production, found, expects⟩
    refine ⟨production.lhs, expects, ?_⟩
    rw [items_productionsOf numbered (le_of_expects numbered expects)]
    exact mem_productionsOf.mpr ⟨production, found, rfl⟩

/-- What is expected stands behind the dot of some item. -/
theorem exists_next_of_expects (numbered : grammar.WellNumbered) {kernel : List Item}
    {symbol : Nat} (expects : grammar.items.Expects kernel symbol) :
    ∃ item ∈ grammar.items.closure kernel, grammar.items.next? item = some symbol := by
  cases expects with
  | direct member next =>
      exact ⟨_, (mem_closure numbered).mpr (.inl member), (le_of_nextNonterminal? next).1⟩
  | lead outer listed =>
      have nonterminal := le_of_expects numbered outer
      obtain ⟨index, member, symbols, shape, _, _⟩ := (mem_items_leads numbered nonterminal).mp listed
      obtain ⟨production, found, rfl⟩ := mem_productionsOf.mp member
      exact ⟨⟨index, 0⟩, (mem_closure numbered).mpr (.inr ⟨rfl, production, found, outer⟩),
        by simp [ItemGrammar.next?, shape]⟩

/-- A nonterminal behind a dot is expected. -/
theorem expects_of_next (numbered : grammar.WellNumbered) {kernel : List Item} {item : Item}
    {symbol : Nat} (member : item ∈ grammar.items.closure kernel)
    (next : grammar.items.next? item = some symbol) (nonterminal : grammar.terminalCount ≤ symbol) :
    grammar.items.Expects kernel symbol := by
  rcases (mem_closure numbered).mp member with inside | ⟨start, production, found, expects⟩
  · refine .direct inside (Option.filter_eq_some_iff.mpr ⟨next, ?_⟩)
    simpa [ItemGrammar.ofGrammar] using nonterminal
  · have large := le_of_expects numbered expects
    simp only [ItemGrammar.next?, items_symbols found, start] at next
    cases shape : production.rhs with
    | nil => simp [shape] at next
    | cons first rest =>
        obtain rfl : first = symbol := by simpa [shape] using next
        exact .lead expects ((mem_items_leads numbered large).mpr
          ⟨item.production, mem_productionsOf.mpr ⟨production, found, rfl⟩, rest,
            (items_symbols found).trans shape, nonterminal, rfl⟩)

end FlatGrammar

end Lalr
