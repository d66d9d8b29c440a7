import Mathlib.Data.Set.Function
import Lalr.Proofs.Automaton.Propagation

set_option autoImplicit false

/-!
The automaton against the textbook. Closure and goto are the same for every kind of items; a
kind says what an item expects, how its dot moves on and which items it predicts. Without
lookaheads the item sets that are reached are the states of the automaton.
-/

namespace Lalr

/-! ## Closure and goto -/

/-- A kind of items: the symbol behind the dot, the item with the dot behind it, and the items
that an item predicts. -/
structure ItemKind (I : Type) where
  next? : I → Option Nat
  advance : I → I
  Predicts : I → I → Prop

namespace ItemKind

variable {I : Type} (kind : ItemKind I)

/-- The items of a kernel, and all that these predict. -/
inductive Closure (kernel : Set I) : I → Prop where
  | kernel {item : I} : item ∈ kernel → Closure kernel item
  | predicted {item other : I} : Closure kernel item → kind.Predicts item other →
      Closure kernel other

/-- The items behind a symbol, and all that these predict. -/
def goto (items : Set I) (symbol : Nat) : Set I :=
  {item | kind.Closure {behind | ∃ before ∈ items,
    kind.next? before = some symbol ∧ behind = kind.advance before} item}

/-- The items behind some symbols, of which the last one comes first. -/
def itemsBehind (start : I) : List Nat → Set I
  | [] => {item | kind.Closure {start} item}
  | symbol :: symbols => kind.goto (itemsBehind start symbols) symbol

theorem Closure.forall {kind : ItemKind I} {kernel : Set I} {property : I → Prop}
    (inside : ∀ item ∈ kernel, property item)
    (predicted : ∀ item other, property item → kind.Predicts item other → property other)
    {item : I} (closed : kind.Closure kernel item) : property item := by
  induction closed with
  | kernel member => exact inside _ member
  | predicted _ predicts ih => exact predicted _ _ ih predicts

/-- A property of the items behind some symbols holds if it does for the start item, and if
neither prediction nor moving the dot leaves it. -/
theorem itemsBehind_forall {start : I} (property : List Nat → I → Prop) (first : property [] start)
    (predicted : ∀ symbols item other, property symbols item → kind.Predicts item other →
      property symbols other)
    (advanced : ∀ symbols symbol item, property symbols item → kind.next? item = some symbol →
      property (symbol :: symbols) (kind.advance item)) {symbols : List Nat} {item : I}
    (behind : item ∈ kind.itemsBehind start symbols) : property symbols item := by
  induction symbols generalizing item with
  | nil =>
      refine Closure.forall (fun item same => ?_) (predicted []) behind
      rwa [Set.mem_singleton_iff.mp same]
  | cons symbol symbols ih =>
      refine Closure.forall ?_ (predicted (symbol :: symbols)) behind
      rintro _ ⟨before, listed, next, rfl⟩
      exact advanced symbols symbol before (ih listed) next

theorem mem_itemsBehind_start {start : I} : start ∈ kind.itemsBehind start [] :=
  Closure.kernel rfl

theorem itemsBehind_predicts {start item other : I} {symbols : List Nat}
    (behind : item ∈ kind.itemsBehind start symbols) (predicts : kind.Predicts item other) :
    other ∈ kind.itemsBehind start symbols := by
  cases symbols with
  | nil => exact Closure.predicted behind predicts
  | cons symbol symbols => exact Closure.predicted behind predicts

theorem itemsBehind_advance {start item : I} {symbols : List Nat} {symbol : Nat}
    (behind : item ∈ kind.itemsBehind start symbols) (next : kind.next? item = some symbol) :
    kind.advance item ∈ kind.itemsBehind start (symbol :: symbols) :=
  Closure.kernel ⟨item, behind, next, rfl⟩

end ItemKind

namespace FlatGrammar

variable (grammar : FlatGrammar)

/-- The item that everything starts from. -/
def startItem : Item :=
  ⟨grammar.productions.size, 0⟩

/-- The symbols behind the one that an item expects. -/
def later (item : Item) : List Nat :=
  (grammar.items.symbols item.production).drop (item.dot + 1)

/-- Items without lookaheads: where a nonterminal is expected, all its productions start. -/
def lr0 : ItemKind Item where
  next? := grammar.items.next?
  advance := Item.advance
  Predicts item other := ∃ index production, grammar.productions[index]? = some production ∧
    grammar.items.next? item = some production.lhs ∧ other = ⟨index, 0⟩

/-- Items whose lookahead may be left open. Every production that is predicted starts without a
lookahead too, so it is there even if nothing can follow it. -/
def lr1Open : ItemKind (Item × Option Nat) where
  next? entry := grammar.items.next? entry.1
  advance entry := (entry.1.advance, entry.2)
  Predicts entry other := grammar.lr0.Predicts entry.1 other.1 ∧
    ∀ terminal ∈ other.2, grammar.Begins (grammar.later entry.1 ++ entry.2.toList) terminal

variable {grammar}

/-! ## Item sets of the automaton -/

/-- The items of a state, whatever their lookaheads. -/
def itemsAt (grammar : FlatGrammar) (place : Nat) : Set Item :=
  {item | grammar.automaton.HasItem place item}

theorem exists_closed_of_expects (numbered : grammar.WellNumbered) {kernel : List Item}
    {symbol : Nat} (expects : grammar.items.Expects kernel symbol) :
    ∃ item, grammar.lr0.Closure {item | item ∈ kernel} item ∧
      grammar.items.next? item = some symbol := by
  induction expects with
  | direct member next => exact ⟨_, .kernel member, (le_of_nextNonterminal? next).1⟩
  | lead outer listed ih =>
      obtain ⟨item, closed, next⟩ := ih
      obtain ⟨index, member, symbols, shape, _, _⟩ :=
        (mem_items_leads numbered (le_of_expects numbered outer)).mp listed
      obtain ⟨production, found, rfl⟩ := mem_productionsOf.mp member
      refine ⟨⟨index, 0⟩, closed.predicted ⟨index, production, found, next, rfl⟩, ?_⟩
      simp [ItemGrammar.next?, shape]

theorem mem_closure_iff_closed (numbered : grammar.WellNumbered) {kernel : List Item}
    {item : Item} : item ∈ grammar.items.closure kernel ↔
      grammar.lr0.Closure {item | item ∈ kernel} item := by
  constructor
  · intro member
    rcases (mem_closure numbered).mp member with inside | ⟨start, production, found, expects⟩
    · exact .kernel inside
    · obtain ⟨other, closed, next⟩ := exists_closed_of_expects numbered expects
      obtain ⟨index, dot⟩ := item
      obtain rfl : dot = 0 := start
      exact closed.predicted ⟨index, production, found, next, rfl⟩
  · intro closed
    induction closed with
    | kernel member => exact (mem_closure numbered).mpr (.inl member)
    | predicted _ predicts ih =>
        obtain ⟨index, production, found, next, rfl⟩ := predicts
        have nonterminal := (numbered.lhs_range production (Array.mem_of_getElem? found)).1
        exact (mem_closure numbered).mpr
          (.inr ⟨rfl, production, found, expects_of_next numbered ih next nonterminal⟩)

theorem itemsAt_of_kernelAt (numbered : grammar.WellNumbered) {place : Nat} {kernel : List Item}
    (found : kernelAt grammar.items.states place = some kernel) :
    grammar.itemsAt place = {item | grammar.lr0.Closure {item | item ∈ kernel} item} := by
  ext item
  simp only [itemsAt, Set.mem_ofPred_eq, hasItem_iff numbered, found, Option.some.injEq,
    exists_eq_left', mem_closure_iff_closed numbered]

theorem itemsAt_zero (numbered : grammar.WellNumbered) :
    grammar.itemsAt 0 = grammar.lr0.itemsBehind grammar.startItem [] := by
  rw [itemsAt_of_kernelAt numbered (explored_states numbered).first]
  simp only [items_startProduction, List.mem_singleton]
  rfl

theorem itemsAt_of_edge (numbered : grammar.WellNumbered) {source symbol target : Nat}
    (edge : grammar.automaton.Edge source symbol target) :
    grammar.itemsAt target = grammar.lr0.goto (grammar.itemsAt source) symbol := by
  obtain ⟨kernel, next, found, listed, placed⟩ := (edge_iff numbered).mp edge
  obtain ⟨_, rfl⟩ := ItemGrammar.mem_successors.mp listed
  have behind : {item | item ∈ ((grammar.items.closure kernel).filter fun item =>
      grammar.items.next? item == some symbol).map Item.advance} =
      {behind | ∃ before ∈ grammar.itemsAt source, grammar.lr0.next? before = some symbol ∧
        behind = grammar.lr0.advance before} := by
    ext item
    simp only [itemsAt_of_kernelAt numbered found, Set.mem_ofPred_eq, List.mem_map,
      List.mem_filter, beq_iff_eq, mem_closure_iff_closed numbered, and_assoc]
    exact exists_congr fun before => and_congr_right fun _ => and_congr_right fun _ => eq_comm
  rw [itemsAt_of_kernelAt numbered placed, behind]
  rfl

/-- The items at the end of a path are those behind its symbols. -/
theorem itemsAt_pathEnd (numbered : grammar.WellNumbered) {path : List (Nat × Nat)}
    (isPath : grammar.automaton.Path path) : grammar.itemsAt (Automaton.pathEnd path) =
      grammar.lr0.itemsBehind grammar.startItem (path.map Prod.fst) := by
  induction isPath with
  | start => exact itemsAt_zero numbered
  | step before edge ih =>
      simp only [List.map_cons, ItemKind.itemsBehind, ← ih]
      exact itemsAt_of_edge numbered edge

theorem lt_of_mem_itemsAt {place : Nat} {item : Item} (member : item ∈ grammar.itemsAt place) :
    place < grammar.automaton.states.size := by
  obtain ⟨state, found, _⟩ := member
  exact (Array.getElem?_eq_some_iff.mp found).1

end FlatGrammar

end Lalr
