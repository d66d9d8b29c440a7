import Lalr.Proofs.Automaton.Canonical
import Lalr.Proofs.Language.Loading

set_option autoImplicit false

/-!
Lookaheads against the textbook. A terminal is a lookahead of an item in a state if and only if
the item is valid with it behind some symbols that lead to the state. Where every nonterminal is
nullable or begins with something, valid means what it means for a canonical automaton.
-/

namespace Lalr.FlatGrammar

variable {grammar : FlatGrammar}

/-- An item is valid in a state with a lookahead: it is there behind the symbols of a path. -/
def Justified (grammar : FlatGrammar) (place : Nat) (item : Item) (terminal : Nat) : Prop :=
  ∃ path, grammar.automaton.Path path ∧ Automaton.pathEnd path = place ∧
    (item, some terminal) ∈
      grammar.lr1Open.itemsBehind (grammar.startItem, some endSymbol.toNat) (path.map Prod.fst)

/-! ## Valid items -/

theorem isTerminal_end (numbered : grammar.WellNumbered) :
    grammar.isTerminal endSymbol.toNat = true :=
  decide_eq_true numbered.terminals_pos

theorem isTerminal_of_valid (numbered : grammar.WellNumbered) {symbols : List Nat}
    {entry : Item × Option Nat}
    (valid : entry ∈
      grammar.lr1Open.itemsBehind (grammar.startItem, some endSymbol.toNat) symbols) :
    ∀ terminal ∈ entry.2, grammar.isTerminal terminal = true := by
  refine grammar.lr1Open.itemsBehind_forall (fun _ entry => ∀ terminal ∈ entry.2,
    grammar.isTerminal terminal = true) ?_ ?_ (fun _ _ _ known _ => known) valid
  · intro terminal same
    obtain rfl := Option.some.inj same
    exact isTerminal_end numbered
  · intro _ _ _ _ predicts terminal member
    exact (predicts.2 terminal member).1

/-- Without a lookahead, the items behind some symbols are the same. -/
theorem exists_valid {symbols : List Nat} {item : Item}
    (behind : item ∈ grammar.lr0.itemsBehind grammar.startItem symbols) :
    ∃ context, (item, context) ∈
      grammar.lr1Open.itemsBehind (grammar.startItem, some endSymbol.toNat) symbols := by
  refine grammar.lr0.itemsBehind_forall (fun symbols item => ∃ context, (item, context) ∈
    grammar.lr1Open.itemsBehind (grammar.startItem, some endSymbol.toNat) symbols)
    ⟨_, grammar.lr1Open.mem_itemsBehind_start⟩ ?_ ?_ behind
  · rintro symbols item other ⟨context, valid⟩ predicts
    exact ⟨none, grammar.lr1Open.itemsBehind_predicts valid ⟨predicts, nofun⟩⟩
  · rintro symbols symbol item ⟨context, valid⟩ next
    exact ⟨context, grammar.lr1Open.itemsBehind_advance valid next⟩

namespace Justified

variable {place index terminal : Nat} {item : Item} {production : Production}

theorem start : grammar.Justified 0 grammar.startItem endSymbol.toNat :=
  ⟨[], .start, rfl, grammar.lr1Open.mem_itemsBehind_start⟩

theorem isTerminal (numbered : grammar.WellNumbered)
    (justified : grammar.Justified place item terminal) : grammar.isTerminal terminal = true := by
  obtain ⟨path, _, _, valid⟩ := justified
  exact isTerminal_of_valid numbered valid terminal rfl

theorem advance {symbol target : Nat} (justified : grammar.Justified place item terminal)
    (edge : grammar.automaton.Edge place symbol target)
    (next : grammar.items.next? item = some symbol) :
    grammar.Justified target item.advance terminal := by
  obtain ⟨path, isPath, rfl, valid⟩ := justified
  exact ⟨(symbol, target) :: path, isPath.step edge, rfl,
    grammar.lr1Open.itemsBehind_advance valid next⟩

/-- A predicted production can be followed by what the rest of an item begins with. -/
theorem of_begins (numbered : grammar.WellNumbered)
    (has : grammar.automaton.HasItem place item)
    (found : grammar.productions[index]? = some production)
    (next : grammar.items.next? item = some production.lhs)
    (begins : grammar.Begins (grammar.later item) terminal) :
    grammar.Justified place ⟨index, 0⟩ terminal := by
  obtain ⟨path, isPath, rfl⟩ := exists_path numbered (lt_of_mem_itemsAt has)
  have inside : item ∈ grammar.itemsAt (Automaton.pathEnd path) := has
  rw [itemsAt_pathEnd numbered isPath] at inside
  obtain ⟨context, valid⟩ := exists_valid inside
  refine ⟨path, isPath, rfl, grammar.lr1Open.itemsBehind_predicts valid
    ⟨⟨index, production, found, next, rfl⟩, fun first same => ?_⟩⟩
  obtain rfl := Option.some.inj same
  exact begins.append_left _

/-- Or, if the rest can be empty, by what the item can be followed by. -/
theorem predict (numbered : grammar.WellNumbered)
    (justified : grammar.Justified place item terminal)
    (found : grammar.productions[index]? = some production)
    (next : grammar.items.next? item = some production.lhs)
    (empty : grammar.Derives (grammar.later item) []) :
    grammar.Justified place ⟨index, 0⟩ terminal := by
  have isTerminal := justified.isTerminal numbered
  obtain ⟨path, isPath, rfl, valid⟩ := justified
  refine ⟨path, isPath, rfl, grammar.lr1Open.itemsBehind_predicts valid
    ⟨⟨index, production, found, next, rfl⟩, fun first same => ?_⟩⟩
  obtain rfl := Option.some.inj same
  exact .append_right empty (.of_terminal isTerminal [])

/-- What an item contributes to the productions that it predicts. -/
theorem of_followedBy (numbered : grammar.WellNumbered)
    (has : grammar.automaton.HasItem place item) {follow : TokenSet}
    (justified : ∀ terminal, follow.contains terminal = true →
      grammar.Justified place item terminal)
    (found : grammar.productions[index]? = some production)
    (next : grammar.items.next? item = some production.lhs)
    (contributed : ((grammar.items.first.ofSequence (grammar.later item)).followedBy
      follow).contains terminal = true) :
    grammar.Justified place ⟨index, 0⟩ terminal := by
  rcases Beginning.contains_followedBy_iff.mp contributed with first | ⟨nullable, follows⟩
  · exact .of_begins numbered has found next
      ((FirstSets.contains_ofSequence_iff numbered).mp first)
  · exact (justified terminal follows).predict numbered found next
      ((FirstSets.nullable_ofSequence_iff numbered).mp nullable)

end Justified

/-! ## Every lookahead is justified -/

theorem contains_of_modify {lookaheads : PredictedLookaheads} {place other terminal : Nat}
    {follow : TokenSet}
    (member : (PredictedLookaheads.tokensAt (lookaheads.modify place (·.union follow))
      other).contains terminal = true) :
    (lookaheads.tokensAt other).contains terminal = true ∨
      place = other ∧ follow.contains terminal = true := by
  simp only [PredictedLookaheads.tokensAt, Array.getD_eq_getD_getElem?,
    Array.getElem?_modify] at member ⊢
  split at member
  case isFalse => exact .inl member
  case isTrue same =>
      cases found : lookaheads[other]? with
      | none => simp [found] at member
      | some set =>
          simp only [found, Option.map_some, Option.getD_some, TokenSet.contains_union,
            Bool.or_eq_true] at member ⊢
          exact member.imp_right fun follows => ⟨same, follows⟩

/-- The lookaheads of predicted productions that are justified in a state. -/
def PredictedJustified (grammar : FlatGrammar) (place : Nat) (lookaheads : PredictedLookaheads) :
    Prop :=
  ∀ (index : Nat) production, grammar.productions[index]? = some production → ∀ terminal,
    (lookaheads.tokensAt (grammar.items.place production.lhs)).contains terminal = true →
      grammar.Justified place ⟨index, 0⟩ terminal

namespace PredictedJustified

variable {place : Nat} {lookaheads : PredictedLookaheads}

/-- What an item contributes to the nonterminal that it expects. -/
theorem modify (numbered : grammar.WellNumbered)
    (known : grammar.PredictedJustified place lookaheads) {item : Item} {symbol : Nat}
    (has : grammar.automaton.HasItem place item) {follow : TokenSet}
    (justified : ∀ terminal, follow.contains terminal = true →
      grammar.Justified place item terminal)
    (next : grammar.items.next? item = some symbol) (nonterminal : grammar.terminalCount ≤ symbol) :
    grammar.PredictedJustified place (lookaheads.modify (grammar.items.place symbol) (·.union
      ((grammar.items.first.ofSequence (grammar.later item)).followedBy follow))) := by
  intro index production found terminal member
  rcases contains_of_modify member with old | ⟨same, contributed⟩
  · exact known index production found terminal old
  · have range := (numbered.lhs_range production (Array.mem_of_getElem? found)).1
    have equal : symbol - grammar.terminalCount = production.lhs - grammar.terminalCount := same
    obtain rfl : symbol = production.lhs := by omega
    exact .of_followedBy numbered has justified found next contributed

theorem withKernelItem (numbered : grammar.WellNumbered)
    (known : grammar.PredictedJustified place lookaheads) {entry : Item × TokenSet}
    (has : grammar.automaton.HasItem place entry.1)
    (justified : ∀ terminal, entry.2.contains terminal = true →
      grammar.Justified place entry.1 terminal) :
    grammar.PredictedJustified place (grammar.items.withKernelItem lookaheads entry) := by
  cases found : grammar.items.nextNonterminal? entry.1 with
  | none => simpa [ItemGrammar.withKernelItem, found] using known
  | some symbol =>
      obtain ⟨next, nonterminal⟩ := le_of_nextNonterminal? found
      rw [withKernelItem_eq next nonterminal]
      exact known.modify numbered has justified next nonterminal

theorem withLeads (numbered : grammar.WellNumbered)
    (known : grammar.PredictedJustified place lookaheads) {symbol : Nat}
    (nonterminal : grammar.terminalCount ≤ symbol)
    (has : ∀ index ∈ grammar.productionsOf symbol,
      grammar.automaton.HasItem place ⟨index, 0⟩) :
    grammar.PredictedJustified place (grammar.items.withLeads lookaheads symbol) := by
  refine List.foldlRecOn _ _ known ?_
  rintro lookaheads known ⟨lead, rest⟩ listed
  obtain ⟨index, member, symbols, shape, large, rfl⟩ :=
    (mem_items_leads numbered nonterminal).mp listed
  obtain ⟨production, found, rfl⟩ := mem_productionsOf.mp member
  have later : grammar.later ⟨index, 0⟩ = symbols := by simp [FlatGrammar.later, shape]
  rw [← later]
  exact known.modify numbered (has index member) (known index production found)
    (by simp [ItemGrammar.next?, shape]) large

end PredictedJustified

/-- The lookaheads of the kernels that are justified. -/
def KernelsJustified (grammar : FlatGrammar) (lookaheads : KernelLookaheads) : Prop :=
  ∀ (place : Nat) state, grammar.items.states[place]? = some state →
    ∀ item set, (item, set) ∈ state.kernel.zip (lookaheads.getD place []) →
      ∀ terminal, set.contains terminal = true → grammar.Justified place item terminal

section states

variable {place : Nat} {state : ItemState} {kernel : List TokenSet}

theorem hasItem_of_mem_closure (numbered : grammar.WellNumbered)
    (found : grammar.items.states[place]? = some state) {item : Item}
    (member : item ∈ grammar.items.closure state.kernel) :
    grammar.automaton.HasItem place item :=
  (hasItem_iff numbered).mpr ⟨_, kernelAt_eq_some_iff.mpr ⟨state, found, rfl⟩, member⟩

theorem predictedJustified_of_kernel (numbered : grammar.WellNumbered)
    (found : grammar.items.states[place]? = some state)
    (justified : ∀ item set, (item, set) ∈ state.kernel.zip kernel →
      ∀ terminal, set.contains terminal = true → grammar.Justified place item terminal) :
    grammar.PredictedJustified place (grammar.items.predictedLookaheads state kernel) := by
  have bound := (Array.getElem?_eq_some_iff.mp found).1
  have completed := (explored_states numbered).completed place state bound found
  have direct : grammar.PredictedJustified place ((state.kernel.zip kernel).foldl
      grammar.items.withKernelItem (Array.replicate grammar.items.productionsOf.size .empty)) := by
    refine List.foldlRecOn _ _ ?_ ?_
    · intro index production _ terminal member
      simp only [PredictedLookaheads.tokensAt, Array.getD_eq_getD_getElem?,
        Array.getElem?_replicate] at member
      split at member <;> simp at member
    · rintro lookaheads known ⟨item, set⟩ member
      have inside := (mem_closure numbered).mpr (.inl (List.of_mem_zip member).1)
      exact known.withKernelItem numbered (hasItem_of_mem_closure numbered found inside)
        (justified item set member)
  unfold ItemGrammar.predictedLookaheads
  rw [settlePredicted_eq]
  refine settleWith_keeps (grammar.PredictedJustified place) (fun lookaheads known => ?_) _ direct
  refine List.foldlRecOn _ _ known fun lookaheads known symbol listed => ?_
  have expects := (mem_predicted numbered).mp (completed.predicted ▸ listed)
  refine known.withLeads numbered (le_of_expects numbered expects) fun index member => ?_
  obtain ⟨production, placed, rfl⟩ := mem_productionsOf.mp member
  exact hasItem_of_mem_closure numbered found
    ((mem_closure numbered).mpr (.inr ⟨rfl, production, placed, expects⟩))

theorem justified_of_lookaheadOf (numbered : grammar.WellNumbered)
    (found : grammar.items.states[place]? = some state)
    (lengths : kernel.length = state.kernel.length)
    (justified : ∀ item set, (item, set) ∈ state.kernel.zip kernel →
      ∀ terminal, set.contains terminal = true → grammar.Justified place item terminal)
    {item : Item} (member : item ∈ grammar.items.closure state.kernel) {terminal : Nat}
    (contains : (grammar.items.lookaheadOf state kernel
      (grammar.items.predictedLookaheads state kernel) item).contains terminal = true) :
    grammar.Justified place item terminal := by
  have isKernel := (explored_states numbered).kernels place _
    (kernelAt_eq_some_iff.mpr ⟨state, found, rfl⟩)
  rcases (mem_closure numbered).mp member with inside | ⟨start, production, listed, _⟩
  · obtain ⟨set, paired⟩ := exists_mem_zip lengths inside
    rw [lookaheadOf_kernel isKernel lengths paired] at contains
    exact justified item set paired terminal contains
  · obtain ⟨index, dot⟩ := item
    obtain rfl : dot = 0 := start
    rw [lookaheadOf_predicted isKernel listed] at contains
    exact predictedJustified_of_kernel numbered found justified index production listed terminal
      contains

end states

/-- What is handed on to a successor is justified there. -/
theorem justified_of_handed (numbered : grammar.WellNumbered) {place symbol target : Nat}
    {state next : ItemState} (found : grammar.items.states[place]? = some state)
    (listed : (symbol, target) ∈ state.transitions)
    (reached : grammar.items.states[target]? = some next) {kernel : List TokenSet}
    (lengths : kernel.length = state.kernel.length)
    (justified : ∀ item set, (item, set) ∈ state.kernel.zip kernel →
      ∀ terminal, set.contains terminal = true → grammar.Justified place item terminal)
    {item : Item} {set : TokenSet}
    (member : (item, set) ∈ next.kernel.zip (grammar.handed state kernel next)) {terminal : Nat}
    (contains : set.contains terminal = true) : grammar.Justified target item terminal := by
  have explored := explored_states numbered
  have bound := (Array.getElem?_eq_some_iff.mp found).1
  obtain ⟨after, succeeds, placed⟩ :=
    (explored.completed place state bound found).exists_successor listed
  obtain ⟨again, same, rfl⟩ := kernelAt_eq_some_iff.mp placed
  obtain rfl := Option.some.inj (reached.symm.trans same)
  have edge : grammar.automaton.Edge place symbol target := (edge_iff numbered).mpr
    ⟨state.kernel, next.kernel, kernelAt_eq_some_iff.mpr ⟨state, found, rfl⟩, succeeds, placed⟩
  obtain ⟨_, shape⟩ := ItemGrammar.mem_successors.mp succeeds
  obtain ⟨inside, rfl⟩ := mem_zip_map member
  rw [shape] at inside
  obtain ⟨before, filtered, rfl⟩ := List.mem_map.mp inside
  obtain ⟨closed, reads⟩ := List.mem_filter.mp filtered
  exact (justified_of_lookaheadOf numbered found lengths justified closed contains).advance edge
    (by simpa using reads)

theorem KernelsJustified.modify {lookaheads : KernelLookaheads}
    (justified : grammar.KernelsJustified lookaheads) (fits : grammar.KernelsFit lookaheads)
    {target : Nat} {next : ItemState} (reached : grammar.items.states[target]? = some next)
    {handed : List TokenSet}
    (added : ∀ item set, (item, set) ∈ next.kernel.zip handed →
      ∀ terminal, set.contains terminal = true → grammar.Justified target item terminal) :
    grammar.KernelsJustified
      (lookaheads.modify target fun known => known.zipWith TokenSet.union handed) := by
  intro place state found item set member terminal contains
  rw [fits.getD_modify reached] at member
  split at member
  case isFalse => exact justified place state found item set member terminal contains
  case isTrue same =>
      subst same
      obtain rfl := Option.some.inj (reached.symm.trans found)
      obtain ⟨left, right, leftMember, rightMember, rfl⟩ := mem_zip_zipWith member
      rw [TokenSet.contains_union, Bool.or_eq_true] at contains
      exact contains.elim (justified target next found item left leftMember terminal)
        (added item right rightMember terminal)

theorem KernelsJustified.propagate (numbered : grammar.WellNumbered)
    {lookaheads : KernelLookaheads} (justified : grammar.KernelsJustified lookaheads)
    (fits : grammar.KernelsFit lookaheads) (place : Nat) :
    grammar.KernelsJustified
      (grammar.items.propagate grammar.items.states lookaheads place) := by
  cases found : grammar.items.states[place]? with
  | none => simpa [ItemGrammar.propagate, found] using justified
  | some state =>
      rw [propagate_eq found]
      have here := fits.each place state found
      refine (List.foldlRecOn (motive := fun others => grammar.KernelsFit others ∧
        grammar.KernelsJustified others) _ _ ⟨fits, justified⟩ ?_).2
      rintro others ⟨othersFit, known⟩ ⟨symbol, target⟩ listed
      cases reached : grammar.items.states[target]? with
      | none => exact ⟨othersFit, known⟩
      | some next =>
          refine ⟨othersFit.modify reached (handed_fits numbered found listed reached here),
            known.modify othersFit reached fun item set member terminal => ?_⟩
          exact justified_of_handed numbered found listed reached here.length
            (justified place state found) member

theorem kernelsJustified (numbered : grammar.WellNumbered) :
    grammar.KernelsJustified (grammar.items.kernelLookaheads grammar.items.states) := by
  rw [kernelLookaheads_eq]
  refine (settleWith_keeps (fun lookaheads => grammar.KernelsFit lookaheads ∧
    grammar.KernelsJustified lookaheads) ?_ _ ⟨kernelsFit_start numbered, ?_⟩).2
  · rintro lookaheads ⟨fits, justified⟩
    refine List.foldlRecOn (motive := fun others => grammar.KernelsFit others ∧
      grammar.KernelsJustified others) _ _ ⟨fits, justified⟩ ?_
    rintro others ⟨othersFit, known⟩ place _
    exact ⟨(propagate_grows numbered place).keeps others othersFit, known.propagate numbered
      othersFit place⟩
  · intro place state found item set member terminal contains
    obtain ⟨start, _, only, same⟩ := startLookaheads_at found
    rw [same] at member
    obtain ⟨inside, rfl⟩ := mem_zip_map member
    obtain ⟨rfl, rfl⟩ := (only terminal).mp contains
    have first := (explored_states numbered).first
    rw [kernelAt, found] at first
    rw [Option.some.inj first, List.mem_singleton, items_startProduction] at inside
    exact inside ▸ .start

/-- Every lookahead is justified. -/
theorem justified_of_hasLookahead (numbered : grammar.WellNumbered) {place terminal : Nat}
    {item : Item} (has : grammar.automaton.HasLookahead place item terminal) :
    grammar.Justified place item terminal := by
  obtain ⟨state, found, member, contains⟩ := (hasLookahead_iff numbered).mp has
  exact justified_of_lookaheadOf numbered found
    ((kernelLookaheads_spec numbered).1.each place state found).length
    (kernelsJustified numbered place state found) member contains

/-! ## Every valid item has its lookahead -/

/-- What its productions read; the last one is that of the start. -/
def strandedRhs : List (List Nat) :=
  [[6, 5], [5, 1], [7, 2], [3, 3], [4]]

/-- That grammar, as far as it matters here. -/
structure Stranded (grammar : FlatGrammar) : Prop where
  numbered : grammar.WellNumbered
  count : grammar.terminalCount = 4
  lhs : grammar.productions.toList.map Production.lhs = [4, 5, 6, 7]
  rhs : grammar.items.rhs.toList = strandedRhs
  endless : (FirstSets.ofGrammar grammar).ofSequence [5] = .none

namespace Stranded

theorem size (stranded : grammar.Stranded) : grammar.productions.size = 4 := by
  simpa using congrArg List.length stranded.lhs

theorem symbols (stranded : grammar.Stranded) (production : Nat) :
    grammar.items.symbols production = strandedRhs.getD production [] := by
  simp [ItemGrammar.symbols, ← stranded.rhs]

theorem lhs_of_found (stranded : grammar.Stranded) {index : Nat} {production : Production}
    (found : grammar.productions[index]? = some production) :
    [4, 5, 6, 7][index]? = some production.lhs := by
  simp [← stranded.lhs, found]

theorem next_eq (stranded : grammar.Stranded) (production dot : Nat) :
    grammar.items.next? ⟨production, dot⟩ = (strandedRhs.getD production [])[dot]? := by
  rw [ItemGrammar.next?, stranded.symbols]

theorem exists_production (stranded : grammar.Stranded) {index symbol : Nat}
    (listed : [4, 5, 6, 7][index]? = some symbol) :
    ∃ production, grammar.productions[index]? = some production ∧ production.lhs = symbol := by
  have bound : index < grammar.productions.size := by
    rw [stranded.size]
    exact (List.getElem?_eq_some_iff.mp listed).1
  have found := Array.getElem?_eq_getElem bound
  exact ⟨_, found, Option.some.inj ((stranded.lhs_of_found found).symm.trans listed)⟩

/-- What expects the front or the pair. -/
theorem reader (stranded : grammar.Stranded) {item : Item} {symbol : Nat}
    (next : grammar.items.next? item = some symbol) :
    (symbol = 6 → item = ⟨0, 0⟩) ∧ (symbol = 7 → item.production = 2) := by
  obtain ⟨production, dot⟩ := item
  rw [stranded.next_eq] at next
  rcases production with _ | _ | _ | _ | _ | production <;> rcases dot with _ | _ | dot <;>
    simp [strandedRhs] at next ⊢ <;> omega

end Stranded

end Lalr.FlatGrammar
