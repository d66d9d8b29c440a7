import Lalr.Proofs.Automaton.First
import Lalr.Proofs.Automaton.Path

set_option autoImplicit false

/-!
The lookaheads are settled. A predicted production may be followed by whatever follows its
left-hand side in an item that predicts it, and over a transition an item keeps its
lookaheads.
-/

namespace Lalr

theorem TokenSet.Below.followedBy {count : Nat} {beginning : Beginning} {follow : TokenSet}
    (tokens : beginning.tokens.Below count) (below : follow.Below count) :
    (beginning.followedBy follow).Below count := by
  unfold Beginning.followedBy
  split
  · exact tokens.union below
  · exact tokens

namespace PredictedLookaheads

/-- The lookaheads in a place. -/
abbrev tokensAt (lookaheads : PredictedLookaheads) (place : Nat) : TokenSet :=
  lookaheads.getD place .empty

/-- One has all the terminals of the other. -/
def Within (less more : PredictedLookaheads) : Prop :=
  ∀ place terminal, (tokensAt less place).contains terminal = true →
    (tokensAt more place).contains terminal = true

theorem Within.refl (lookaheads : PredictedLookaheads) : Within lookaheads lookaheads :=
  fun _ _ member => member

theorem Within.trans {first second third : PredictedLookaheads} (left : Within first second)
    (right : Within second third) : Within first third :=
  fun place terminal member => right place terminal (left place terminal member)

theorem within_modify (lookaheads : PredictedLookaheads) (place : Nat) (follow : TokenSet) :
    Within lookaheads (lookaheads.modify place (·.union follow)) := by
  intro other terminal member
  simp only [tokensAt, Array.getD_eq_getD_getElem?, Array.getElem?_modify] at *
  cases found : lookaheads[other]? with
  | none => simp [found] at member
  | some set =>
      rw [found] at member
      split
      · simpa using .inl member
      · simpa using member

theorem contains_modify {lookaheads : PredictedLookaheads} {place : Nat}
    (inside : place < lookaheads.size) {follow : TokenSet} {terminal : Nat}
    (member : follow.contains terminal = true) :
    (tokensAt (lookaheads.modify place (·.union follow)) place).contains terminal = true := by
  simp [tokensAt, Array.getElem_modify, inside, member]

end PredictedLookaheads

namespace FlatGrammar

variable {grammar : FlatGrammar}

/-! ## Within a state -/

/-- Lookaheads of the shape of a grammar, of its terminals only, with at least those given. -/
structure PredictedFits (grammar : FlatGrammar) (known lookaheads : PredictedLookaheads) :
    Prop where
  size : lookaheads.size = grammar.nonterminalCount
  below : ∀ set ∈ lookaheads, set.Below grammar.terminalCount
  kept : known.Within lookaheads

namespace PredictedFits

variable {known lookaheads : PredictedLookaheads}

theorem below_at (fits : grammar.PredictedFits known lookaheads) (place : Nat) :
    (lookaheads.tokensAt place).Below grammar.terminalCount := by
  rw [PredictedLookaheads.tokensAt, Array.getD_eq_getD_getElem?]
  cases found : lookaheads[place]? with
  | none => exact TokenSet.below_empty _
  | some set => exact fits.below set (Array.mem_of_getElem? found)

theorem modify (fits : grammar.PredictedFits known lookaheads) (place : Nat)
    {follow : TokenSet} (below : follow.Below grammar.terminalCount) :
    grammar.PredictedFits known (lookaheads.modify place (·.union follow)) := by
  refine ⟨by simpa using fits.size, fun set member => ?_,
    fits.kept.trans (PredictedLookaheads.within_modify lookaheads place follow)⟩
  obtain ⟨index, bound, rfl⟩ := Array.getElem_of_mem member
  have inside : index < lookaheads.size := by simpa using bound
  have here := fits.below lookaheads[index] (Array.getElem_mem inside)
  rw [Array.getElem_modify]
  split
  · exact here.union below
  · exact here

end PredictedFits

theorem items_productionsOf_size :
    grammar.items.productionsOf.size = grammar.nonterminalCount := by
  simp [ItemGrammar.ofGrammar]

theorem place_lt (numbered : grammar.WellNumbered) {index symbol : Nat}
    (nonterminal : grammar.terminalCount ≤ symbol)
    (occurs : symbol ∈ grammar.items.symbols index) :
    grammar.items.place symbol < grammar.nonterminalCount := by
  have bound := (items_symbols_range numbered occurs).2
  have start := numbered.start_range
  change symbol - grammar.terminalCount < grammar.nonterminalCount
  simp only [nonterminalCount]
  omega

/-- What the productions of a predicted nonterminal contribute adds only. -/
theorem withLeads_grows (numbered : grammar.WellNumbered) {known : PredictedLookaheads}
    {symbol : Nat} (nonterminal : grammar.terminalCount ≤ symbol) :
    ∀ entry ∈ grammar.items.leads.getD (grammar.items.place symbol) [],
      Grows (grammar.PredictedFits known) (totalWeight TokenSet.weight) fun lookaheads =>
        lookaheads.modify (grammar.items.place entry.1) (·.union
          (entry.2.followedBy (lookaheads.tokensAt (grammar.items.place symbol)))) := by
  rintro ⟨lead, rest⟩ listed
  obtain ⟨_, _, symbols, _, _, rfl⟩ := (mem_items_leads numbered nonterminal).mp listed
  have tokens := (FirstSets.ofGrammar_fixed grammar).1.below_ofSequence symbols
  refine ⟨fun lookaheads fits => fits.modify _ (tokens.followedBy (fits.below_at _)),
    fun lookaheads fits => ?_⟩
  exact modify_grows _ _ fun set _ => set.union_grows (tokens.followedBy (fits.below_at _)).trimmed

theorem settlePredicted_eq (predicted : List Nat) (limit : Nat)
    (lookaheads : PredictedLookaheads) :
    grammar.items.settlePredicted predicted limit lookaheads =
      settleWith (fun lookaheads => predicted.foldl grammar.items.withLeads lookaheads) limit
        lookaheads := by
  induction limit generalizing lookaheads with
  | zero => rfl
  | succ limit hypothesis => simp only [ItemGrammar.settlePredicted, settleWith, hypothesis]

/-- Settled lookaheads of predicted productions are closed under what they contribute. -/
theorem settlePredicted_closed (numbered : grammar.WellNumbered) {predicted : List Nat}
    (nonterminals : ∀ symbol ∈ predicted, grammar.terminalCount ≤ symbol)
    {direct : PredictedLookaheads} (fits : grammar.PredictedFits direct direct) :
    let settled := grammar.items.settlePredicted predicted
      (grammar.items.productionsOf.size * grammar.terminalCount + 1) direct
    grammar.PredictedFits direct settled ∧
      ∀ symbol ∈ predicted, ∀ entry ∈ grammar.items.leads.getD (grammar.items.place symbol) [],
        ∀ terminal, (entry.2.followedBy (settled.tokensAt (grammar.items.place symbol))).contains
            terminal = true →
          (settled.tokensAt (grammar.items.place entry.1)).contains terminal = true := by
  intro settled
  have rounds : ∀ symbol ∈ predicted,
      Grows (grammar.PredictedFits direct) (totalWeight TokenSet.weight) fun lookaheads =>
        grammar.items.withLeads lookaheads symbol :=
    fun symbol member => .foldl (withLeads_grows numbered (nonterminals symbol member))
  have bounded : ∀ lookaheads, grammar.PredictedFits direct lookaheads →
      totalWeight TokenSet.weight lookaheads ≤
        grammar.items.productionsOf.size * grammar.terminalCount := by
    intro lookaheads inner
    rw [items_productionsOf_size, ← inner.size]
    exact totalWeight_le fun set member => (inner.below set member).weight_le
  obtain ⟨settledFits, fixed⟩ := settleWith_fixed (.foldl rounds) bounded
    (grammar.items.productionsOf.size * grammar.terminalCount + 1) fits (by omega)
  rw [← settlePredicted_eq] at settledFits fixed
  refine ⟨settledFits, fun symbol member => ?_⟩
  rintro ⟨lead, rest⟩ listed terminal contributed
  have nonterminal := nonterminals symbol member
  have unchanged := Grows.foldl_fixed rounds settledFits fixed symbol member
  have same := Grows.foldl_fixed (withLeads_grows numbered nonterminal) settledFits unchanged
    (lead, rest) listed
  obtain ⟨index, _, symbols, shape, large, _⟩ :=
    (mem_items_leads numbered nonterminal).mp listed
  have inside : grammar.items.place lead < settled.size := by
    rw [settledFits.size]
    have occurs : lead ∈ grammar.items.symbols index := by simp [shape]
    exact place_lt numbered large occurs
  have union := modify_eq_iff.mp same _ (Array.getElem?_eq_getElem inside)
  have member := TokenSet.contains_of_union_eq union contributed
  simpa [PredictedLookaheads.tokensAt, inside] using member

/-- The item sets' own contributions. -/
theorem withKernelItem_eq {lookaheads : PredictedLookaheads} {item : Item}
    {lookahead : TokenSet} {symbol : Nat} (next : grammar.items.next? item = some symbol)
    (nonterminal : grammar.terminalCount ≤ symbol) :
    grammar.items.withKernelItem lookaheads (item, lookahead) =
      lookaheads.modify (grammar.items.place symbol) (·.union
        ((grammar.items.first.ofSequence
          ((grammar.items.symbols item.production).drop (item.dot + 1))).followedBy
            lookahead)) := by
  have found : grammar.items.nextNonterminal? item = some symbol := by
    refine Option.filter_eq_some_iff.mpr ⟨next, ?_⟩
    simpa [ItemGrammar.ofGrammar] using nonterminal
  simp [ItemGrammar.withKernelItem, found]

/-- The contributions of the kernel are made, and keep the shape. -/
theorem foldl_withKernelItem (numbered : grammar.WellNumbered)
    (entries : List (Item × TokenSet))
    (below : ∀ entry ∈ entries, entry.2.Below grammar.terminalCount)
    {start : PredictedLookaheads} (fits : grammar.PredictedFits start start) :
    let direct := entries.foldl grammar.items.withKernelItem start
    grammar.PredictedFits start direct ∧
      ∀ item lookahead, (item, lookahead) ∈ entries → ∀ symbol,
        grammar.items.next? item = some symbol → grammar.terminalCount ≤ symbol →
          ∀ terminal, ((grammar.items.first.ofSequence
              ((grammar.items.symbols item.production).drop (item.dot + 1))).followedBy
                lookahead).contains terminal = true →
            (direct.tokensAt (grammar.items.place symbol)).contains terminal = true := by
  induction entries generalizing start with
  | nil => exact ⟨fits, nofun⟩
  | cons entry entries hypothesis =>
      obtain ⟨item, lookahead⟩ := entry
      have here := below _ List.mem_cons_self
      have stepFits : grammar.PredictedFits start
          (grammar.items.withKernelItem start (item, lookahead)) := by
        cases found : grammar.items.nextNonterminal? item with
        | none => simpa [ItemGrammar.withKernelItem, found] using fits
        | some symbol =>
            obtain ⟨next, nonterminal⟩ := le_of_nextNonterminal? found
            rw [withKernelItem_eq next nonterminal]
            exact fits.modify _
              (((FirstSets.ofGrammar_fixed grammar).1.below_ofSequence _).followedBy here)
      obtain ⟨rest, contributed⟩ := hypothesis
        (fun other member => below other (List.mem_cons_of_mem _ member))
        (⟨stepFits.size, stepFits.below, .refl _⟩ : grammar.PredictedFits
          (grammar.items.withKernelItem start (item, lookahead)) _)
      refine ⟨⟨rest.size, rest.below, stepFits.kept.trans rest.kept⟩, ?_⟩
      intro other set member symbol next nonterminal terminal begins
      rcases List.mem_cons.mp member with same | later
      · obtain ⟨rfl, rfl⟩ := Prod.mk.inj same
        refine rest.kept _ _ ?_
        rw [withKernelItem_eq next nonterminal]
        refine PredictedLookaheads.contains_modify ?_ begins
        rw [fits.size]
        exact place_lt numbered nonterminal (List.mem_of_getElem? next)
      · exact contributed other set later symbol next nonterminal terminal begins

/-- The lookaheads of the predicted productions of a completed state, given those of its
kernel: terminals only, with all that the kernel and the predicted productions contribute. -/
theorem predictedLookaheads_spec (numbered : grammar.WellNumbered) {state : ItemState}
    {kernel : List TokenSet} (predicted : state.predicted = grammar.items.predicted state.kernel)
    (below : ∀ set ∈ kernel, set.Below grammar.terminalCount) :
    let settled := grammar.items.predictedLookaheads state kernel
    (∀ place, (settled.tokensAt place).Below grammar.terminalCount) ∧
      (∀ item lookahead, (item, lookahead) ∈ state.kernel.zip kernel → ∀ symbol,
        grammar.items.next? item = some symbol → grammar.terminalCount ≤ symbol →
          ∀ terminal, ((grammar.items.first.ofSequence
              ((grammar.items.symbols item.production).drop (item.dot + 1))).followedBy
                lookahead).contains terminal = true →
            (settled.tokensAt (grammar.items.place symbol)).contains terminal = true) ∧
      ∀ symbol, grammar.items.Expects state.kernel symbol →
        ∀ entry ∈ grammar.items.leads.getD (grammar.items.place symbol) [],
          ∀ terminal, (entry.2.followedBy
              (settled.tokensAt (grammar.items.place symbol))).contains terminal = true →
            (settled.tokensAt (grammar.items.place entry.1)).contains terminal = true := by
  intro settled
  have start : grammar.PredictedFits
      (Array.replicate grammar.items.productionsOf.size .empty)
      (Array.replicate grammar.items.productionsOf.size .empty) := by
    refine ⟨by simp [items_productionsOf_size], fun set member => ?_, .refl _⟩
    obtain ⟨_, rfl⟩ := Array.mem_replicate.mp member
    exact TokenSet.below_empty _
  obtain ⟨directFits, contributed⟩ := foldl_withKernelItem numbered
    (state.kernel.zip kernel)
    (fun entry member => below entry.2 (List.of_mem_zip member).2) start
  have nonterminals : ∀ symbol ∈ state.predicted, grammar.terminalCount ≤ symbol := by
    intro symbol member
    exact le_of_expects numbered ((mem_predicted numbered).mp (predicted ▸ member))
  obtain ⟨fits, closed⟩ := settlePredicted_closed numbered nonterminals
    ⟨directFits.size, directFits.below, .refl _⟩
  refine ⟨fits.below_at, ?_, ?_⟩
  · intro item lookahead member symbol next nonterminal terminal begins
    exact fits.kept _ _ (contributed item lookahead member symbol next nonterminal terminal begins)
  · intro symbol expects
    exact closed symbol (predicted ▸ (mem_predicted numbered).mpr expects)

theorem exists_mem_zip {kernel : List Item} {sets : List TokenSet}
    (lengths : sets.length = kernel.length) {item : Item} (member : item ∈ kernel) :
    ∃ set, (item, set) ∈ kernel.zip sets := by
  obtain ⟨index, bound, rfl⟩ := List.getElem_of_mem member
  have inside : index < (kernel.zip sets).length := by
    simp only [List.length_zip]
    omega
  refine ⟨sets[index], ?_⟩
  have listed := List.getElem_mem inside
  rwa [List.getElem_zip] at listed

section lookaheads

variable {state : ItemState} {kernel : List TokenSet} {predicted : PredictedLookaheads}

theorem nodup_zip_keys (isKernel : grammar.IsKernel state.kernel)
    (lengths : kernel.length = state.kernel.length) :
    ((state.kernel.zip kernel).map Prod.fst).Nodup := by
  rw [List.map_fst_zip (by omega)]
  exact isKernel.ordered.imp fun precedes => precedes.2

/-- Kernel items have the lookaheads handed to them. -/
theorem lookaheadOf_kernel (isKernel : grammar.IsKernel state.kernel)
    (lengths : kernel.length = state.kernel.length) {item : Item}
    {lookahead : TokenSet} (member : (item, lookahead) ∈ state.kernel.zip kernel) :
    grammar.items.lookaheadOf state kernel predicted item = lookahead := by
  have found := (lookup_eq_some_iff_mem (nodup_zip_keys isKernel lengths)).mpr member
  simp [ItemGrammar.lookaheadOf, found]

/-- Predicted productions have the lookaheads of their left-hand side. -/
theorem lookaheadOf_predicted (isKernel : grammar.IsKernel state.kernel) {index : Nat}
    {production : Production} (found : grammar.productions[index]? = some production) :
    grammar.items.lookaheadOf state kernel predicted ⟨index, 0⟩ =
      predicted.tokensAt (grammar.items.place production.lhs) := by
  have bound := (Array.getElem?_eq_some_iff.mp found).1
  have absent : (state.kernel.zip kernel).lookup ⟨index, 0⟩ = none := by
    rw [List.lookup_eq_none_iff]
    rintro ⟨item, set⟩ member
    refine bne_iff_ne.mpr fun same => ?_
    obtain rfl : ⟨index, 0⟩ = item := same
    have moved := isKernel.moved _ (List.of_mem_zip member).1
    simp only at moved
    omega
  simp only [ItemGrammar.lookaheadOf, absent, if_true, items_lhs found]

/-- A predicted production may be followed by whatever follows its left-hand side in an item
that predicts it. -/
theorem lookaheadOf_closed (numbered : grammar.WellNumbered)
    (isKernel : grammar.IsKernel state.kernel)
    (completed : state.predicted = grammar.items.predicted state.kernel)
    (below : ∀ set ∈ kernel, set.Below grammar.terminalCount)
    (lengths : kernel.length = state.kernel.length) {item : Item} {index : Nat}
    {production : Production} (member : item ∈ grammar.items.closure state.kernel)
    (found : grammar.productions[index]? = some production)
    (next : grammar.items.next? item = some production.lhs) {terminal : Nat}
    (begins : ((grammar.items.first.ofSequence
        ((grammar.items.symbols item.production).drop (item.dot + 1))).followedBy
          (grammar.items.lookaheadOf state kernel
            (grammar.items.predictedLookaheads state kernel) item)).contains terminal = true) :
    (grammar.items.lookaheadOf state kernel (grammar.items.predictedLookaheads state kernel)
      ⟨index, 0⟩).contains terminal = true := by
  obtain ⟨_, direct, closed⟩ := predictedLookaheads_spec numbered completed below
  have nonterminal := (numbered.lhs_range production (Array.mem_of_getElem? found)).1
  rw [lookaheadOf_predicted isKernel found]
  rcases (mem_closure numbered).mp member with inside | ⟨start, other, listed, expects⟩
  · obtain ⟨lookahead, paired⟩ := exists_mem_zip lengths inside
    rw [lookaheadOf_kernel isKernel lengths paired] at begins
    exact direct item lookahead paired production.lhs next nonterminal terminal begins
  · obtain ⟨place, dot⟩ := item
    simp only at start listed begins
    subst start
    rw [lookaheadOf_predicted isKernel listed] at begins
    simp only [ItemGrammar.next?, items_symbols listed] at next
    cases shape : other.rhs with
    | nil => simp [shape] at next
    | cons lead symbols =>
        obtain rfl : lead = production.lhs := by simpa [shape] using next
        rw [items_symbols listed, shape] at begins
        have outer := le_of_expects numbered expects
        refine closed other.lhs expects (production.lhs, _) ((mem_items_leads numbered outer).mpr
          ⟨place, mem_productionsOf.mpr ⟨other, listed, rfl⟩, symbols,
            (items_symbols listed).trans shape, nonterminal, rfl⟩) terminal ?_
        simpa using begins

end lookaheads

end FlatGrammar

end Lalr
