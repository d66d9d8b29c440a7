import Lalr.Proofs.Automaton.Neighbours
import Lalr.Proofs.Language.Lexer
import Lalr.Proofs.Parser.Location
import Lalr.Proofs.Parser.Waiting

set_option autoImplicit false

/-!
Which subtrees on the stack take up text. A subtree of no length holds nothing but missing tokens,
unless it is the start symbol of an empty text; and behind a missing token the token it was put in
for is accepted before recovery has anything to do. So an extra of no length, which recovery would
have to make of such subtrees, has nothing but the start symbol before it.
-/

namespace Lalr

open Lalr.Text

/-! ## Sizes -/

section reading

variable {language : Language} {mode : ValidExternals} {text last : List Char}
  {scanner : ScannerState} {lexeme : Lexeme}

/-- Extras take up text, and so does every token but the end of the input. -/
theorem Language.Reads.size_pos (knowsNoEnd : language.lexer.KnowsNoEnd)
    (progresses : language.lexer.Progresses) (reads : language.Reads mode text scanner lexeme last) :
    (∀ extra ∈ lexeme.extras, 0 < extra.size) ∧ (lexeme.raw ≠ endSymbol → 0 < lexeme.size) := by
  obtain ⟨read, next, lexed, core, _⟩ := lex_of_reads progresses reads 0
  have filled := filled_of_lexFrom knowsNoEnd progresses (by simp) lexed
  subst core
  exact ⟨filled.extras, filled.token⟩

end reading

namespace ParseState

open StackEntry

variable {input : ParseInput} {grammar : FlatGrammar} {state middle after : ParseState}
  {token : Lexeme}

/-! ## Reductions -/

theorem head?_takeTrailing (trailing stack : List StackEntry) :
    ∀ entry ∈ (takeTrailing trailing stack).2.head?, entry.isExtra = false := by
  induction stack generalizing trailing with
  | nil => simp [takeTrailing]
  | cons entry stack ih =>
      cases extra : entry.isExtra with
      | true => simpa [takeTrailing, extra] using ih (entry :: trailing)
      | false => simp [takeTrailing, extra]

theorem head?_popStructural {count : Nat} {stack : List StackEntry} (some_ : count ≠ 0)
    (enough : count ≤ (structural stack).length) (removed : List StackEntry) :
    ∃ entry, (popStructural removed count stack).1.head? = some entry ∧
      entry.isExtra = false := by
  induction stack generalizing removed count with
  | nil => exact absurd (Nat.le_zero.mp enough) some_
  | cons entry stack ih =>
      obtain ⟨count, rfl⟩ := Nat.exists_eq_add_one_of_ne_zero some_
      cases extra : entry.isExtra with
      | true =>
          rw [popStructural, if_pos extra]
          exact ih some_ (by simpa [structural, extra] using enough) _
      | false =>
          rw [popStructural, if_neg (by simp [extra])]
          cases count with
          | zero => exact ⟨entry, by cases stack <;> rfl, extra⟩
          | succ count =>
              refine ih (Nat.succ_ne_zero _) ?_ _
              simpa [structural, extra] using enough

/-- The parse behind a reduction of some entries between those behind and those below them. -/
def afterReduction (state : ParseState) (id : ProductionId) (production : ProductionInfo)
    (token : Lexeme) (trailing taken below : List StackEntry) (next : StateId) : ParseState :=
  let under : ParseState := { state with stack := below }
  let start := (taken.reverse.head?.map StackEntry.start).getD under.stackEnd
  let entry := ofEntries next (under.reducedHead id production token taken.reverse) taken.reverse
    start
  ({ state with stack := entry :: below } : ParseState).pushAll next
    (trailing.reverse.map StackEntry.subtree)

/-- How a reduction parts the stack: extras behind the children, the children, and what is below
them. -/
structure Reduction (input : ParseInput) (state : ParseState) (id : ProductionId)
    (production : ProductionInfo) (token : Lexeme) (trailing taken below : List StackEntry)
    (next : StateId) : Prop where
  shape : state.stack = trailing ++ (taken ++ below)
  extras : ∀ entry ∈ trailing, entry.isExtra = true
  symbols : Subtree.structuralSymbols (taken.reverse.map StackEntry.subtree) = production.rhs
  first : production.rhs ≠ [] → ∃ entry, taken.getLast? = some entry ∧ entry.isExtra = false
  final : production.rhs ≠ [] → ∃ entry, taken.head? = some entry ∧ entry.isExtra = false
  empty : production.rhs = [] → taken = []
  leads : input.language.goto? ({ state with stack := below } : ParseState).topState
    production.lhs = some next
  reduced : state.reduce input id production token =
    state.afterReduction id production token trailing taken below next

theorem Sound.exists_reduction (sound : state.Sound input.language grammar)
    (represents : input.language.tables.Represents grammar) {symbol : SymbolId}
    {id : ProductionId} {production : ProductionInfo}
    (action : input.language.action state.topState symbol = .reduce id)
    (found : input.language.production? id = some production) (token : Lexeme) :
    ∃ trailing taken below next,
      Reduction input state id production token trailing taken below next := by
  rw [sound.topState_eq] at action
  obtain ⟨info, trailing, taken, below, next, known, shape, taking, extras, popping, symbols,
    leads⟩ := reduction_spec represents sound.stack action
  obtain rfl := Option.some.inj (known.symm.trans found)
  have all := sound.stack
  rw [shape, List.append_assoc] at all
  have belowSound : ({ state with stack := below } : ParseState).Sound input.language grammar :=
    ⟨all.suffix.suffix, sound.lookahead, sound.pending⟩
  rw [show structuralTop below = _ from belowSound.topState_eq.symm] at leads
  have counted : (structural taken).length = info.rhs.length := by
    rw [← symbols, structuralSymbols_entries]
    simp [structural]
  have filled (more : info.rhs ≠ []) : taken ≠ [] := by
    rintro rfl
    exact more (List.eq_nil_of_length_eq_zero counted.symm)
  refine ⟨trailing, taken, below, next, by rw [shape, List.append_assoc], extras, symbols,
    fun more => ?_, fun more => ?_, fun empty => ?_, leads, ?_⟩
  · obtain ⟨entry, isFirst, isStructural⟩ := head?_popStructural
      (mt List.eq_nil_of_length_eq_zero more)
      (show _ ≤ (structural (taken ++ below)).length by simp [counted]) []
    rw [popping, List.head?_reverse] at isFirst
    exact ⟨entry, isFirst, isStructural⟩
  · obtain ⟨entry, rest, rfl⟩ := List.exists_cons_of_ne_nil (filled more)
    have last := head?_takeTrailing [] state.stack
    rw [taking] at last
    exact ⟨entry, rfl, last entry rfl⟩
  · rw [empty] at popping
    cases shape : taken ++ below <;> rw [shape] at popping <;>
      exact List.reverse_eq_nil_iff.mp (Prod.mk.inj popping).1.symm
  · unfold ParseState.reduce
    simp only [taking, popping, leads, Option.getD_some]
    rfl

namespace Reduction

variable {id : ProductionId} {production : ProductionInfo} {next : StateId}
  {trailing taken below : List StackEntry}
  (reduction : Reduction input state id production token trailing taken below next)

include reduction

theorem structural_eq : structural state.stack = structural taken ++ structural below := by
  rw [reduction.shape, structural_append, structural_of_extras reduction.extras, structural_append]
  rfl

theorem exists_structural : ∃ entry, entry.subtree.symbol = production.lhs ∧
    entry.length = totalLength taken ∧
    structural (state.reduce input id production token).stack =
      entry :: structural below := by
  have extras : ∀ subtree ∈ trailing.reverse.map StackEntry.subtree, subtree.isExtra = true := by
    intro subtree member
    obtain ⟨entry, listed, rfl⟩ := List.mem_map.mp member
    exact reduction.extras entry (List.mem_reverse.mp listed)
  rw [reduction.reduced, afterReduction, structural_pushAll _ extras]
  exact ⟨_, rfl, totalLength_reverse taken, rfl⟩

theorem forest_eq : state.forest = below.reverse.map StackEntry.subtree ++
    taken.reverse.map StackEntry.subtree ++ trailing.reverse.map StackEntry.subtree := by
  simp [forest, reduction.shape]

theorem exists_forest : ∃ head : NodeHead, head.symbol = production.lhs ∧ head.extra = false ∧
    (state.reduce input id production token).forest = below.reverse.map StackEntry.subtree ++
      .node head (taken.reverse.map StackEntry.subtree) ::
        trailing.reverse.map StackEntry.subtree := by
  rw [reduction.reduced, afterReduction, forest_pushAll]
  refine ⟨({ state with stack := below } : ParseState).reducedHead id production token
    taken.reverse, rfl, rfl, ?_⟩
  simp [forest, ofEntries]

/-- Where a production is filled, some child is no extra. -/
theorem exists_structural_taken (more : production.rhs ≠ []) :
    ∃ entry rest, structural taken = entry :: rest := by
  refine List.exists_cons_of_ne_nil fun empty => more ?_
  rw [← reduction.symbols, structuralSymbols_entries]
  simp only [structural, List.filter_reverse, List.map_reverse] at empty ⊢
  rw [empty]
  rfl

end Reduction

/-- A production without symbols is completed on an empty stack only. -/
theorem Sound.structural_eq_nil (sound : state.Sound input.language grammar)
    (represents : input.language.tables.Represents grammar) (filled : grammar.Filled)
    {symbol : SymbolId} {id : ProductionId} {production : ProductionInfo}
    (action : input.language.action state.topState symbol = .reduce id)
    (found : input.language.production? id = some production) (empty : production.rhs = []) :
    structural state.stack = [] ∧ production.lhs.toNat = grammar.start := by
  obtain ⟨written, listed, has⟩ := represents.hasItem_of_reduce action
  obtain ⟨info, stored, lhs, rhs⟩ := represents.exists_production listed
  obtain rfl := Option.some.inj (stored.symm.trans found)
  have nothing : written.rhs = [] := by rw [← rhs, empty]; rfl
  have first : written.steps.length = 0 := by
    simpa [Production.rhs] using congrArg List.length nothing
  rw [first, sound.topState_eq] at has
  have zero := filled.eq_zero_of_hasItem represents.numbered listed nothing has
  refine ⟨?_, lhs.trans (filled.rhs written (Array.mem_of_getElem? listed) nothing)⟩
  cases shape : structural state.stack with
  | nil => rfl
  | cons entry rest =>
      have path := sound.stack.onPath.path
      rw [structuralPath, shape, List.map_cons] at path
      rw [structuralTop, shape] at zero
      cases path with
      | step _ edge =>
          rw [show entry.state.toNat = 0 from zero] at edge
          exact absurd edge (FlatGrammar.not_edge_zero represents.numbered)

/-! ## Subtrees of no length -/

/-- The topmost subtree that is no extra takes up text, or there is none below it. -/
def HeavyTop (state : ParseState) : Prop :=
  ∀ entry below, structural state.stack = entry :: below → below = [] ∨ 0 < entry.length

theorem HeavyTop.of_structural (heavy : state.HeavyTop)
    (same : structural after.stack = structural state.stack) : after.HeavyTop :=
  fun entry below shape => heavy entry below (same ▸ shape)

/-- Recovery has nothing to do before text is on top of the stack. -/
inductive Balanced (input : ParseInput) (state : ParseState) : Prop where
  | promised {promises : List (Lexeme × List StateId)} {last : Lexeme × List StateId} :
      Keeps input state promises → promises.getLast? = some last → last.1.missing = false →
        Balanced input state
  | heavy : (∀ token, state.lookahead = some token → token.missing = false) → state.HeavyTop →
      Balanced input state

theorem Consumes.step_cases {outcome : ParseStep} {states : List StateId}
    (consumes : Consumes input token state outcome states)
    (stepped : state.step input = .ok (.next after)) :
    Consumes input token after outcome states ∨
      (outcome = .next after ∧ ∃ held middle next, state.current input = .ok (held, middle) ∧
        held.missing = token.missing ∧ input.language.action state.topState
          (state.symbolOf input held) = .shift next) := by
  cases consumes with
  | shift taken same action stepped' =>
      have equal := Except.ok.inj (stepped'.symm.trans stepped)
      have missing := congrArg Lexeme.missing same
      exact .inr ⟨equal, _, _, _, taken, missing, action⟩
  | accept _ _ _ stepped' =>
      cases Except.ok.inj (stepped'.symm.trans stepped)
  | reduce _ _ _ stepped' later =>
      obtain rfl := ParseStep.next.inj (Except.ok.inj (stepped'.symm.trans stepped))
      exact .inl later

theorem Consumes.not_lacks {outcome : ParseStep} {states : List StateId} {held : Lexeme}
    (consumes : Consumes input token state outcome states)
    (taken : state.current input = .ok (held, middle)) :
    ¬ LacksAction input.language state.topState (state.symbolOf input held) := by
  cases consumes with
  | shift taken' _ action _ | accept taken' _ action _ =>
      obtain ⟨rfl, rfl⟩ := Prod.mk.inj (Except.ok.inj (taken'.symm.trans taken))
      rintro (other | ⟨_, other⟩ | ⟨_, other, _⟩) <;> cases action.symm.trans other
  | reduce taken' action found _ _ =>
      obtain ⟨rfl, rfl⟩ := Prod.mk.inj (Except.ok.inj (taken'.symm.trans taken))
      rintro (other | ⟨_, other⟩ | ⟨_, other, unknown⟩)
      · cases action.symm.trans other
      · cases action.symm.trans other
      · cases action.symm.trans other
        cases found.symm.trans unknown

theorem HeavyTop.reduce (heavy : state.HeavyTop) (sound : state.Sound input.language grammar)
    (represents : input.language.tables.Represents grammar) (filled : grammar.Filled)
    {symbol : SymbolId} {id : ProductionId} {production : ProductionInfo}
    (action : input.language.action state.topState symbol = .reduce id)
    (found : input.language.production? id = some production) (token : Lexeme) :
    (state.reduce input id production token).HeavyTop := by
  obtain ⟨trailing, taken, below, next, reduction⟩ :=
    sound.exists_reduction represents action found token
  obtain ⟨node, _, length, shape⟩ := reduction.exists_structural
  have whole := reduction.structural_eq
  intro entry rest same
  obtain ⟨rfl, rfl⟩ := List.cons.inj (shape.symm.trans same)
  by_cases empty : production.rhs = []
  · rw [(sound.structural_eq_nil represents filled action found empty).1] at whole
    exact .inl (List.append_eq_nil_iff.mp whole.symm).2
  · obtain ⟨first, others, children⟩ := reduction.exists_structural_taken empty
    rw [children, List.cons_append] at whole
    rcases heavy first _ whole with alone | positive
    · exact .inl (List.append_eq_nil_iff.mp alone).2
    · have member : first ∈ taken :=
        (List.mem_filter.mp (children ▸ List.mem_cons_self : first ∈ structural taken)).1
      obtain ⟨before, behind, rfl⟩ := List.append_of_mem member
      rw [length, totalLength_append, totalLength]
      exact .inr (by omega)

/-- Before an extra of no length stand only extras and the start symbol. -/
def Weighty (start : Nat) (forest : List Subtree) : Prop :=
  forest.Pairwise fun before subtree => subtree.isExtra = true → subtree.length = 0 →
    before.isExtra = false → before.symbol.toNat = start

theorem Weighty.append {start : Nat} {forest more : List Subtree} (weighty : Weighty start forest)
    (heavy : ∀ subtree ∈ more, subtree.isExtra = true → 0 < subtree.length) :
    Weighty start (forest ++ more) := by
  refine List.pairwise_append.mpr ⟨weighty, ?_, fun _ _ subtree member extra zero => ?_⟩
  · refine List.pairwise_iff_forall_sublist.mpr fun {_ subtree} two extra zero => ?_
    exact absurd (heavy subtree (two.subset (by simp)) extra) (by omega)
  · exact absurd (heavy subtree member extra) (by omega)

theorem heavy_extras {extras : List Leaf} (sized : ∀ extra ∈ extras, 0 < extra.size) :
    ∀ subtree ∈ extras.map Subtree.leaf, subtree.isExtra = true → 0 < subtree.length := by
  intro subtree member _
  obtain ⟨leaf, listed, rfl⟩ := List.mem_map.mp member
  have := sized leaf listed
  simp only [Subtree.length]
  omega

theorem Weighty.pushError {start : Nat} (weighty : Weighty start state.forest)
    (sized : ∀ extra ∈ token.extras, 0 < extra.size) (size : 0 < token.size)
    {children : List Subtree} {symbol : SymbolId} {top under : StateId}
    (first : children.head? = some (.leaf (token.toLeaf symbol top))) :
    Weighty start ((state.pushExtras under token).push under (.ofError children)).forest := by
  obtain ⟨rest, rfl⟩ := List.head?_eq_some_iff.mp first
  rw [forest_push, forest_pushExtras]
  refine (weighty.append (heavy_extras sized)).append fun subtree member _ => ?_
  obtain rfl := List.mem_singleton.mp member
  simp only [Subtree.ofError, Subtree.length, Subtree.lengths, Lexeme.toLeaf]
  omega

theorem Reduction.symbol_ne_start (represents : input.language.tables.Represents grammar)
    (filled : grammar.Filled) {top : StateId} {symbol : SymbolId} {id : ProductionId}
    {production : ProductionInfo} (action : input.language.action top symbol = .reduce id)
    (found : input.language.production? id = some production) {trailing taken below : List StackEntry}
    {next : StateId}
    (reduction : Reduction input state id production token trailing taken below next) :
    ∀ entry ∈ structural taken, entry.subtree.symbol.toNat ≠ grammar.start := by
  obtain ⟨written, listed, _⟩ := represents.hasItem_of_reduce action
  obtain ⟨info, stored, _, rhs⟩ := represents.exists_production listed
  obtain rfl := Option.some.inj (stored.symm.trans found)
  intro entry member same
  refine filled.start written (Array.mem_of_getElem? listed) ?_
  rw [← same, ← rhs, ← reduction.symbols, structuralSymbols_entries]
  have listed' : entry ∈ structural taken.reverse := by
    simpa only [structural, List.filter_reverse, List.mem_reverse] using member
  exact List.mem_map_of_mem (List.mem_map_of_mem listed')

/-- Entries that are wrapped take up text, unless nothing but extras is left below them. -/
theorem Weighty.popEntries {start depth : Nat} (weighty : Weighty start state.forest)
    (heavy : state.HeavyTop) (found : state.popDepth? input token = some depth) :
    Weighty start (state.popEntries input token).2.forest := by
  obtain ⟨positive, bounded⟩ := popDepth?_bounds found
  obtain ⟨removed, below, shape, popping, counted⟩ := popStructural_spec [] depth state.stack
  have parts : state.forest = below.reverse.map StackEntry.subtree ++
      removed.reverse.map StackEntry.subtree := by
    simp [forest, shape]
  have made : (state.popEntries input token).2.forest = below.reverse.map StackEntry.subtree ++
      [.ofError (removed.reverse.map StackEntry.subtree)] := by
    rw [List.append_nil] at popping
    simp only [ParseState.popEntries, found, popping]
    exact forest_push _ _
  rw [parts] at weighty
  rw [made]
  refine List.pairwise_append.mpr ⟨(List.pairwise_append.mp weighty).1,
    List.pairwise_singleton _ _, ?_⟩
  intro before member subtree alone _ zero isStructural
  obtain rfl := List.mem_singleton.mp alone
  have length : totalLength removed = 0 := by
    rw [← totalLength_reverse, totalLength_eq]
    exact zero
  have some_ : structural removed ≠ [] := by
    intro none_
    have count := counted bounded
    rw [none_] at count
    exact absurd count (Nat.ne_of_lt positive)
  obtain ⟨entry, others, first⟩ := List.exists_cons_of_ne_nil some_
  have split : structural state.stack = entry :: (others ++ structural below) := by
    rw [shape, structural_append, first]
    rfl
  rcases heavy entry _ split with nothing | tall
  · obtain ⟨other, listed, rfl⟩ := List.mem_map.mp member
    have left : other ∈ structural below := List.mem_filter.mpr
      ⟨List.mem_reverse.mp listed, by simpa [StackEntry.isExtra] using isStructural⟩
    rw [(List.append_eq_nil_iff.mp nothing).2] at left
    cases left
  · have listed : entry ∈ removed :=
      (List.mem_filter.mp (first ▸ List.mem_cons_self : entry ∈ structural removed)).1
    obtain ⟨front, behind, rfl⟩ := List.append_of_mem listed
    rw [totalLength_append, totalLength] at length
    omega

theorem Weighty.reduce (weighty : Weighty grammar.start state.forest)
    (sound : state.Sound input.language grammar)
    (represents : input.language.tables.Represents grammar) (filled : grammar.Filled)
    {symbol : SymbolId} {id : ProductionId} {production : ProductionInfo}
    (action : input.language.action state.topState symbol = .reduce id)
    (found : input.language.production? id = some production) (token : Lexeme) :
    Weighty grammar.start (state.reduce input id production token).forest := by
  obtain ⟨trailing, children, below, next, reduction⟩ :=
    sound.exists_reduction represents action found token
  obtain ⟨head, symbol, isStructural, shape⟩ := reduction.exists_forest
  rw [shape]
  rw [reduction.forest_eq, List.append_assoc] at weighty
  obtain ⟨front, rest, across⟩ := List.pairwise_append.mp weighty
  obtain ⟨_, behind, between⟩ := List.pairwise_append.mp rest
  refine List.pairwise_append.mpr ⟨front, List.pairwise_cons.mpr ⟨?_, behind⟩, ?_⟩
  · intro subtree member extra zero _
    by_cases empty : production.rhs = []
    · rw [Subtree.symbol, symbol]
      exact (sound.structural_eq_nil represents filled action found empty).2
    · -- a child that is no extra stands before the extra, and is not the start symbol
      obtain ⟨child, others, first⟩ := reduction.exists_structural_taken empty
      have listed : child ∈ structural children := first ▸ List.mem_cons_self
      obtain ⟨inner, other⟩ := List.mem_filter.mp listed
      have here := between child.subtree (List.mem_map_of_mem (List.mem_reverse.mpr inner)) subtree
        member extra zero (by simpa [StackEntry.isExtra] using other)
      exact absurd here (reduction.symbol_ne_start represents filled action found child listed)
  · intro before member subtree inner
    rcases List.mem_cons.mp inner with rfl | later
    · intro extra
      rw [Subtree.isExtra, isStructural] at extra
      cases extra
    · exact across before member subtree (List.mem_append_right _ later)

section running

variable (represents : input.language.tables.Represents grammar)
  (knowsNoEnd : input.language.lexer.KnowsNoEnd)
  (progresses : input.language.lexer.Progresses)
  (inside : input.language.scanner.StaysInside) (fresh : input.reuse = [])
  (filled : grammar.Filled)

include represents knowsNoEnd progresses inside fresh

/-- What a token at hand that is not missing takes up. -/
theorem Reaches.size_pos (reaches : Reaches input state)
    (taken : state.current input = .ok (token, middle)) (present : token.missing = false) :
    (∀ extra ∈ token.extras, 0 < extra.size) ∧ (token.raw ≠ endSymbol → 0 < token.size) := by
  obtain ⟨_, _, _, _, _, _, reads, _⟩ :=
    reaches.exists_reads represents knowsNoEnd fresh inside taken present
  have sizes := reads.size_pos knowsNoEnd progresses
  exact sizes

theorem Reaches.balanced_shift (reaches : Reaches input state)
    (taken : state.current input = .ok (token, middle)) (present : token.missing = false)
    {next : StateId}
    (action : input.language.action state.topState (state.symbolOf input token) = .shift next) :
    (middle.shift next (state.symbolOf input token)
      { token with symbol := some (state.symbolOf input token) }).Balanced input := by
  have ordinary := reaches.ordinary_of_shift represents knowsNoEnd fresh taken action
  have positive := (reaches.size_pos represents knowsNoEnd progresses inside fresh taken present).2
    ordinary
  have frame : middle.SameBut (middle.shift next (state.symbolOf input token)
    { token with symbol := some (state.symbolOf input token) }) := sameBut_push_token ..
  refine .heavy (fun other held => ?_) fun entry below shape => ?_
  · rw [frame.lookahead, (current_ok taken).2.1] at held
    cases held
  · have top : entry.length = token.padding + token.size := by
      rw [← (List.cons.inj shape).1]
      rfl
    exact .inr (by omega)

omit progresses inside in
theorem Reaches.balanced_of_recover (reaches : Reaches input state)
    (taken : state.current input = .ok (token, middle))
    (lacks : LacksAction input.language state.topState (state.symbolOf input token))
    (heavy : state.HeavyTop) (stepped : state.step input = .ok (.next after)) :
    after.Balanced input := by
  have known := reaches.acceptsMissing represents knowsNoEnd fresh
  have sound := reaches.sound represents rfl fresh
  have present := known.present_of_lacks sound knowsNoEnd taken lacks
  have waiting := (known.current knowsNoEnd taken).1
  obtain ⟨onlyExtras, _, stack⟩ := sound.current taken
  have named : ({ token with symbol := some (state.symbolOf input token) } : Lexeme).OnlyExtras :=
    onlyExtras
  have reached := reaches.step stepped
  rw [step_of_lacks taken lacks] at stepped
  rcases promises_of_recover lacks stepped with
    ⟨promises, promised⟩ | ⟨_, later, inVain, _, rfl⟩
  · have keeps := promised.keeps represents fresh named reached
    cases promised with
    | insert | pop => exact .promised keeps rfl present
    | skip searched whole _ =>
        refine .promised keeps rfl ?_
        obtain ⟨⟨_, reads⟩, _⟩ := findAcceptable_ok searched
        exact reads.forall_pending waiting (reads.inTurn.present knowsNoEnd) _ (by simp [whole])
  · obtain ⟨_, reads⟩ := inVain.readsAhead
    refine .heavy (fun other held => ?_) (heavy.of_structural ?_)
    · have frame : later.SameBut (later.wrapToken
          { token with symbol := some (state.symbolOf input token) }) := sameBut_push_token ..
      rw [frame.lookahead, reads.lookahead, (current_ok taken).2.1] at held
      cases held
    · rw [← stack, ← reads.stack]
      exact structural_pushExtras named _

include filled

theorem Balanced.step (balanced : state.Balanced input) (reaches : Reaches input state)
    (stepped : state.step input = .ok (.next after)) : after.Balanced input := by
  have sound := reaches.sound represents rfl fresh
  obtain ⟨token, middle, taken, effect⟩ := effect_of_step fresh stepped
  cases balanced with
  | @promised promises last keeps isLast present =>
      cases keeps with
      | nil => cases isLast
      | last consumes =>
          rcases consumes.step_cases stepped with later | ⟨other, _⟩
          · exact .promised (.last later) isLast present
          · cases other
      | @cons _ between promise states rest consumes later =>
          rcases consumes.step_cases stepped with same | ⟨same, held, before, next, taken', missing,
            action⟩
          · exact .promised (.cons same later) isLast present
          obtain rfl := ParseStep.next.inj same
          cases rest with
          | cons other others =>
              rw [List.getLast?_cons_cons] at isLast
              exact .promised later isLast present
          | nil =>
              obtain rfl : (promise, states) = last := by simpa using isLast
              have shifted := step_of_shift fresh taken' action
              obtain rfl := ParseStep.next.inj (Except.ok.inj (shifted.symm.trans stepped))
              exact reaches.balanced_shift represents knowsNoEnd progresses inside fresh taken'
                (missing.trans present) action
  | heavy held top =>
      have known := reaches.acceptsMissing represents knowsNoEnd fresh
      obtain ⟨stack, idle, whole, inTurn⟩ := current_ok taken
      have present : token.missing = false := by
        have member : token ∈ state.lookahead.toList ++ state.pending ++ state.readNow token :=
          whole ▸ List.mem_cons_self
        rcases List.mem_append.mp member with waits | now
        · rcases List.mem_append.mp waits with ahead | pending
          · exact held token (Option.mem_toList.mp ahead)
          · exact known.pending token pending
        · exact inTurn.present knowsNoEnd token now
      have recovers := fun lacks => reaches.balanced_of_recover represents knowsNoEnd fresh taken
        lacks top stepped
      cases effect with
      | shift action =>
          exact reaches.balanced_shift represents knowsNoEnd progresses inside fresh taken present
            action
      | reduce action found =>
          refine .heavy (fun other ahead => Option.some.inj ahead ▸ present) ?_
          obtain ⟨_, middleSound, _⟩ := sound.current taken
          have same : middle.topState = state.topState := by simp only [topState, stack]
          exact (top.of_structural (congrArg _ stack)).reduce middleSound represents filled
            (same ▸ action) found _
      | insert lacks | skip lacks | pop lacks | wrap lacks => exact recovers lacks

theorem Reaches.balanced (reaches : Reaches input state) : state.Balanced input := by
  induction reaches with
  | initial => exact .heavy nofun nofun
  | step reaches stepped ih =>
      exact ih.step represents knowsNoEnd progresses inside fresh filled reaches stepped

/-- Where recovery is called for, text is on top of the stack. -/
theorem Reaches.heavyTop_of_lacks (reaches : Reaches input state)
    (taken : state.current input = .ok (token, middle))
    (lacks : LacksAction input.language state.topState (state.symbolOf input token)) :
    state.HeavyTop := by
  cases reaches.balanced represents knowsNoEnd progresses inside fresh filled with
  | promised keeps isLast _ =>
      cases keeps with
      | nil => cases isLast
      | last consumes | cons consumes _ => exact absurd lacks (consumes.not_lacks taken)
  | heavy _ heavy => exact heavy

theorem weighty_step (weighty : Weighty grammar.start state.forest) (reaches : Reaches input state)
    (stepped : state.step input = .ok (.next after)) : Weighty grammar.start after.forest := by
  obtain ⟨token, middle, taken, effect⟩ := effect_of_step fresh stepped
  obtain ⟨onlyExtras, sound, stack⟩ := (reaches.sound represents rfl fresh).current taken
  have top : middle.topState = state.topState := by simp only [topState, stack]
  have known := reaches.acceptsMissing represents knowsNoEnd fresh
  have same : middle.forest = state.forest := by rw [forest, stack]; rfl
  rw [← same] at weighty
  have sizes := reaches.size_pos represents knowsNoEnd progresses inside fresh taken
  have present := fun lacks =>
    known.present_of_lacks (reaches.sound represents rfl fresh) knowsNoEnd taken lacks
  have searched : ∀ {read later}, ReadsAhead input middle read later →
      Weighty grammar.start later.forest := by
    intro read later ahead
    rw [forest, ahead.stack]
    exact weighty
  cases effect with
  | shift action =>
      rw [ParseState.shift, forest_push, forest_pushExtras]
      refine (weighty.append (heavy_extras ?_)).append fun subtree member extra => ?_
      · cases missing : token.missing with
        | false => exact (sizes missing).1
        | true =>
            obtain ⟨log, faithful⟩ := reaches.faithful represents knowsNoEnd fresh
            have kept := (faithful.current knowsNoEnd taken).atHand.missing missing
            have alone : token.extras = [] := kept.2.2
            simp [alone]
      · obtain rfl := List.mem_singleton.mp member
        cases extra
  | reduce action found =>
      rw [← top] at action
      have reduced := weighty.reduce sound represents filled action found
        { token with symbol := some (state.symbolOf input token) }
      exact reduced
  | insert => exact weighty
  | @skip later skipped next pending lacks _ ordinary _ found _ _ =>
      obtain ⟨⟨_, ahead⟩, _⟩ := findAcceptable_ok found
      obtain ⟨extras, size⟩ := sizes (present lacks)
      exact (searched ahead).pushError
        (show ∀ extra ∈ ({ token with symbol := some (state.symbolOf input token) } :
          Lexeme).extras, 0 < extra.size from extras) (size ordinary) rfl
  | pop lacks _ inVain found =>
      obtain ⟨_, ahead⟩ := inVain.readsAhead
      have heavy := reaches.heavyTop_of_lacks represents knowsNoEnd progresses inside fresh filled
        taken lacks
      exact (searched ahead).popEntries (heavy.of_structural (by rw [ahead.stack, stack])) found
  | wrap lacks _ inVain _ ordinary =>
      obtain ⟨_, ahead⟩ := inVain.readsAhead
      obtain ⟨extras, size⟩ := sizes (present lacks)
      exact (searched ahead).pushError
        (show ∀ extra ∈ ({ token with symbol := some (state.symbolOf input token) } :
          Lexeme).extras, 0 < extra.size from extras) (size ordinary) rfl

theorem Reaches.weighty (reaches : Reaches input state) : Weighty grammar.start state.forest := by
  induction reaches with
  | initial => exact .nil
  | step reaches stepped ih =>
      exact weighty_step represents knowsNoEnd progresses inside fresh filled ih reaches stepped

end running

/-- A node that can be used again has nothing behind its last child when it is made. -/
theorem Reduction.trailing_eq_nil {id : ProductionId} {production : ProductionInfo}
    {trailing children below : List StackEntry} {next top : StateId} {symbol : SymbolId}
    (reduction : Reduction input state id production token trailing children below next)
    (represents : input.language.tables.Represents grammar) (filled : grammar.Filled)
    (action : input.language.action top symbol = .reduce id)
    (found : input.language.production? id = some production)
    (weighty : Weighty grammar.start state.forest) (contiguous : Contiguous state.stack)
    (start : token.start = totalLength state.stack) (more : production.rhs ≠ [])
    (reusable : (({ state with stack := below } : ParseState).reducedHead id production token
      children.reverse).lookahead.any Lookahead.reusable = true) :
    trailing = [] ∧ token.isOrdinary = true := by
  obtain ⟨ordinary, reached⟩ := Bool.and_eq_true_iff.mp reusable
  rw [reduction.shape] at contiguous start
  have begins := (Contiguous.suffix contiguous).start_eq
  rw [contiguous.suffix.stackEnd_below, begins, beq_iff_eq, start, totalLength_append,
    totalLength_append, totalLength_reverse] at reached
  refine ⟨?_, ordinary⟩
  cases trailing with
  | nil => rfl
  | cons extra others =>
      rw [totalLength] at reached
      obtain ⟨child, rest, first⟩ := reduction.exists_structural_taken more
      have listed : child ∈ structural children := first ▸ List.mem_cons_self
      obtain ⟨inner, other⟩ := List.mem_filter.mp listed
      rw [reduction.forest_eq, List.append_assoc] at weighty
      obtain ⟨_, _, between⟩ :=
        List.pairwise_append.mp (List.pairwise_append.mp weighty).2.1
      have zero : extra.subtree.length = 0 := by
        rw [← extra.length_eq]
        omega
      have same := between child.subtree (List.mem_map_of_mem (List.mem_reverse.mpr inner))
        extra.subtree (List.mem_map_of_mem (List.mem_reverse.mpr List.mem_cons_self))
        (reduction.extras extra List.mem_cons_self) zero
        (by simpa [StackEntry.isExtra] using other)
      exact absurd same (reduction.symbol_ne_start represents filled action found child listed)

end ParseState

end Lalr
