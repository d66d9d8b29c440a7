import Mathlib.Order.WellFounded
import Lalr.Proofs.Automaton.Reduction
import Lalr.Proofs.Parser.Machine
import Lalr.Proofs.Parser.Run

set_option autoImplicit false

/-!
Chains of reductions on one terminal. Where recursion is visible in the grammar they come to
an end on every stack of a parse; a rule that consists of itself, preferred by its precedence,
keeps a parse reducing for ever.
-/

namespace Lalr

open Relation

namespace Language

/-- A reduction on a terminal; the top of the stack of states comes first. -/
def ReducesTo (language : Language) (symbol : SymbolId) (before after : List StateId) : Prop :=
  ∃ top below id production under rest next, before = top :: below ∧
    language.action top symbol = .reduce id ∧ language.production? id = some production ∧
    before.drop production.rhs.length = under :: rest ∧
    language.goto? under production.lhs = some next ∧ after = next :: under :: rest

/-- From a stack of states there is no endless chain of reductions on a terminal. -/
def ReductionsEnd (language : Language) (symbol : SymbolId) (states : List StateId) : Prop :=
  ¬ ∃ chain : Nat → List StateId, chain 0 = states ∧
    ∀ place, language.ReducesTo symbol (chain place) (chain (place + 1))

variable {language : Language} {grammar : FlatGrammar} {symbol : SymbolId}
  {states : List StateId}

theorem reductionsEnd_iff_acc :
    language.ReductionsEnd symbol states ↔
      Acc (fun after before => language.ReducesTo symbol before after) states := by
  have chains := @not_acc_iff_exists_descending_chain _
    (fun after before => language.ReducesTo symbol before after) states
  exact (not_congr chains.symm).trans not_not

theorem reductionsEnd_of_settles (represents : language.tables.Represents grammar)
    {path : List (Nat × Nat)} (isPath : grammar.automaton.Path path)
    (spelled : states.map UInt32.toNat = path.map Prod.snd ++ [0])
    (settles : grammar.Settles path) : language.ReductionsEnd symbol states := by
  rw [reductionsEnd_iff_acc]
  induction settles generalizing states with
  | intro path _ ih =>
      refine .intro _ ?_
      rintro after ⟨top, below, id, info, under, rest, next, rfl, action, known, dropped, leads,
        rfl⟩
      obtain ⟨production, member, taken, remaining, rfl, symbols, kept, reduced⟩ :=
        Configuration.path_of_reduction represents isPath spelled action known dropped leads
      exact ih _ ⟨production, member, taken, remaining, _, rfl, symbols, rfl, reduced⟩ reduced kept

end Language

namespace ParseState

variable {language : Language} {grammar : FlatGrammar} {input : ParseInput} {state : ParseState}

theorem structuralStates_eq (state : ParseState) :
    state.structuralStates = (structural state.stack).map StackEntry.state ++ [0] :=
  rfl

theorem head?_structuralStates (state : ParseState) :
    state.structuralStates.head? = some (structuralTop state.stack) := by
  rw [structuralStates_eq, structuralTop]
  cases structural state.stack <;> rfl

theorem structural_pushAll (next : StateId) {subtrees : List Subtree}
    (extras : ∀ subtree ∈ subtrees, subtree.isExtra = true) :
    structural (state.pushAll next subtrees).stack = structural state.stack := by
  induction subtrees generalizing state with
  | nil => rfl
  | cons subtree subtrees ih =>
      refine (@ih (state.push next subtree) fun other member =>
        extras other (List.mem_cons_of_mem _ member)).trans ?_
      have extra := extras subtree List.mem_cons_self
      simp [push, structural, StackEntry.isExtra, StackEntry.ofSubtree, extra]

theorem structuralStates_spelled (state : ParseState) :
    state.structuralStates.map UInt32.toNat =
      (structuralPath state.stack).map Prod.snd ++ [0] := by
  simp [structuralStates_eq, structuralPath, Function.comp_def]

/-- A step that completes a production is a reduction of the states. -/
theorem Sound.reducesTo (sound : state.Sound input.language grammar)
    (represents : input.language.tables.Represents grammar) {symbol : SymbolId}
    {id : ProductionId} {production : ProductionInfo}
    (action : input.language.action state.topState symbol = .reduce id)
    (found : input.language.production? id = some production) (token : Lexeme) :
    input.language.ReducesTo symbol state.structuralStates
      (state.reduce input id production token).structuralStates := by
  have top := sound.topState_eq
  rw [top] at action
  obtain ⟨info, trailing, taken, below, next, known, shape, taking, extras, popping, symbols,
    leads⟩ := reduction_spec represents sound.stack action
  obtain rfl := Option.some.inj (known.symm.trans found)
  have all := sound.stack.onPath
  rw [shape, List.append_assoc] at all
  have under := all.suffix.suffix.top_eq
  have kept : structural state.stack = structural taken ++ structural below := by
    simp [shape, structural_of_extras extras]
  have count : (structural taken).length = info.rhs.length := by
    rw [← symbols, structuralSymbols_entries]
    simp [structural]
  -- both stacks of states have a top, at least the first state of the automaton
  obtain ⟨rest, spelled⟩ : ∃ rest, (structural below).map StackEntry.state ++ [0] =
      structuralTop below :: rest :=
    List.head?_eq_some_iff.mp (head?_structuralStates { state with stack := below })
  obtain ⟨others, whole⟩ := List.head?_eq_some_iff.mp (head?_structuralStates state)
  refine ⟨structuralTop state.stack, others, id, info, structuralTop below, rest, next, whole,
    action, found, ?_, leads, ?_⟩
  · rw [structuralStates_eq, kept, List.map_append, List.append_assoc, ← count,
      ← List.length_map (f := StackEntry.state), List.drop_left, spelled]
  · unfold ParseState.reduce
    simp only [taking, popping, topState, under, leads, Option.getD_some]
    rw [structuralStates_eq, structural_pushAll, ← spelled]
    · rfl
    · intro subtree member
      obtain ⟨entry, listed, rfl⟩ := List.mem_map.mp member
      exact extras entry (List.mem_reverse.mp listed)

/-- A step of a parse that completes a production for the token at hand. -/
def StepsByReduction (input : ParseInput) (before after : ParseState) : Prop :=
  before.step input = .ok (.next after) ∧
    ∃ token middle id production, before.current input = .ok (token, middle) ∧
      input.language.action before.topState (before.symbolOf input token) = .reduce id ∧
      input.language.production? id = some production

/-- After a reduction the same token is at hand, and stands for the same symbol. -/
theorem StepsByReduction.cases {before after : ParseState}
    (stepped : StepsByReduction input before after) {token : Lexeme} {middle : ParseState}
    (taken : before.current input = .ok (token, middle)) :
    ∃ id production known, input.language.action before.topState
        (before.symbolOf input token) = .reduce id ∧
      input.language.production? id = some production ∧
      after.structuralStates = (middle.reduce input id production known).structuralStates ∧
      ∃ next rest, after.current input = .ok (next, rest) ∧
        after.symbolOf input next = before.symbolOf input token := by
  obtain ⟨step, other, rest, id, production, same, action, found⟩ := stepped
  obtain ⟨rfl, rfl⟩ := Prod.mk.inj (Except.ok.inj (taken.symm.trans same))
  rw [step_eq, taken] at step
  simp only [bind, Except.bind, act, action, found] at step
  obtain rfl := ParseStep.next.inj (Except.ok.inj step)
  exact ⟨id, production, _, action, found, rfl, _, _, rfl, rfl⟩

theorem Reaches.reductionsEnd (reaches : Reaches input state)
    (represents : input.language.tables.Represents grammar) (fresh : input.reuse = [])
    (visible : grammar.RecursionVisible) (symbol : SymbolId) :
    input.language.ReductionsEnd symbol state.structuralStates := by
  have isPath := (reaches.sound represents rfl fresh).stack.onPath.path
  exact Language.reductionsEnd_of_settles represents isPath (structuralStates_spelled state)
    (FlatGrammar.settles_of_path represents.numbered visible isPath)

/-- Where the reductions on the token at hand end, a parse completes only finitely many
productions before it does something else. -/
theorem Reaches.no_endless_reductions (reaches : Reaches input state)
    (represents : input.language.tables.Represents grammar) (fresh : input.reuse = [])
    (ends : ∀ symbol, input.language.ReductionsEnd symbol state.structuralStates) :
    ¬ ∃ chain : Nat → ParseState, chain 0 = state ∧
      ∀ place, StepsByReduction input (chain place) (chain (place + 1)) := by
  rintro ⟨chain, rfl, steps⟩
  obtain ⟨_, token, middle, _, _, taken, _⟩ := steps 0
  -- the token read at the start stays at hand all along the chain
  have along : ∀ place, Reaches input (chain place) ∧
      ∃ next rest, (chain place).current input = .ok (next, rest) ∧
        (chain place).symbolOf input next = (chain 0).symbolOf input token := by
    intro place
    induction place with
    | zero => exact ⟨reaches, token, middle, taken, rfl⟩
    | succ place ih =>
        obtain ⟨reached, next, rest, here, same⟩ := ih
        obtain ⟨_, _, _, _, _, _, later⟩ := (steps place).cases here
        rw [same] at later
        exact ⟨reached.step (steps place).1, later⟩
  refine ends ((chain 0).symbolOf input token)
    ⟨fun place => (chain place).structuralStates, rfl, ?_⟩
  intro place
  obtain ⟨reached, next, rest, here, same⟩ := along place
  obtain ⟨id, production, known, action, found, states, _⟩ := (steps place).cases here
  obtain ⟨_, sound, stack⟩ := (reached.sound represents rfl fresh).current here
  have top : rest.topState = (chain place).topState := by simp only [topState, stack]
  rw [same, ← top] at action
  have reduces := sound.reducesTo represents action found known
  rw [← states, structuralStates_eq, stack, ← structuralStates_eq] at reduces
  exact reduces

end ParseState

/-! ## Endless reductions -/

/-- With two states on top of which the upper one completes a production of one symbol that
leads from the lower one back to it, a reduction changes nothing. -/
def Language.Circles (language : Language) (symbol : SymbolId) (top under : StateId) : Prop :=
  ∃ id production, language.action top symbol = .reduce id ∧
    language.production? id = some production ∧ production.rhs.length = 1 ∧
    language.goto? under production.lhs = some top

theorem Language.Circles.reducesTo_iff {language : Language} {symbol : SymbolId}
    {top under : StateId} (circles : language.Circles symbol top under)
    {rest after : List StateId} :
    language.ReducesTo symbol (top :: under :: rest) after ↔ after = top :: under :: rest := by
  obtain ⟨id, production, action, found, single, leads⟩ := circles
  constructor
  · rintro ⟨_, _, other, info, lower, remaining, next, same, act, known, dropped, goes, rfl⟩
    obtain ⟨rfl, rfl⟩ := List.cons.inj same
    obtain rfl := Action.reduce.inj (action.symm.trans act)
    obtain rfl := Option.some.inj (found.symm.trans known)
    rw [single, List.drop_one, List.tail_cons] at dropped
    obtain ⟨rfl, rfl⟩ := List.cons.inj dropped
    rw [Option.some.inj (leads.symm.trans goes)]
  · rintro rfl
    exact ⟨top, under :: rest, id, production, under, rest, top, rfl, action, found,
      by rw [single]; rfl, leads, rfl⟩

theorem Language.Circles.not_reductionsEnd {language : Language} {symbol : SymbolId}
    {top under : StateId} (circles : language.Circles symbol top under) (rest : List StateId) :
    ¬ language.ReductionsEnd symbol (top :: under :: rest) :=
  fun ends => ends ⟨fun _ => top :: under :: rest, rfl, fun _ => circles.reducesTo_iff.mpr rfl⟩

/-- A parse that comes into such a circle never leaves it, whatever the limit of steps. -/
theorem ParseState.Sound.runSteps_of_circles {grammar : FlatGrammar} {input : ParseInput}
    {state : ParseState} (sound : state.Sound input.language grammar)
    (represents : input.language.tables.Represents grammar) (fresh : input.reuse = [])
    {symbol : SymbolId} {top under : StateId} {rest : List StateId}
    (circles : input.language.Circles symbol top under)
    (states : state.structuralStates = top :: under :: rest) {token : Lexeme}
    (waits : state.lookahead = some token) (stands : token.symbol = some symbol) (limit : Nat) :
    runSteps input limit state = .error .stepLimit := by
  induction limit generalizing state token with
  | zero => rfl
  | succ limit ih =>
      obtain ⟨id, production, action, found, _, _⟩ := id circles
      have here : state.topState = top := by
        have head := state.head?_structuralStates
        rw [states] at head
        rw [sound.topState_eq, Option.some.inj head]
      have taken : state.current input = .ok (token, { state with lookahead := none }) := by
        simp [ParseState.current, waits, pure, Except.pure]
      have known : state.symbolOf input token = symbol := by
        simp [ParseState.symbolOf, stands]
      have stepped : state.step input = .ok (.next
          { ({ state with lookahead := none } : ParseState).reduce input id production
              { token with symbol := some symbol } with
            lookahead := some { token with symbol := some symbol } }) := by
        rw [step_eq, taken]
        simp only [bind, Except.bind, known, ParseState.act, here, action, found]
        rfl
      obtain ⟨_, middle, _⟩ := sound.current taken
      have same : ({ state with lookahead := none } : ParseState).structuralStates =
          top :: under :: rest := states
      have reduced := middle.reducesTo represents (here ▸ action) found
        { token with symbol := some symbol }
      rw [same, circles.reducesTo_iff] at reduced
      rw [runSteps, stepped]
      exact ih (sound.step represents rfl fresh stepped) reduced rfl rfl

/-! ## Grammars with visible recursion -/

namespace FlatGrammar

variable {grammar : FlatGrammar}

theorem eq_nil_of_yields (filled : ∀ production ∈ grammar.productions, production.rhs ≠ [])
    {symbols word : List Nat} (yields : grammar.Yields symbols word) (empty : word = []) :
    symbols = [] := by
  induction yields with
  | nil => rfl
  | terminal => cases empty
  | production member _ _ inner _ =>
      exact absurd (inner (List.append_eq_nil_iff.mp empty).1) (filled _ member)

/-- Where no production is empty, recursion is visible unless some symbol derives itself by
productions of one symbol. -/
theorem RecursionVisible.of_filled
    (filled : ∀ production ∈ grammar.productions, production.rhs ≠ [])
    (noCycle : ∀ symbol, ¬ TransGen grammar.Covers symbol symbol) :
    grammar.RecursionVisible where
  noCycle := noCycle
  notHidden := by
    rintro symbol ⟨before, middle, some_before, ⟨nullable, _⟩, _⟩
    exact some_before (eq_nil_of_yields filled nullable rfl)

end FlatGrammar

set_option maxRecDepth 10000 in
theorem recursionVisible_of_pair {grammar : FlatGrammar}
    (flattened : FlatGrammar.ofGrammar pairGrammar = .ok grammar) : grammar.RecursionVisible := by
  have shown : ((FlatGrammar.ofGrammar pairGrammar).toOption.map fun grammar =>
      grammar.productions.toList.map Production.rhs) = some [[1, 2]] := by cbv
  have listed : grammar.productions.toList.map Production.rhs = [[1, 2]] := by
    simpa only [flattened, Except.toOption, Option.map_some, Option.some.injEq] using shown
  have only : ∀ production ∈ grammar.productions, production.rhs = [1, 2] := by
    intro production member
    have inside := List.mem_map_of_mem (f := Production.rhs) (Array.mem_toList_iff.mpr member)
    rw [listed] at inside
    exact List.mem_singleton.mp inside
  have filled : ∀ production ∈ grammar.productions, production.rhs ≠ [] := by
    intro production member
    simp [only production member]
  refine .of_filled filled fun symbol cycle => ?_
  obtain ⟨upper, _, production, member, rest, _, shape, nullable⟩ :=
    TransGen.tail'_iff.mp cycle
  rw [FlatGrammar.eq_nil_of_yields filled nullable rfl, only production member] at shape
  cases shape

open ParseState

/-- In a language whose grammar has visible recursion, no stack of a parse has an endless
chain of reductions on one terminal, so for one token a parse completes only finitely many
productions before it does something else. -/
theorem reductions_end_of_fresh_parse {source : Grammar} {scanner : Scanner}
    {grammar : FlatGrammar} {language : Language}
    (flattened : FlatGrammar.ofGrammar source = .ok grammar)
    (loaded : Language.ofGrammar source scanner = .ok language)
    (numbered : language.tables.Numbered) (visible : grammar.RecursionVisible)
    (config : ParseConfig) (text : String) {state : ParseState}
    (reaches : Reaches ⟨language, text.toList, config, []⟩ state) :
    (∀ symbol, language.ReductionsEnd symbol state.structuralStates) ∧
      ¬ ∃ chain : Nat → ParseState, chain 0 = state ∧ ∀ place,
        StepsByReduction ⟨language, text.toList, config, []⟩ (chain place) (chain (place + 1)) := by
  have represents := Language.represents_of_ofGrammar loaded flattened numbered
  have ends := fun symbol => reaches.reductionsEnd represents rfl visible symbol
  exact ⟨ends, reaches.no_endless_reductions represents rfl ends⟩

set_option maxRecDepth 10000 in
theorem reductions_end_of_pair :
    ∃ grammar language, FlatGrammar.ofGrammar pairGrammar = .ok grammar ∧
      Language.ofGrammar pairGrammar .noExternals = .ok language ∧ language.tables.Numbered ∧
      grammar.RecursionVisible ∧
      ∀ state, Reaches ⟨language, "a b".toList, {}, []⟩ state →
        (∀ symbol, language.ReductionsEnd symbol state.structuralStates) ∧
          ¬ ∃ chain : Nat → ParseState, chain 0 = state ∧ ∀ place,
            StepsByReduction ⟨language, "a b".toList, {}, []⟩ (chain place)
              (chain (place + 1)) := by
  obtain ⟨grammar, language, flattened, loaded, numbered⟩ := pairGrammar_loads
  have visible := recursionVisible_of_pair flattened
  exact ⟨grammar, language, flattened, loaded, numbered, visible, fun state reaches =>
    reductions_end_of_fresh_parse flattened loaded numbered visible {} "a b" reaches⟩

end Lalr
