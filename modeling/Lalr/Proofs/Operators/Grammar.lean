import Mathlib.Data.List.Perm.Basic
import Lalr.Proofs.FlatGrammar.Numbering
import Lalr.Proofs.FlatGrammar.Token
import Lalr.Proofs.Operators.States

set_option autoImplicit false

/-!
Grammars whose only syntactic rule is a choice of binary operators and an atom. They are
flattened to one production for each operator and one for the atom.
-/

namespace Lalr

theorem eraseDups_of_nodup {α : Type} [BEq α] [LawfulBEq α] {items : List α}
    (distinct : items.Nodup) : items.eraseDups = items := by
  induction items with
  | nil => simp
  | cons item items ih =>
      obtain ⟨absent, rest⟩ := List.nodup_cons.mp distinct
      have kept : items.filter (fun other => !other == item) = items := by
        refine List.filter_eq_self.mpr fun other member => ?_
        have apart : other ≠ item := fun same => absent (same ▸ member)
        simpa using apart
      rw [List.eraseDups_cons, kept, ih rest]

theorem Rule.mem_referencedSymbolsOf {items : List Rule} {name : String} :
    name ∈ referencedSymbolsOf items ↔ ∃ item ∈ items, name ∈ item.referencedSymbols := by
  induction items with
  | nil => simp [referencedSymbolsOf]
  | cons item items ih => simp [referencedSymbolsOf, ih]

/-- An operator between two operands. -/
def operatorRule (start : String) (operator : BinaryOperator Rule) : Rule :=
  .prec operator.level (some operator.associativity)
    (.seq [.symbol start, operator.token, .symbol start])

/-- The start rule is a choice of binary operators and an atom; their tokens are different
terminals. All other rules are tokens, and what else the grammar says is in order. -/
structure Grammar.IsOperatorGrammar (source : Grammar) (start : String) (atom : Rule)
    (operators : List (BinaryOperator Rule)) : Prop where
  rules : ∃ alternatives others, source.rules = (start, .choice alternatives) :: others ∧
    alternatives.Perm (atom :: operators.map (operatorRule start)) ∧
    ∀ entry ∈ others, entry.2.isLexical = true
  tokens : ∀ token ∈ atom :: operators.map BinaryOperator.token,
    (source.tokenKey? token).isSome = true
  distinct : ((atom :: operators.map BinaryOperator.token).map source.tokenKey?).Nodup
  lexical : source.HasTokens
  word : ∀ name ∈ source.word, source.isLexicalRule name = true
  extras : ∀ extra ∈ source.extras, source.isExtra extra = true
  keywords : source.checkKeywords = .ok ()
  conflicts : source.checkConflictEntries = .ok ()
  reachable : source.unreachableRules = []

namespace FlatDraft

/-- The production of an operator, before its symbols are numbered. -/
def operatorAlternative (operator : BinaryOperator Nat) : Alternative where
  steps := [.rule 0, .terminal operator.token, .rule 0].map fun symbol =>
    { symbol := symbol, precedence := some operator.level
      associativity := some operator.associativity }
  dynamicPrecedence := 0

/-- What the alternatives of an operator rule are flattened to. -/
inductive DraftsTo (source : Grammar) (start : String) (draft : FlatDraft) :
    Rule → Alternative → Prop where
  | atom {item : Rule} {key : TerminalKey} {index : Nat} : source.tokenKey? item = some key →
      draft.keys[index]? = some key → DraftsTo source start draft item (.single (.terminal index))
  | operator {operator : BinaryOperator Rule} {key : TerminalKey} {index : Nat} :
      source.tokenKey? operator.token = some key → draft.keys[index]? = some key →
        DraftsTo source start draft (operatorRule start operator)
          (operatorAlternative (operator.map fun _ => index))

theorem DraftsTo.mono {source : Grammar} {start : String} {before after : FlatDraft} {item : Rule}
    {alternative : Alternative} (keys : before.keys <+: after.keys)
    (drafts : before.DraftsTo source start item alternative) :
    after.DraftsTo source start item alternative := by
  cases drafts with
  | atom token placed => exact .atom token (getElem?_of_longer keys placed)
  | operator token placed => exact .operator token (getElem?_of_longer keys placed)

theorem DraftsTo.of_operatorRule {source : Grammar} {start : String} {draft : FlatDraft}
    {operator : BinaryOperator Rule} {alternative : Alternative}
    (drafts : draft.DraftsTo source start (operatorRule start operator) alternative) :
    ∃ key index, source.tokenKey? operator.token = some key ∧ draft.keys[index]? = some key ∧
      alternative = operatorAlternative (operator.map fun _ => index) := by
  generalize shape : operatorRule start operator = item at drafts
  cases drafts with
  | atom token =>
      subst shape
      cases token
  | @operator other key index token placed =>
      obtain ⟨name, level, side⟩ := operator
      obtain ⟨otherName, otherLevel, otherSide⟩ := other
      simp only [operatorRule, Rule.prec.injEq, Option.some.injEq, Rule.seq.injEq, List.cons.injEq,
        true_and, and_true] at shape
      obtain ⟨rfl, rfl, rfl⟩ := shape
      exact ⟨key, index, token, placed, rfl⟩

theorem DraftsTo.of_tokenKey? {source : Grammar} {start : String} {draft : FlatDraft}
    {item : Rule} {alternative : Alternative} (isToken : (source.tokenKey? item).isSome = true)
    (drafts : draft.DraftsTo source start item alternative) :
    ∃ key index, source.tokenKey? item = some key ∧ draft.keys[index]? = some key ∧
      alternative = .single (.terminal index) := by
  cases drafts with
  | atom token placed => exact ⟨_, _, token, placed, rfl⟩
  | operator => cases isToken

end FlatDraft

namespace FlattenM

open FlatDraft

variable {source : Grammar} {start : String} {draft : FlatDraft}

theorem Enters.and {α : Type} {action : FlattenM α} {holds also : α → FlatDraft → Prop}
    (entered : Enters action draft holds)
    (more : ∀ result final, action.run draft = .ok (result, final) → also result final) :
    Enters action draft fun result final => holds result final ∧ also result final := by
  obtain ⟨result, final, ran, grown, here⟩ := entered
  exact ⟨result, final, ran, grown, here, more result final ran⟩

theorem enters_start (only : source.syntacticRules = [start]) (draft : FlatDraft) :
    Enters (flatten source start (.symbol start)) draft fun found final =>
      found = [.single (.rule 0)] ∧ final = draft := by
  rw [flatten, resolve, only]
  have first : [start].idxOf? start = some 0 := by simp [List.idxOf?_cons]
  rw [first]
  exact ⟨_, draft, rfl, .refl draft, rfl, rfl⟩

theorem stronger_self (value : Int32) : stronger value value = value :=
  ite_self _

theorem enters_operator (only : source.syntacticRules = [start]) (lexical : source.HasTokens)
    {operator : BinaryOperator Rule} {key : TerminalKey}
    (token : source.tokenKey? operator.token = some key) (sound : draft.Sound source)
    (declared : ∀ name ∈ source.externals, .external name ∈ draft.keys) :
    Enters (flatten source start (operatorRule start operator)) draft fun found final =>
      ∃ alternative, found = [alternative] ∧
        final.DraftsTo source start (operatorRule start operator) alternative := by
  have sequence : Enters (flatten source start
      (.seq [.symbol start, operator.token, .symbol start])) draft fun found final =>
        ∃ index, found = [⟨[{ symbol := .rule 0 }, { symbol := .terminal index },
          { symbol := .rule 0 }], 0⟩] ∧ final.keys[index]? = some key := by
    rw [flatten, flattenSeq]
    refine (enters_start only draft).bind fun found middle _ same => ?_
    obtain ⟨rfl, rfl⟩ := same
    rw [flattenSeq]
    refine (enters_token lexical start token sound declared).bind fun found final _ placed => ?_
    obtain ⟨index, rfl, placed⟩ := placed
    rw [flattenSeq]
    refine (enters_start only final).bind fun found last _ same => ?_
    obtain ⟨rfl, rfl⟩ := same
    rw [flattenSeq]
    refine .pure ⟨index, ?_, placed⟩
    simp [appendAll, Alternative.append, Alternative.empty, Alternative.single, stronger_self]
  rw [operatorRule, flatten]
  refine sequence.bind fun found final _ same => ?_
  obtain ⟨index, rfl, placed⟩ := same
  rw [if_neg (by simp)]
  exact .pure ⟨_, rfl, .operator token placed⟩

/-- The alternatives of an operator rule are flattened one by one. -/
theorem enters_choice (only : source.syntacticRules = [start]) (lexical : source.HasTokens)
    {items : List Rule}
    (each : ∀ item ∈ items, (source.tokenKey? item).isSome = true ∨ ∃ operator,
      item = operatorRule start operator ∧ (source.tokenKey? operator.token).isSome = true)
    (sound : draft.Sound source)
    (declared : ∀ name ∈ source.externals, .external name ∈ draft.keys) :
    Enters (flattenChoice source start items) draft fun found final =>
      List.Forall₂ (final.DraftsTo source start) items found := by
  induction items generalizing draft with
  | nil =>
      rw [flattenChoice]
      exact .pure .nil
  | cons item items ih =>
      have here : Enters (flatten source start item) draft fun found final =>
          ∃ alternative, found = [alternative] ∧ final.DraftsTo source start item alternative := by
        rcases each item List.mem_cons_self with token | ⟨operator, rfl, token⟩
        · obtain ⟨key, keyed⟩ := Option.isSome_iff_exists.mp token
          obtain ⟨found, final, ran, grown, index, rfl, placed⟩ :=
            enters_token lexical start keyed sound declared
          exact ⟨_, final, ran, grown, _, rfl, .atom keyed placed⟩
        · obtain ⟨key, keyed⟩ := Option.isSome_iff_exists.mp token
          exact enters_operator only lexical keyed sound declared
      rw [flattenChoice]
      refine (here.and fun _ _ ran => (flatten_ok start item sound ran).1).bind
        fun found middle grown result => ?_
      obtain ⟨⟨alternative, rfl, drafts⟩, kept⟩ := result
      have later := ih (fun other member => each other (List.mem_cons_of_mem _ member)) kept
        fun name member => grown.keys.subset (declared name member)
      refine later.bind fun others final more rest => .pure ?_
      exact .cons (drafts.mono more.keys) rest

theorem enterRules_lexical {rules : List (String × Rule)} (index : Nat)
    (lexical : ∀ entry ∈ rules, entry.2.isLexical = true) :
    enterRules source rules index = pure () := by
  induction rules with
  | nil => rw [enterRules]
  | cons entry rules ih =>
      rw [enterRules, if_pos (lexical entry List.mem_cons_self)]
      exact ih fun other member => lexical other (List.mem_cons_of_mem _ member)

end FlattenM

namespace Grammar.IsOperatorGrammar

open FlattenM FlatDraft

variable {source : Grammar} {start : String} {atom : Rule} {operators : List (BinaryOperator Rule)}

theorem syntacticRules_eq (shape : source.IsOperatorGrammar start atom operators) :
    source.syntacticRules = [start] := by
  obtain ⟨alternatives, others, rules, _, lexical⟩ := shape.rules
  have none_other : others.filter (fun entry => !entry.2.isLexical) = [] :=
    List.filter_eq_nil_iff.mpr fun entry member => by simp [lexical entry member]
  rw [syntacticRules, rules, List.filter_cons_of_pos (by simp [Rule.isLexical]), none_other]
  rfl

/-- Flattening gives one production for each alternative. -/
theorem exists_draft (shape : source.IsOperatorGrammar start atom operators) :
    ∃ draft found, FlatDraft.ofGrammar source = .ok draft ∧ draft.repetitions = [] ∧
      draft.productions = found.eraseDups.map (fun alternative => ⟨.rule 0, alternative⟩) ∧
      ∃ ordered, List.Forall₂ (draft.DraftsTo source start)
        (atom :: operators.map (operatorRule start)) ordered ∧ ordered.Perm found := by
  have only := shape.syntacticRules_eq
  obtain ⟨alternatives, others, rules, permuted, lexical⟩ := shape.rules
  obtain ⟨_, fixed, entered, grown, _⟩ :=
    enters_fixedTerminals shape.lexical shape.word shape.extras
  have sound := enterFixedTerminals_ok entered
  have declared := (enterFixedTerminals_recognised entered).externals
  have each : ∀ item ∈ alternatives, (source.tokenKey? item).isSome = true ∨ ∃ operator,
      item = operatorRule start operator ∧ (source.tokenKey? operator.token).isSome = true := by
    intro item member
    rcases List.mem_cons.mp (permuted.mem_iff.mp member) with rfl | inside
    · exact .inl (shape.tokens item List.mem_cons_self)
    · obtain ⟨operator, listed, rfl⟩ := List.mem_map.mp inside
      exact .inr ⟨operator, rfl,
        shape.tokens _ (List.mem_cons_of_mem _ (List.mem_map_of_mem listed))⟩
  obtain ⟨found, middle, ran, more, drafts⟩ := enters_choice only shape.lexical each sound declared
  let final : FlatDraft :=
    { middle with
      productions := middle.productions ++
        found.eraseDups.map fun alternative => (⟨.rule 0, alternative⟩ : DraftProduction) }
  have entersRules : (enterRules source source.rules 0).run fixed = .ok ((), final) := by
    rw [rules, enterRules, if_neg (by simp [Rule.isLexical]), flatten, StateT.run_bind, ran]
    simp only [enterRules_lexical (0 + 1) lexical]
    rfl
  refine ⟨final, found, ?_, more.repetitions.trans grown.repetitions, ?_, ?_⟩
  · have whole : (do
        enterFixedTerminals source
        enterRules source source.rules 0 : FlattenM Unit).run {} = .ok ((), final) := by
      rw [StateT.run_bind, entered]
      exact entersRules
    simp only [FlatDraft.ofGrammar, whole]
    rfl
  · change middle.productions ++ _ = _
    rw [more.productions, grown.productions]
    rfl
  · have entered : List.Forall₂ (final.DraftsTo source start) alternatives found :=
      drafts.imp fun _ _ item =>
        DraftsTo.mono (show middle.keys <+: final.keys from List.prefix_refl _) item
    exact List.perm_comp_forall₂ permuted.symm entered

theorem check_eq_ok (shape : source.IsOperatorGrammar start atom operators) :
    source.check = .ok () := by
  obtain ⟨alternatives, others, rules, permuted, lexical⟩ := shape.rules
  have known : (source.rule? start).isSome = true := by
    simp [rule?, rules]
  have tokenDefined : ∀ token ∈ atom :: operators.map BinaryOperator.token,
      ∀ name ∈ token.referencedSymbols,
        (source.rule? name).isSome = true ∨ name ∈ source.externals := by
    intro token member
    obtain ⟨key, keyed⟩ := Option.isSome_iff_exists.mp (shape.tokens token member)
    exact defined_of_tokenKey? keyed
  have defined : ∀ entry ∈ source.rules, ∀ name ∈ entry.2.referencedSymbols,
      (source.rule? name).isSome = true ∨ name ∈ source.externals := by
    intro entry member
    rw [rules] at member
    rcases List.mem_cons.mp member with rfl | other
    · intro name listed
      obtain ⟨item, inside, refers⟩ := Rule.mem_referencedSymbolsOf.mp listed
      rcases List.mem_cons.mp (permuted.mem_iff.mp inside) with rfl | operator
      · exact tokenDefined item List.mem_cons_self name refers
      · obtain ⟨operator, among, rfl⟩ := List.mem_map.mp operator
        simp only [operatorRule, Rule.referencedSymbols, Rule.mem_referencedSymbolsOf,
          List.mem_cons, List.not_mem_nil, or_false, exists_eq_or_imp, exists_eq_left] at refers
        rcases refers with rfl | refers | rfl
        · exact .inl known
        · exact tokenDefined _ (List.mem_cons_of_mem _ (List.mem_map_of_mem among)) name refers
        · exact .inl known
    · have named : source.rule? entry.1 = some entry.2 :=
        (lookup_eq_some_iff_mem source.names_nodup).mpr (rules ▸ member)
      obtain ⟨form, formed⟩ := shape.lexical entry.1 entry.2 named (lexical entry other)
      rw [Rule.referencedSymbols_of_terminalForm (lexical entry other) formed]
      simp
  have symbols : source.checkSymbols = .ok () := by
    refine forM_ok_of_forall fun entry member => forM_ok_of_forall fun name listed => ?_
    exact if_pos (by simpa using defined entry member name listed)
  have word : source.checkWord = .ok () := by
    unfold checkWord
    split
    · rfl
    · rename_i name named
      exact if_pos (shape.word name named)
  rw [check, symbols, word, shape.keywords, shape.conflicts]
  rfl

/-- The flat grammar exists, and it is made from the draft. -/
theorem exists_flat (shape : source.IsOperatorGrammar start atom operators) {draft : FlatDraft}
    (drafted : FlatDraft.ofGrammar source = .ok draft) :
    ∃ flat, FlatGrammar.ofGrammar source = .ok flat ∧ draft.number source = .ok flat := by
  obtain ⟨alternatives, others, rules, _, _⟩ := shape.rules
  have first : source.startRule? = some start := by simp [startRule?, rules]
  have placed : source.syntacticRules.idxOf? (source.startRule?.getD "") = some 0 := by
    simp [shape.syntacticRules_eq, first, List.idxOf?_cons]
  obtain ⟨flat, numbered⟩ : ∃ flat, draft.number source = .ok flat := by
    unfold FlatDraft.number
    simp only [placed]
    exact ⟨_, rfl⟩
  refine ⟨flat, ?_, numbered⟩
  simp only [FlatGrammar.ofGrammar, shape.check_eq_ok, shape.reachable, drafted]
  change Except.mapError GenerateError.grammar (draft.number source) = .ok flat
  rw [numbered]
  rfl

end Grammar.IsOperatorGrammar

/-! ## Numbered productions -/

namespace FlatDraft

variable {source : Grammar} {draft : FlatDraft}

/-- A step without field and alias, with the number of its symbol. -/
def numberStep (draft : FlatDraft) (source : Grammar) (step : DraftStep) : Step :=
  ⟨draft.symbolId source step.symbol, step.precedence.getD 0, step.associativity, none, none⟩

/-- Numbering orders the productions and replaces symbols by their numbers. -/
theorem perm_of_number {flat : FlatGrammar} (success : draft.number source = .ok flat)
    (plain : ∀ production ∈ draft.productions, ∀ step ∈ production.alternative.steps,
      step.field = none ∧ step.shownAs = none) :
    flat.productions.toList.Perm (draft.productions.map fun production =>
      ⟨draft.symbolId source production.lhs,
        production.alternative.steps.map (draft.numberStep source),
        production.alternative.dynamicPrecedence⟩) := by
  unfold number at success
  dsimp only at success
  split at success
  case h_1 => cases success
  case h_2 =>
      obtain rfl := Except.ok.inj success
      refine (List.mergeSort_perm _ _).trans (.of_eq (List.map_congr_left fun production member => ?_))
      rw [Production.mk.injEq]
      refine ⟨rfl, List.map_congr_left fun step listed => ?_, rfl⟩
      obtain ⟨field, shownAs⟩ := plain production member step listed
      simp [numberStep, field, shownAs]

end FlatDraft

theorem eq_map_of_forall₂ {α β : Type} {image : α → β} {related : α → β → Prop} {items : List α}
    {values : List β} (each : List.Forall₂ related items values)
    (determined : ∀ item ∈ items, ∀ value, related item value → value = image item) :
    values = items.map image := by
  induction each with
  | nil => rfl
  | cons here _ ih =>
      rw [List.map_cons, determined _ List.mem_cons_self _ here,
        ih fun item member => determined item (List.mem_cons_of_mem _ member)]

namespace Grammar

/-- The number of a token. -/
def tokenNumber (source : Grammar) (token : Rule) : Nat :=
  ((source.tokenKey? token).bind source.terminalNumber?).getD 0

namespace IsOperatorGrammar

open FlatDraft

variable {source : Grammar} {start : String} {atom : Rule} {operators : List (BinaryOperator Rule)}

/-- Such a grammar is flattened to one of numbered binary operators. -/
theorem exists_flat_operators (shape : source.IsOperatorGrammar start atom operators) :
    ∃ flat, FlatGrammar.ofGrammar source = .ok flat ∧
      (∀ token ∈ atom :: operators.map BinaryOperator.token, ∃ key,
        source.tokenKey? token = some key ∧
          source.terminalNumber? key = some (source.tokenNumber token)) ∧
      flat.IsOperatorGrammar (source.tokenNumber atom)
        (operators.map fun operator => operator.map source.tokenNumber) := by
  obtain ⟨draft, found, drafted, _, productions, ordered, drafts, permuted⟩ := shape.exists_draft
  obtain ⟨flat, flattened, numbered⟩ := shape.exists_flat drafted
  have sound := sound_of_ofGrammar drafted
  -- the place of a token among the terminals of the draft
  let place (token : Rule) : Nat :=
    ((source.tokenKey? token).bind (terminalIndex? draft.terminals)).getD 0
  have place_eq : ∀ {token key index}, source.tokenKey? token = some key →
      draft.keys[index]? = some key → index = place token := by
    intro token key index keyed placed
    simp [place, keyed, (terminalIndex?_eq_some_iff sound).mpr placed]
  cases drafts with
  | @cons _ alternative _ others head tail =>
  obtain ⟨atomKey, index, atomKeyed, atomPlaced, rfl⟩ :=
    head.of_tokenKey? (shape.tokens atom List.mem_cons_self)
  obtain rfl := place_eq atomKeyed atomPlaced
  have operatorPlaced := List.forall₂_map_left_iff.mp tail
  obtain rfl : others = operators.map fun operator => operatorAlternative (operator.map place) := by
    refine eq_map_of_forall₂ operatorPlaced fun operator _ value drafts => ?_
    obtain ⟨key, index, keyed, placed, rfl⟩ := drafts.of_operatorRule
    rw [place_eq keyed placed]
    rfl
  have placed : ∀ token ∈ atom :: operators.map BinaryOperator.token, ∃ key,
      source.tokenKey? token = some key ∧ draft.keys[place token]? = some key := by
    intro token member
    rcases List.mem_cons.mp member with rfl | among
    · exact ⟨atomKey, atomKeyed, atomPlaced⟩
    · obtain ⟨operator, listed, rfl⟩ := List.mem_map.mp among
      obtain ⟨_, _, drafts⟩ := exists_of_mem_forall₂ operatorPlaced.flip listed
      obtain ⟨key, index, keyed, placed, _⟩ := drafts.of_operatorRule
      exact ⟨key, keyed, place_eq keyed placed ▸ placed⟩
  have numbers : ∀ token ∈ atom :: operators.map BinaryOperator.token,
      place token < draft.terminals.length ∧
        source.tokenNumber token = draft.terminalId source (place token) ∧ ∃ key,
          source.tokenKey? token = some key ∧
            source.terminalNumber? key = some (source.tokenNumber token) := by
    intro token member
    obtain ⟨key, keyed, placed⟩ := placed token member
    have number : source.terminalNumber? key = some (draft.terminalId source (place token)) := by
      simp only [terminalNumber?, drafted]
      exact (terminalNumber?_eq_some_iff sound).mpr ⟨_, placed, rfl⟩
    have same : source.tokenNumber token = draft.terminalId source (place token) := by
      simp [tokenNumber, keyed, number]
    exact ⟨lt_length_terminals placed, same, key, keyed, same ▸ number⟩
  have apart : ∀ first ∈ atom :: operators.map BinaryOperator.token,
      ∀ second ∈ atom :: operators.map BinaryOperator.token, place first = place second →
        first = second := by
    intro first firstMember second secondMember same
    obtain ⟨key, keyed, here⟩ := placed first firstMember
    obtain ⟨other, otherKeyed, there⟩ := placed second secondMember
    rw [same, there] at here
    obtain rfl := Option.some.inj here
    exact List.inj_on_of_nodup_map shape.distinct firstMember secondMember
      (keyed.trans otherKeyed.symm)
  have tokensDistinct := shape.distinct.of_map
  refine ⟨flat, flattened, fun token member => (numbers token member).2.2, ?_⟩
  have numbering := numberedAs_of_number numbered
  have start_eq : draft.terminalCount source = flat.start := by
    rw [(numbering.start_eq sound).1, numbering.terminalCount]
  have tokenNumbers : source.tokenNumber atom ::
      (operators.map fun operator => operator.map source.tokenNumber).map BinaryOperator.token =
        (atom :: operators.map BinaryOperator.token).map source.tokenNumber := by
    simp [BinaryOperator.map, Function.comp_def]
  refine ⟨FlatGrammar.wellNumbered_of_ofGrammar flattened, ?_, ?_, ?_⟩
  · rw [tokenNumbers, numbering.terminalCount]
    intro number member
    obtain ⟨token, listed, rfl⟩ := List.mem_map.mp member
    obtain ⟨bound, same, _⟩ := numbers token listed
    exact same ▸ terminalId_lt sound bound
  · rw [tokenNumbers]
    refine List.Nodup.map_on (fun first firstMember second secondMember same => ?_) tokensDistinct
    obtain ⟨_, firstNumber, _⟩ := numbers first firstMember
    obtain ⟨bound, secondNumber, _⟩ := numbers second secondMember
    rw [firstNumber, secondNumber] at same
    exact apart first firstMember second secondMember
      ((terminalId_inj sound (numbers first firstMember).1).mp same)
  · have operatorsDistinct := (List.nodup_cons.mp tokensDistinct).2
    have foundDistinct : found.Nodup := by
      refine permuted.nodup_iff.mp (List.nodup_cons.mpr ⟨?_, ?_⟩)
      · simp [Alternative.single, operatorAlternative]
      · refine List.Nodup.map_on (fun first firstMember second secondMember same => ?_)
          operatorsDistinct.of_map
        have symbols : some (SymbolRef.terminal (place first.token)) =
            some (.terminal (place second.token)) :=
          congrArg (fun alternative => (alternative.steps.map DraftStep.symbol)[1]?) same
        have places := SymbolRef.terminal.inj (Option.some.inj symbols)
        refine List.inj_on_of_nodup_map operatorsDistinct firstMember secondMember ?_
        exact apart _ (List.mem_cons_of_mem _ (List.mem_map_of_mem firstMember)) _
          (List.mem_cons_of_mem _ (List.mem_map_of_mem secondMember)) places
    rw [eraseDups_of_nodup foundDistinct] at productions
    refine (perm_of_number numbered ?_).trans ?_
    · rw [productions]
      intro production member
      obtain ⟨alternative, listed, rfl⟩ := List.mem_map.mp member
      rcases List.mem_cons.mp (permuted.mem_iff.mpr listed) with rfl | operator
      · simp [Alternative.single]
      · obtain ⟨operator, _, rfl⟩ := List.mem_map.mp operator
        simp [operatorAlternative]
    · rw [productions, List.map_map]
      refine (permuted.symm.map _).trans (.of_eq ?_)
      have atomNumber := (numbers atom List.mem_cons_self).2.1
      rw [List.map_cons, List.map_map, List.map_map]
      refine congrArg₂ List.cons ?_ (List.map_congr_left fun operator listed => ?_)
      · simp [numberStep, Alternative.single, FlatGrammar.atomProduction, start_eq, symbolId,
          atomNumber]
      · have number := (numbers operator.token
          (List.mem_cons_of_mem _ (List.mem_map_of_mem listed))).2.1
        simp [numberStep, operatorAlternative, FlatGrammar.operatorProduction, start_eq, symbolId,
          BinaryOperator.map, number]

end IsOperatorGrammar

/-! ## Operators that are fixed texts -/

/-- The grammar of operators and an atom that are fixed texts. -/
def ofOperators (atom : String) (operators : List (BinaryOperator String)) : Grammar :=
  ⟨{ name := "operators"
     rules := [("expression", .choice (.literal atom ::
       operators.map fun operator => operatorRule "expression" (operator.map .literal)))] },
    by simp⟩

theorem mem_reach {grammar : Grammar} {budget : Nat} {reached queue : List String} {name : String}
    (member : name ∈ reached) : name ∈ grammar.reach budget reached queue := by
  fun_induction reach grammar budget reached queue with
  | case1 | case2 => exact member
  | case3 _ _ _ _ _ ih => exact ih member
  | case4 _ _ _ _ _ _ ih => exact ih (List.mem_cons_of_mem _ member)

/-- Different texts make an operator grammar. -/
theorem isOperatorGrammar_ofOperators {atom : String} {operators : List (BinaryOperator String)}
    (distinct : (atom :: operators.map BinaryOperator.token).Nodup) :
    (ofOperators atom operators).IsOperatorGrammar "expression" (.literal atom)
      (operators.map fun operator => operator.map .literal) where
  rules := ⟨_, [], rfl, by rw [List.map_map]; exact .refl _, nofun⟩
  tokens := by simp [BinaryOperator.map, tokenKey?]
  distinct := by
    have keys : ((atom :: operators.map BinaryOperator.token).map fun text =>
        some (TerminalKey.literal text)).Nodup :=
      distinct.map fun first second same => TerminalKey.literal.inj (Option.some.inj same)
    simpa [BinaryOperator.map, tokenKey?, Function.comp_def] using keys
  lexical := by
    intro name body found lexical
    have member : (name, body) ∈ (ofOperators atom operators).rules :=
      (lookup_eq_some_iff_mem (ofOperators atom operators).names_nodup).mp found
    obtain ⟨rfl, rfl⟩ := Prod.mk.inj (List.mem_singleton.mp member)
    cases lexical
  word := nofun
  extras := nofun
  keywords := rfl
  conflicts := rfl
  reachable := by
    have start : ∀ budget, "expression" ∈ (ofOperators atom operators).reach (budget + 1) []
        (ofOperators atom operators).roots := by
      intro budget
      change _ ∈ reach _ _ [] ["expression"]
      rw [reach, if_neg (by simp)]
      exact mem_reach List.mem_cons_self
    refine List.filter_eq_nil_iff.mpr fun name member => ?_
    obtain rfl := List.mem_singleton.mp member
    simp [start]

end Grammar

end Lalr
