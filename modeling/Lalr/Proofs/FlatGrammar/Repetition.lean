import Lalr.Proofs.FlatGrammar.Transcription

set_option autoImplicit false

/-!
Repetitions of nothing. A repetition whose content writes the empty sequence is refused; so the
content of an accepted repetition matches the empty string only through rules that it names, and
where none of these does, the repetition is not nullable.
-/

namespace Lalr

namespace FlatDraft

variable {grammar : Grammar} {draft : FlatDraft}

/-- No production of a repetition is empty. -/
def FilledRepetitions (draft : FlatDraft) : Prop :=
  ∀ production ∈ draft.productions, ∀ index, production.lhs = .repetition index →
    production.alternative.steps ≠ []

theorem stable_filledRepetitions (literals keywords : List String) :
    FlattenM.Stable grammar FilledRepetitions literals keywords where
  congr filled _ _ same := by
    unfold FilledRepetitions
    rwa [same]
  productions added filled := by
    intro production member
    rcases List.mem_append.mp member with old | new
    · exact filled production old
    · exact added production new
  literal _ _ := FlattenM.keeps_intern_of_indifferent (fun _ _ _ => id) _
  keyword _ _ := FlattenM.keeps_intern_of_indifferent (fun _ _ _ => id) _
  pattern := FlattenM.keeps_internPattern_of_indifferent fun _ _ _ => id
  rule name body _ := FlattenM.keeps_internRule_of_indifferent (fun _ _ _ => id) name body
  twin := FlattenM.keeps_immediate_of_indifferent fun _ _ _ => id

theorem filledRepetitions_of_ofGrammar (success : FlatDraft.ofGrammar grammar = .ok draft) :
    draft.FilledRepetitions := by
  obtain ⟨⟨_, final⟩, ran, same⟩ := exists_of_bind_eq_ok success
  obtain rfl := Except.ok.inj same
  obtain ⟨_, middle, fixed, rules⟩ := FlattenM.run_bind_ok ran
  have keeps : FlattenM.Keeps FilledRepetitions (enterFixedTerminals grammar) :=
    FlattenM.keeps_enterFixedTerminals_of_indifferent fun _ _ _ => id
  have nothing_yet : FilledRepetitions {} := fun _ member => absurd member List.not_mem_nil
  exact (stable_filledRepetitions grammar.literals grammar.keywordNames).enterRules _
    (fun _ => Grammar.literals_subset_of_rule) (fun _ => Grammar.keywordNames_subset_of_rule) _ _ _ _
    (keeps _ _ _ nothing_yet fixed) rules

/-! ## Empty strings -/

/-- An expression that denotes the empty string is replaced by the empty sequence among others, or
names a syntactic rule that denotes the empty string. -/
theorem Flattens.nil_mem_or {count : Nat} (completed : draft.Completed grammar count)
    (filled : draft.FilledRepetitions) {body : Rule} {word : List TerminalKey}
    (denotes : grammar.Denotes body word) (empty : word = []) {found : List (List SymbolRef)}
    (flattens : draft.Flattens grammar body found) :
    [] ∈ found ∨ ∃ name ∈ body.referencedSymbols,
      name ∈ grammar.syntacticRules ∧ grammar.Denotes (.symbol name) [] := by
  -- the sequences of the content of a repetition are productions, so none of them is empty
  have repeats {index : Nat} {known : Repetition} (placed : draft.repetitions[index]? = some known)
      (inner : ∀ {sequences}, draft.Flattens grammar known.content sequences → [] ∈ sequences ∨
        ∃ name ∈ known.content.referencedSymbols,
          name ∈ grammar.syntacticRules ∧ grammar.Denotes (.symbol name) []) :
      ∃ name ∈ known.content.referencedSymbols,
        name ∈ grammar.syntacticRules ∧ grammar.Denotes (.symbol name) [] := by
    obtain ⟨same, sequences, again, replaced, productions⟩ :=
      completed.closed index (List.getElem?_eq_some_iff.mp placed).1
    obtain rfl := Option.some.inj (placed.symm.trans again)
    refine (inner replaced).resolve_left fun member => ?_
    obtain ⟨production, listed, lhs, symbols⟩ := (productions []).mpr (.inl member)
    exact filled production listed index lhs (List.map_eq_nil_iff.mp symbols)
  induction denotes generalizing found with
  | blank =>
      cases flattens
      exact .inl (List.mem_singleton.mpr rfl)
  | literal | pattern | token | keyword | lexical | external | immediate => cases empty
  | @syntactic name body _ known syntactic denotes _ =>
      subst empty
      refine .inr ⟨name, List.mem_singleton.mpr rfl, ?_, .syntactic known syntactic denotes⟩
      exact List.mem_map.mpr ⟨_, Grammar.mem_syntacticEntries_iff.mpr ⟨known, syntactic⟩, rfl⟩
  | seqNil =>
      cases flattens
      exact .inl (List.mem_singleton.mpr rfl)
  | seqCons _ _ head tail =>
      obtain ⟨first, rest⟩ := List.append_eq_nil_iff.mp empty
      cases flattens with
      | seqCons item items =>
          rcases head first item with here | ⟨name, named, nullable⟩
          · rcases tail rest items with behind | ⟨name, named, nullable⟩
            · exact .inl (mem_joinAll.mpr ⟨[], here, [], behind, rfl⟩)
            · exact .inr ⟨name, List.mem_append_right _ named, nullable⟩
          · exact .inr ⟨name, List.mem_append_left _ named, nullable⟩
  | @choice item items word listed _ inner =>
      induction items generalizing found with
      | nil => exact absurd listed List.not_mem_nil
      | cons first others ih =>
          cases flattens with
          | choiceCons head tail =>
              rcases List.mem_cons.mp listed with rfl | later
              · exact (inner empty head).imp (List.mem_append_left _)
                  fun ⟨name, named, nullable⟩ => ⟨name, List.mem_append_left _ named, nullable⟩
              · exact (ih later tail).imp (List.mem_append_right _)
                  fun ⟨name, named, nullable⟩ => ⟨name, List.mem_append_right _ named, nullable⟩
  | absent =>
      cases flattens
      exact .inl (List.mem_append_right _ (List.mem_singleton.mpr rfl))
  | present _ inner =>
      cases flattens with
      | optional body => exact (inner empty body).imp_left (List.mem_append_left _)
  | never =>
      cases flattens
      exact .inl (List.mem_cons_of_mem _ (List.mem_singleton.mpr rfl))
  | often _ inner =>
      cases flattens with
      | repeat0 known =>
          refine (inner empty (.repeat1 known)).imp_left fun member => ?_
          cases List.mem_singleton.mp member
  | once _ inner =>
      cases flattens with
      | repeat1 known => exact .inr (repeats known (inner empty))
  | again _ _ _ inner =>
      obtain ⟨_, last⟩ := List.append_eq_nil_iff.mp empty
      cases flattens with
      | repeat1 known => exact .inr (repeats known (inner last))
  | prec _ inner =>
      cases flattens with
      | prec body => exact inner empty body
  | dynamicPrec _ inner =>
      cases flattens with
      | dynamicPrec body => exact inner empty body
  | field _ inner =>
      cases flattens with
      | field body => exact inner empty body
  | aliased _ inner =>
      cases flattens with
      | aliased body => exact inner empty body

/-! ## What has been entered -/

/-- An expression has been entered as the content of a repetition. -/
def Repeats (draft : FlatDraft) (content : Rule) : Prop :=
  ∃ (index : Nat) (known : Repetition), draft.repetitions[index]? = some known ∧
    known.content = content

theorem Flattens.items_of_seq {items : List Rule} {found : List (List SymbolRef)}
    (flattens : draft.Flattens grammar (.seq items) found) :
    ∀ item ∈ items, ∃ found, draft.Flattens grammar item found := by
  induction items generalizing found with
  | nil => exact nofun
  | cons item items ih =>
      cases flattens with
      | seqCons head tail => exact List.forall_mem_cons.mpr ⟨⟨_, head⟩, ih tail⟩

theorem Flattens.items_of_choice {items : List Rule} {found : List (List SymbolRef)}
    (flattens : draft.Flattens grammar (.choice items) found) :
    ∀ item ∈ items, ∃ found, draft.Flattens grammar item found := by
  induction items generalizing found with
  | nil => exact nofun
  | cons item items ih =>
      cases flattens with
      | choiceCons head tail => exact List.forall_mem_cons.mpr ⟨⟨_, head⟩, ih tail⟩

/-- What is repeated and the keywords that are referred to have been entered. -/
structure Covers (draft : FlatDraft) (repeated : List Rule) (keywords : List String) : Prop where
  repeated : ∀ content ∈ repeated, draft.Repeats content
  keywords : ∀ name ∈ keywords, .keyword name ∈ draft.keys

theorem Covers.append {repeated others : List Rule} {keywords names : List String}
    (first : draft.Covers repeated keywords) (second : draft.Covers others names) :
    draft.Covers (repeated ++ others) (keywords ++ names) :=
  ⟨List.forall_mem_append.mpr ⟨first.repeated, second.repeated⟩,
    List.forall_mem_append.mpr ⟨first.keywords, second.keywords⟩⟩

theorem Covers.repeats {content : Rule} {repeated : List Rule} {keywords : List String}
    (inside : draft.Covers repeated keywords) (here : draft.Repeats content) :
    draft.Covers (content :: repeated) keywords :=
  ⟨List.forall_mem_cons.mpr ⟨here, inside.repeated⟩, inside.keywords⟩

mutual

/-- A draft has entered all that an expression repeats or refers to, however deep inside. -/
theorem Flattens.covers {count : Nat} (completed : draft.Completed grammar count)
    {body : Rule} {found : List (List SymbolRef)} (flattens : draft.Flattens grammar body found) :
    draft.Covers body.repeated body.keywordNames := by
  cases body with
  | blank | literal | pattern | token | symbol => exact ⟨nofun, nofun⟩
  | keyword name =>
      cases flattens with
      | keyword placed =>
          exact ⟨nofun, List.forall_mem_singleton.mpr (List.mem_of_getElem? placed)⟩
  | seq items => exact covers_of_items completed flattens.items_of_seq
  | choice items => exact covers_of_items completed flattens.items_of_choice
  | repeat0 body =>
      cases flattens with
      | repeat0 placed =>
          obtain ⟨_, _, same, inner, _⟩ :=
            completed.closed _ (List.getElem?_eq_some_iff.mp placed).1
          cases placed.symm.trans same
          exact (inner.covers completed).repeats ⟨_, _, placed, rfl⟩
  | repeat1 body =>
      cases flattens with
      | repeat1 placed =>
          obtain ⟨_, _, same, inner, _⟩ :=
            completed.closed _ (List.getElem?_eq_some_iff.mp placed).1
          cases placed.symm.trans same
          exact (inner.covers completed).repeats ⟨_, _, placed, rfl⟩
  | optional body =>
      cases flattens with
      | optional inner => exact inner.covers completed
  | prec _ _ body =>
      cases flattens with
      | prec inner => exact inner.covers completed
  | dynamicPrec _ body =>
      cases flattens with
      | dynamicPrec inner => exact inner.covers completed
  | field _ body =>
      cases flattens with
      | field inner => exact inner.covers completed
  | aliased _ _ body =>
      cases flattens with
      | aliased inner => exact inner.covers completed
  | immediate body =>
      cases flattens with
      | immediate inner _ => exact inner.covers completed

theorem covers_of_items {count : Nat} (completed : draft.Completed grammar count)
    {items : List Rule} (each : ∀ item ∈ items, ∃ found, draft.Flattens grammar item found) :
    draft.Covers (Rule.repeatedOf items) (Rule.keywordNamesOf items) := by
  cases items with
  | nil => exact ⟨nofun, nofun⟩
  | cons item items =>
      obtain ⟨⟨_, head⟩, tail⟩ := List.forall_mem_cons.mp each
      exact (head.covers completed).append (covers_of_items completed tail)

end

/-- A draft has entered all that the syntactic rules of its grammar repeat or refer to. -/
theorem covers_of_ofGrammar (success : FlatDraft.ofGrammar grammar = .ok draft) :
    draft.Covers grammar.repeated grammar.keywordNames := by
  have completed := completed_of_ofGrammar success
  have each {entry : String × Rule} (listed : entry ∈ grammar.syntacticEntries) :
      draft.Covers entry.2.repeated entry.2.keywordNames := by
    obtain ⟨index, placed⟩ := List.mem_iff_getElem?.mp listed
    obtain ⟨_, flattens, _⟩ :=
      completed.rules index (List.getElem?_eq_some_iff.mp placed).1 entry.1 entry.2 placed
    exact flattens.covers completed
  constructor
  · intro content repeated
    obtain ⟨entry, listed, inside⟩ := List.mem_flatMap.mp repeated
    exact (each listed).repeated content inside
  · intro name referred
    obtain ⟨entry, listed, inside⟩ := List.mem_flatMap.mp referred
    exact (each listed).keywords name inside

/-! ## Nullable repetitions -/

/-- A repetition of what denotes the empty string is nullable, and no other one is. -/
theorem derives_nil_iff_of_repetition {flat : FlatGrammar} (sound : draft.Sound grammar)
    (completed : draft.Completed grammar grammar.syntacticEntries.length)
    (numbers : draft.NumbersTo grammar flat) {index : Nat} {known : Repetition}
    (placed : draft.repetitions[index]? = some known) :
    flat.Derives [draft.symbolId grammar (.repetition index)] [] ↔
      grammar.Denotes known.content [] := by
  constructor
  · intro derives
    have yields : flat.Yields ([SymbolRef.repetition index].map (draft.symbolId grammar)) [] :=
      FlatGrammar.yields_of_derives derives nofun
    have entered : ∀ symbol ∈ [SymbolRef.repetition index], draft.HasSymbol grammar symbol := by
      simpa [HasSymbol] using (List.getElem?_eq_some_iff.mp placed).1
    obtain ⟨keys, each, yields⟩ := Yields.of_numbered sound numbers entered yields
    cases each
    obtain ⟨other, same, denotes⟩ :=
      meansAll_single_iff.mp (yields.meansAll sound completed (Nat.le_refl _))
    cases placed.symm.trans same
    obtain ⟨parts, nonempty, each, joined⟩ := Grammar.denotes_repeat1_iff.mp denotes
    obtain ⟨part, listed⟩ := List.exists_mem_of_ne_nil parts nonempty
    exact List.flatten_eq_nil_iff.mp joined.symm part listed ▸ each part listed
  · intro denotes
    obtain ⟨symbols, alone, yields⟩ :=
      Flattens.yields sound completed (Nat.le_refl _) (.once denotes) (.repeat1 placed)
    obtain rfl := List.mem_singleton.mp alone
    obtain ⟨word, each, yields⟩ := yields.numbered sound numbers
    cases each
    exact yields.derives

end FlatDraft

open Grammar

variable {source : Grammar} {grammar : FlatGrammar}

/-- Every repeated expression of an accepted grammar has a nonterminal, which is nullable exactly if
the expression denotes the empty string; and that it does only through a rule that it names. -/
theorem repetition_nullable_iff (flattened : FlatGrammar.ofGrammar source = .ok grammar)
    {content : Rule} (repeated : content ∈ source.repeated) :
    (∃ number, source.Shows number (.repetition content)) ∧
      (∀ number, source.Shows number (.repetition content) →
        (grammar.Derives [number] [] ↔ source.Denotes content [])) ∧
      (source.Denotes content [] → ∃ name ∈ content.referencedSymbols,
        name ∈ source.syntacticRules ∧ source.Denotes (.symbol name) []) := by
  obtain ⟨draft, drafted, numbered⟩ := FlatGrammar.exists_draft_of_ofGrammar flattened
  have sound := FlatDraft.sound_of_ofGrammar drafted
  have completed := FlatDraft.completed_of_ofGrammar drafted
  have filled := FlatDraft.filledRepetitions_of_ofGrammar drafted
  obtain ⟨index, known, placed, rfl⟩ :=
    (FlatDraft.covers_of_ofGrammar drafted).repeated content repeated
  refine ⟨⟨_, draft, drafted, .repetition index, ?_, rfl⟩, ?_, fun denotes => ?_⟩
  · simp only [FlatDraft.symbol?, placed, Option.map_some]
  · rintro number ⟨other, same, symbol, named, rfl⟩
    obtain rfl := Except.ok.inj (drafted.symm.trans same)
    cases symbol with
    | terminal | rule =>
        obtain ⟨_, _, same⟩ := Option.map_eq_some_iff.mp named
        cases same
    | repetition place =>
        obtain ⟨entry, listed, same⟩ := Option.map_eq_some_iff.mp named
        rw [← WrittenSymbol.repetition.inj same]
        exact FlatDraft.derives_nil_iff_of_repetition sound completed
          (FlatDraft.numbersTo_of_number numbered) listed
  · refine (FlatDraft.Flattens.nil_mem_or completed filled (.once denotes) rfl
      (.repeat1 placed)).resolve_left fun member => ?_
    cases List.mem_singleton.mp member

/-- Some items in a row, each of which may be nothing. -/
def itemsGrammar : Grammar :=
  ⟨{ name := "items"
     rules :=
      [("start", .repeat1 (.symbol "item")),
        ("item", .choice [.literal "a", .dynamicPrec 1 .blank])] }, by decide⟩

set_option maxRecDepth 10000 in
theorem repetition_nullable_iff_of_items :
    ∃ grammar, FlatGrammar.ofGrammar itemsGrammar = .ok grammar ∧
      ∃ number, itemsGrammar.Shows number (.repetition (.symbol "item")) ∧
        grammar.Derives [number] [] := by
  have measured : ((FlatGrammar.ofGrammar itemsGrammar).toOption.map fun grammar =>
      grammar.productions.size) = some 5 := by cbv
  cases flattened : FlatGrammar.ofGrammar itemsGrammar with
  | error failure => simp [flattened, Except.toOption] at measured
  | ok grammar =>
      have repeated : .symbol "item" ∈ itemsGrammar.repeated := by decide
      have known : itemsGrammar.rule? "item" =
          some (.choice [.literal "a", .dynamicPrec 1 .blank]) := by decide
      have empty : itemsGrammar.Denotes (.symbol "item") [] :=
        .syntactic known rfl (.choice (List.mem_cons_of_mem _ List.mem_cons_self)
          (.dynamicPrec .blank))
      obtain ⟨⟨number, here⟩, nullable, _⟩ := repetition_nullable_iff flattened repeated
      exact ⟨grammar, rfl, number, here, (nullable number here).mpr empty⟩

end Lalr
