import Mathlib.Data.List.Forall2
import Lalr.Proofs.FlatGrammar.Flattening

set_option autoImplicit false

/-!
What flattening makes of an expression: the symbol sequences it is replaced by, and the
productions of the rules and repetitions, which are exactly the sequences of their bodies.
-/

namespace Lalr

/-- The symbols of an alternative, without the marks on them. -/
def Alternative.symbols (alternative : Alternative) : List SymbolRef :=
  alternative.steps.map DraftStep.symbol

namespace Alternative

@[simp] theorem symbols_withPrecedence (value : Int32) (associativity : Option Associativity)
    (alternative : Alternative) :
    (alternative.withPrecedence value associativity).symbols = alternative.symbols := by
  simp only [symbols, withPrecedence, List.map_map]
  refine List.map_congr_left fun step _ => ?_
  simp only [Function.comp_apply]
  split <;> rfl

@[simp] theorem symbols_withDynamicPrecedence (value : Int32) (alternative : Alternative) :
    (alternative.withDynamicPrecedence value).symbols = alternative.symbols :=
  rfl

@[simp] theorem symbols_withField (name : String) (alternative : Alternative) :
    (alternative.withField name).symbols = alternative.symbols := by
  simp only [symbols, withField, List.map_map]
  refine List.map_congr_left fun step _ => ?_
  simp only [Function.comp_apply]
  split <;> rfl

theorem symbols_of_withAlias? {name : String} {named : Bool} {alternative renamed : Alternative}
    (success : alternative.withAlias? name named = some renamed) :
    renamed.symbols = alternative.symbols := by
  unfold withAlias? at success
  split at success
  case h_1 step single =>
      obtain rfl := Option.some.inj success
      simp [symbols, single]
  case h_2 => exact absurd success (by simp)

end Alternative

/-- All ways to put one of the second sequences behind one of the first. -/
def joinAll {α : Type} (first second : List (List α)) : List (List α) :=
  first.flatMap fun before => second.map (before ++ ·)

theorem mem_joinAll {α : Type} {first second : List (List α)} {symbols : List α} :
    symbols ∈ joinAll first second ↔
      ∃ before ∈ first, ∃ behind ∈ second, before ++ behind = symbols := by
  simp [joinAll]

theorem joinAll_assoc {α : Type} (first second third : List (List α)) :
    joinAll (joinAll first second) third = joinAll first (joinAll second third) := by
  simp only [joinAll, List.flatMap_assoc, List.flatMap_map, List.map_flatMap, List.map_map,
    Function.comp_def, List.append_assoc]

theorem joinAll_empty_left {α : Type} (sequences : List (List α)) :
    joinAll [[]] sequences = sequences := by
  simp [joinAll]

theorem joinAll_empty_right {α : Type} (sequences : List (List α)) :
    joinAll sequences [[]] = sequences := by
  simp [joinAll]

theorem map_symbols_appendAll (first second : List Alternative) :
    (appendAll first second).map Alternative.symbols =
      joinAll (first.map Alternative.symbols) (second.map Alternative.symbols) := by
  simp [appendAll, joinAll, List.map_flatMap, List.flatMap_map, Alternative.symbols,
    Alternative.append, Function.comp_def]

namespace FlatDraft

/-- A sequence of one terminal and the sequence of its immediate twin. -/
def IsTwin (draft : FlatDraft) (base twin : List SymbolRef) : Prop :=
  ∃ index place key, base = [.terminal index] ∧ twin = [.terminal place] ∧
    draft.keys[index]? = some key ∧ draft.keys[place]? = some (.immediate key)

/-- The symbol sequences that an expression is replaced by. -/
inductive Flattens (grammar : Grammar) (draft : FlatDraft) :
    Rule → List (List SymbolRef) → Prop where
  | blank : Flattens grammar draft .blank [[]]
  | literal {text : String} {index : Nat} : draft.keys[index]? = some (.literal text) →
      Flattens grammar draft (.literal text) [[.terminal index]]
  | pattern {text : String} {index : Nat} : draft.keys[index]? = some (.pattern text) →
      Flattens grammar draft (.pattern text) [[.terminal index]]
  | token {rule text : String} {body : Rule} {index : Nat} :
      body.patternText rule = .ok text → draft.keys[index]? = some (.pattern text) →
        Flattens grammar draft (.token body) [[.terminal index]]
  | keyword {name : String} {index : Nat} : draft.keys[index]? = some (.keyword name) →
      Flattens grammar draft (.keyword name) [[.terminal index]]
  | syntactic {name : String} {index : Nat} : grammar.syntacticRules.idxOf? name = some index →
      Flattens grammar draft (.symbol name) [[.rule index]]
  | lexical {name : String} {body : Rule} {index : Nat} :
      grammar.syntacticRules.idxOf? name = none → grammar.rule? name = some body →
        draft.keys[index]? = some (.named name) →
          Flattens grammar draft (.symbol name) [[.terminal index]]
  | external {name : String} {index : Nat} :
      grammar.syntacticRules.idxOf? name = none → grammar.rule? name = none →
        draft.keys[index]? = some (.external name) →
          Flattens grammar draft (.symbol name) [[.terminal index]]
  | seqNil : Flattens grammar draft (.seq []) [[]]
  | seqCons {item : Rule} {items : List Rule} {first rest : List (List SymbolRef)} :
      Flattens grammar draft item first → Flattens grammar draft (.seq items) rest →
        Flattens grammar draft (.seq (item :: items)) (joinAll first rest)
  | choiceNil : Flattens grammar draft (.choice []) []
  | choiceCons {item : Rule} {items : List Rule} {first rest : List (List SymbolRef)} :
      Flattens grammar draft item first → Flattens grammar draft (.choice items) rest →
        Flattens grammar draft (.choice (item :: items)) (first ++ rest)
  | optional {body : Rule} {found : List (List SymbolRef)} :
      Flattens grammar draft body found → Flattens grammar draft (.optional body) (found ++ [[]])
  | repeat0 {index : Nat} {known : Repetition} : draft.repetitions[index]? = some known →
      Flattens grammar draft (.repeat0 known.content) [[.repetition index], []]
  | repeat1 {index : Nat} {known : Repetition} : draft.repetitions[index]? = some known →
      Flattens grammar draft (.repeat1 known.content) [[.repetition index]]
  | prec {value : Int32} {associativity : Option Associativity} {body : Rule}
      {found : List (List SymbolRef)} :
      Flattens grammar draft body found →
        Flattens grammar draft (.prec value associativity body) found
  | dynamicPrec {value : Int32} {body : Rule} {found : List (List SymbolRef)} :
      Flattens grammar draft body found → Flattens grammar draft (.dynamicPrec value body) found
  | field {name : String} {body : Rule} {found : List (List SymbolRef)} :
      Flattens grammar draft body found → Flattens grammar draft (.field name body) found
  | aliased {name : String} {named : Bool} {body : Rule} {found : List (List SymbolRef)} :
      Flattens grammar draft body found → Flattens grammar draft (.aliased name named body) found
  | immediate {body : Rule} {found twins : List (List SymbolRef)} :
      Flattens grammar draft body found → List.Forall₂ draft.IsTwin found twins →
        Flattens grammar draft (.immediate body) twins

/-- A production with this left-hand side and these symbols has been entered. -/
def HasProduction (draft : FlatDraft) (lhs : SymbolRef) (symbols : List SymbolRef) : Prop :=
  ∃ production ∈ draft.productions,
    production.lhs = lhs ∧ production.alternative.symbols = symbols

/-- The productions of a repetition are the sequences of its content, each alone and behind
the repetition itself. -/
def Closed (grammar : Grammar) (draft : FlatDraft) (index : Nat) : Prop :=
  ∃ known found, draft.repetitions[index]? = some known ∧
    Flattens grammar draft known.content found ∧
    ∀ symbols, draft.HasProduction (.repetition index) symbols ↔
      symbols ∈ found ∨ ∃ behind ∈ found, symbols = .repetition index :: behind

/-- What flattening an expression does to a draft: terminals and repetitions are added, and
every repetition that is added gets all its productions. -/
structure GrowsTo (grammar : Grammar) (before after : FlatDraft) : Prop where
  keys : before.keys <+: after.keys
  repetitions : before.repetitions <+: after.repetitions
  productions : ∃ added, after.productions = before.productions ++ added ∧
    ∀ production ∈ added, ∃ index,
      production.lhs = .repetition index ∧ before.repetitions.length ≤ index
  closed : ∀ index, before.repetitions.length ≤ index → index < after.repetitions.length →
    after.Closed grammar index

variable {grammar : Grammar} {before after : FlatDraft}

theorem getElem?_of_longer {α : Type} {first second : List α} (longer : first <+: second)
    {index : Nat} {value : α} (found : first[index]? = some value) :
    second[index]? = some value := by
  obtain ⟨rest, rfl⟩ := longer
  rw [List.getElem?_append_left (List.getElem?_eq_some_iff.mp found).1]
  exact found

theorem Flattens.mono {body : Rule} {found : List (List SymbolRef)}
    (flattens : before.Flattens grammar body found) (keys : before.keys <+: after.keys)
    (repetitions : before.repetitions <+: after.repetitions) :
    after.Flattens grammar body found := by
  induction flattens with
  | blank => exact .blank
  | literal placed => exact .literal (getElem?_of_longer keys placed)
  | pattern placed => exact .pattern (getElem?_of_longer keys placed)
  | token text placed => exact .token text (getElem?_of_longer keys placed)
  | keyword placed => exact .keyword (getElem?_of_longer keys placed)
  | syntactic known => exact .syntactic known
  | lexical absent known placed => exact .lexical absent known (getElem?_of_longer keys placed)
  | external absent unknown placed =>
      exact .external absent unknown (getElem?_of_longer keys placed)
  | seqNil => exact .seqNil
  | seqCons _ _ first rest => exact .seqCons first rest
  | choiceNil => exact .choiceNil
  | choiceCons _ _ first rest => exact .choiceCons first rest
  | optional _ inner => exact .optional inner
  | repeat0 known => exact .repeat0 (getElem?_of_longer repetitions known)
  | repeat1 known => exact .repeat1 (getElem?_of_longer repetitions known)
  | prec _ inner => exact .prec inner
  | dynamicPrec _ inner => exact .dynamicPrec inner
  | field _ inner => exact .field inner
  | aliased _ inner => exact .aliased inner
  | immediate _ twins inner =>
      refine .immediate inner (twins.imp ?_)
      rintro base twin ⟨index, place, key, rfl, rfl, based, paired⟩
      exact ⟨index, place, key, rfl, rfl, getElem?_of_longer keys based,
        getElem?_of_longer keys paired⟩

theorem Closed.mono {index : Nat} (closed : before.Closed grammar index)
    (keys : before.keys <+: after.keys) (repetitions : before.repetitions <+: after.repetitions)
    (same : ∀ symbols, after.HasProduction (.repetition index) symbols ↔
      before.HasProduction (.repetition index) symbols) :
    after.Closed grammar index := by
  obtain ⟨known, found, placed, flattens, productions⟩ := closed
  exact ⟨known, found, getElem?_of_longer repetitions placed, flattens.mono keys repetitions,
    fun symbols => (same symbols).trans (productions symbols)⟩

theorem hasProduction_append_iff {draft : FlatDraft} {old added : List DraftProduction}
    (split : draft.productions = old ++ added) {lhs : SymbolRef} {symbols : List SymbolRef} :
    draft.HasProduction lhs symbols ↔
      (∃ production ∈ old, production.lhs = lhs ∧ production.alternative.symbols = symbols) ∨
        ∃ production ∈ added,
          production.lhs = lhs ∧ production.alternative.symbols = symbols := by
  simp [HasProduction, split, or_and_right, exists_or]

namespace GrowsTo

@[refl] theorem refl (draft : FlatDraft) : GrowsTo grammar draft draft where
  keys := List.prefix_refl _
  repetitions := List.prefix_refl _
  productions := ⟨[], by simp, by simp⟩
  closed := fun index low high => absurd high (Nat.not_lt.mpr low)

theorem hasProduction_iff (grown : GrowsTo grammar before after) {lhs : SymbolRef}
    (old : ∀ index, lhs = .repetition index → index < before.repetitions.length)
    (symbols : List SymbolRef) :
    after.HasProduction lhs symbols ↔ before.HasProduction lhs symbols := by
  obtain ⟨added, split, fresh⟩ := grown.productions
  rw [hasProduction_append_iff split]
  constructor
  · rintro (known | ⟨production, member, rfl, _⟩)
    · exact known
    · obtain ⟨index, same, new⟩ := fresh production member
      exact absurd (old index same) (Nat.not_lt.mpr new)
  · exact .inl

theorem trans {first second third : FlatDraft} (early : GrowsTo grammar first second)
    (late : GrowsTo grammar second third) : GrowsTo grammar first third where
  keys := early.keys.trans late.keys
  repetitions := early.repetitions.trans late.repetitions
  productions := by
    obtain ⟨added, split, fresh⟩ := early.productions
    obtain ⟨more, splitMore, freshMore⟩ := late.productions
    refine ⟨added ++ more, by rw [splitMore, split, List.append_assoc], ?_⟩
    intro production member
    rcases List.mem_append.mp member with inAdded | inMore
    · exact fresh production inAdded
    · obtain ⟨index, same, new⟩ := freshMore production inMore
      exact ⟨index, same, Nat.le_trans early.repetitions.length_le new⟩
  closed := by
    intro index low high
    by_cases known : index < second.repetitions.length
    · refine (early.closed index low known).mono late.keys late.repetitions ?_
      exact late.hasProduction_iff fun other same => by cases same; exact known
    · exact late.closed index (Nat.not_lt.mp known) high

theorem of_keys (keys : before.keys <+: after.keys)
    (repetitions : after.repetitions = before.repetitions)
    (productions : after.productions = before.productions) : GrowsTo grammar before after where
  keys := keys
  repetitions := repetitions ▸ List.prefix_refl _
  productions := ⟨[], by simpa using productions, by simp⟩
  closed := fun index low high => absurd (repetitions ▸ high) (Nat.not_lt.mpr low)

theorem flattens (grown : GrowsTo grammar before after) {body : Rule}
    {found : List (List SymbolRef)} (flattens : before.Flattens grammar body found) :
    after.Flattens grammar body found :=
  flattens.mono grown.keys grown.repetitions

/-- A draft that has grown since a repetition was entered is complete again when this
repetition has its productions too. -/
theorem of_repetition {draft opened flattened final : FlatDraft} {added : List DraftProduction}
    (grown : GrowsTo grammar opened flattened) (sameKeys : opened.keys = draft.keys)
    (longer : draft.repetitions <+: opened.repetitions)
    (one : opened.repetitions.length = draft.repetitions.length + 1)
    (unchanged : opened.productions = draft.productions) (keys : final.keys = flattened.keys)
    (repetitions : final.repetitions = flattened.repetitions)
    (productions : final.productions = flattened.productions ++ added)
    (own : ∀ production ∈ added, production.lhs = .repetition draft.repetitions.length)
    (closed : final.Closed grammar draft.repetitions.length) : GrowsTo grammar draft final where
  keys := by
    rw [keys, ← sameKeys]
    exact grown.keys
  repetitions := repetitions ▸ longer.trans grown.repetitions
  productions := by
    obtain ⟨inside, split, fresh⟩ := grown.productions
    refine ⟨inside ++ added, by rw [productions, split, unchanged, List.append_assoc], ?_⟩
    intro production member
    rcases List.mem_append.mp member with early | late
    · obtain ⟨index, left, new⟩ := fresh production early
      exact ⟨index, left, by omega⟩
    · exact ⟨_, own production late, Nat.le_refl _⟩
  closed := by
    intro other low high
    by_cases first : other = draft.repetitions.length
    · exact first ▸ closed
    refine (grown.closed other (by omega) (repetitions ▸ high)).mono
      (keys ▸ List.prefix_refl _) (repetitions ▸ List.prefix_refl _) ?_
    intro symbols
    rw [hasProduction_append_iff productions]
    constructor
    · rintro (known | ⟨production, member, left, _⟩)
      · exact known
      · exact absurd (SymbolRef.repetition.inj (left.symm.trans (own production member))) first
    · exact .inl

end GrowsTo

end FlatDraft

namespace FlattenM

open FlatDraft

variable {grammar : Grammar}

/-! ## Terminals -/

theorem intern_grows {terminal : Terminal} {draft final : FlatDraft} {index : Nat}
    (ran : (intern terminal).run draft = .ok (index, final)) :
    GrowsTo grammar draft final ∧ final.keys[index]? = some terminal.key := by
  unfold intern at ran
  obtain ⟨current, middle, got, rest⟩ := run_bind_ok ran
  obtain ⟨rfl, rfl⟩ := run_get_ok got
  cases known : terminalIndex? middle.terminals terminal.key with
  | some place =>
      rw [known] at rest
      obtain ⟨rfl, rfl⟩ := run_pure_ok rest
      exact ⟨.refl _, getElem?_of_terminalIndex? known⟩
  | none =>
      rw [known] at rest
      obtain ⟨_, changed, stored, rest⟩ := run_bind_ok rest
      obtain rfl := run_set_ok stored
      obtain ⟨rfl, rfl⟩ := run_pure_ok rest
      have keys : ({ middle with terminals := middle.terminals ++ [terminal] } : FlatDraft).keys =
          middle.keys ++ [terminal.key] := by simp [keys]
      refine ⟨.of_keys (keys ▸ List.prefix_append _ _) rfl rfl, ?_⟩
      rw [keys, List.getElem?_append_right (by simp [FlatDraft.keys])]
      simp [FlatDraft.keys]

theorem internRule_grows {name : String} {body : Rule} {draft final : FlatDraft} {index : Nat}
    (ran : (internRule name body).run draft = .ok (index, final)) :
    GrowsTo grammar draft final ∧ final.keys[index]? = some (.named name) := by
  unfold internRule at ran
  obtain ⟨current, middle, got, rest⟩ := run_bind_ok ran
  obtain ⟨rfl, rfl⟩ := run_get_ok got
  cases known : terminalIndex? middle.terminals (.named name) with
  | some place =>
      rw [known] at rest
      obtain ⟨rfl, rfl⟩ := run_pure_ok rest
      exact ⟨.refl _, getElem?_of_terminalIndex? known⟩
  | none =>
      rw [known] at rest
      obtain ⟨form, same, lifted, interned⟩ := run_bind_ok rest
      obtain ⟨_, rfl⟩ := run_lift_ok lifted
      exact intern_grows interned

theorem internPattern_grows {rule text : String} {draft final : FlatDraft} {index : Nat}
    (ran : (internPattern rule text).run draft = .ok (index, final)) :
    GrowsTo grammar draft final ∧ final.keys[index]? = some (.pattern text) := by
  unfold internPattern at ran
  obtain ⟨_, same, lifted, search⟩ := run_bind_ok ran
  obtain ⟨_, rfl⟩ := run_lift_ok lifted
  obtain ⟨current, middle, got, rest⟩ := run_bind_ok search
  obtain ⟨rfl, rfl⟩ := run_get_ok got
  cases known : terminalIndex? middle.terminals (.pattern text) with
  | some place =>
      rw [known] at rest
      obtain ⟨rfl, rfl⟩ := run_pure_ok rest
      exact ⟨.refl _, getElem?_of_terminalIndex? known⟩
  | none =>
      rw [known] at rest
      obtain ⟨_, counted, stored, interned⟩ := run_bind_ok rest
      obtain rfl := run_set_ok stored
      obtain ⟨grown, placed⟩ := @intern_grows grammar _ _ _ _ interned
      have counting : GrowsTo grammar middle
          { middle with patternOwners := rule :: middle.patternOwners } :=
        .of_keys (List.prefix_refl _) rfl rfl
      exact ⟨counting.trans grown, placed⟩

theorem resolve_grows {rule name : String} {draft final : FlatDraft} {symbol : SymbolRef}
    (ran : (resolve grammar rule name).run draft = .ok (symbol, final)) :
    GrowsTo grammar draft final ∧ final.Flattens grammar (.symbol name) [[symbol]] := by
  unfold resolve at ran
  split at ran
  case h_1 index body syntactic =>
      obtain ⟨rfl, rfl⟩ := run_pure_ok ran
      exact ⟨.refl _, .syntactic syntactic⟩
  case h_2 body absent lexical =>
      rw [map_eq_pure_bind] at ran
      obtain ⟨index, middle, interned, rest⟩ := run_bind_ok ran
      obtain ⟨rfl, rfl⟩ := run_pure_ok rest
      obtain ⟨grown, placed⟩ := @internRule_grows grammar _ _ _ _ _ interned
      exact ⟨grown, .lexical absent lexical placed⟩
  case h_3 absent unknown =>
      obtain ⟨current, middle, got, rest⟩ := run_bind_ok ran
      obtain ⟨rfl, rfl⟩ := run_get_ok got
      cases known : terminalIndex? middle.terminals (.external name) with
      | none =>
          rw [known] at rest
          exact absurd rest run_fail_ok
      | some place =>
          rw [known] at rest
          obtain ⟨rfl, rfl⟩ := run_pure_ok rest
          exact ⟨.refl _, .external absent unknown (getElem?_of_terminalIndex? known)⟩

theorem immediate_grows {rule : String} {alternative twin : Alternative} {draft final : FlatDraft}
    (ran : (immediate rule alternative).run draft = .ok (twin, final)) :
    GrowsTo grammar draft final ∧ final.IsTwin alternative.symbols twin.symbols := by
  unfold immediate at ran
  split at ran
  case h_2 => exact absurd ran run_fail_ok
  case h_1 index precedence associativity field shownAs single =>
      obtain ⟨current, middle, got, rest⟩ := run_bind_ok ran
      obtain ⟨rfl, rfl⟩ := run_get_ok got
      cases base : middle.terminals[index]? with
      | none =>
          rw [base] at rest
          exact absurd rest run_fail_ok
      | some terminal =>
          rw [base] at rest
          dsimp only at rest
          split at rest
          case isTrue => exact absurd rest run_fail_ok
          case isFalse ordinary =>
              obtain ⟨place, entered, interned, rest⟩ := run_bind_ok rest
              obtain ⟨rfl, rfl⟩ := run_pure_ok rest
              obtain ⟨grown, placed⟩ := @intern_grows grammar _ _ _ _ interned
              have based : middle.keys[index]? = some terminal.key := by
                simp [FlatDraft.keys, base]
              exact ⟨grown, index, place, terminal.key, by simp [Alternative.symbols, single],
                rfl, getElem?_of_longer grown.keys based, placed⟩

theorem mapM_immediate_grows {rule : String} {found twins : List Alternative}
    {draft final : FlatDraft}
    (ran : (found.mapM (immediate rule)).run draft = .ok (twins, final)) :
    GrowsTo grammar draft final ∧
      List.Forall₂ final.IsTwin (found.map Alternative.symbols)
        (twins.map Alternative.symbols) := by
  induction found generalizing draft twins with
  | nil =>
      rw [List.mapM_nil] at ran
      obtain ⟨rfl, rfl⟩ := run_pure_ok ran
      exact ⟨.refl _, .nil⟩
  | cons alternative found ih =>
      rw [List.mapM_cons] at ran
      obtain ⟨twin, middle, first, others⟩ := run_bind_ok ran
      obtain ⟨rest, last, mapped, done⟩ := run_bind_ok others
      obtain ⟨rfl, rfl⟩ := run_pure_ok done
      obtain ⟨grown, index, place, key, base, paired, known, placed⟩ :=
        @immediate_grows grammar _ _ _ _ _ first
      obtain ⟨more, all⟩ := ih mapped
      exact ⟨grown.trans more, .cons ⟨index, place, key, base, paired,
        getElem?_of_longer more.keys known, getElem?_of_longer more.keys placed⟩ all⟩

/-! ## Expressions -/

/-- An action that gives the alternatives of an expression. -/
def FlattensTo (grammar : Grammar) (body : Rule) (action : FlattenM (List Alternative)) : Prop :=
  ∀ {draft final : FlatDraft} {found : List Alternative}, draft.Sound grammar →
    action.run draft = .ok (found, final) →
    GrowsTo grammar draft final ∧
      final.Flattens grammar body (found.map Alternative.symbols)

theorem not_hasProduction_of_sound {draft : FlatDraft} (sound : draft.Sound grammar)
    {index : Nat} (new : draft.repetitions.length ≤ index) (symbols : List SymbolRef) :
    ¬ draft.HasProduction (.repetition index) symbols := by
  rintro ⟨production, member, left, _⟩
  have inside := (sound.productions production member).1
  rw [left] at inside
  exact absurd inside (Nat.not_lt.mpr new)

/-- The productions that a repetition gets when its content has been flattened. -/
theorem closed_of_productions {opened flattened final : FlatDraft} {known : Repetition}
    {found : List Alternative} {index : Nat} (grown : GrowsTo grammar opened flattened)
    (old : index < opened.repetitions.length)
    (placed : opened.repetitions[index]? = some known)
    (none_before : ∀ symbols, ¬ opened.HasProduction (.repetition index) symbols)
    (flattens : flattened.Flattens grammar known.content (found.map Alternative.symbols))
    (change : final = { flattened with
      productions := flattened.productions ++
        found.eraseDups.map (fun alternative => ⟨.repetition index,
          { alternative with steps := { symbol := .repetition index } :: alternative.steps }⟩) ++
        found.eraseDups.map fun alternative => ⟨.repetition index, alternative⟩ }) :
    final.Closed grammar index := by
  subst change
  refine ⟨known, found.map Alternative.symbols, getElem?_of_longer grown.repetitions placed,
    flattens.mono (List.prefix_refl _) (List.prefix_refl _), ?_⟩
  intro symbols
  rw [hasProduction_append_iff (List.append_assoc ..)]
  have before : ¬ flattened.HasProduction (.repetition index) symbols := by
    rw [grown.hasProduction_iff (fun other same => by cases same; exact old)]
    exact none_before symbols
  constructor
  · rintro (known | ⟨production, member, _, rfl⟩)
    · exact absurd known before
    · simp only [List.mem_append, List.mem_map, List.mem_eraseDups] at member
      rcases member with ⟨alternative, listed, rfl⟩ | ⟨alternative, listed, rfl⟩
      · exact .inr ⟨alternative.symbols, List.mem_map_of_mem listed, rfl⟩
      · exact .inl (List.mem_map_of_mem listed)
  · rintro (listed | ⟨behind, listed, rfl⟩)
    · obtain ⟨alternative, member, rfl⟩ := List.mem_map.mp listed
      refine .inr ⟨⟨.repetition index, alternative⟩, ?_, rfl, rfl⟩
      exact List.mem_append_right _ (List.mem_map_of_mem (List.mem_eraseDups.mpr member))
    · obtain ⟨alternative, member, rfl⟩ := List.mem_map.mp listed
      refine .inr ⟨⟨.repetition index,
        { alternative with steps := { symbol := .repetition index } :: alternative.steps }⟩,
        ?_, rfl, rfl⟩
      exact List.mem_append_left _
        (List.mem_map.mpr ⟨alternative, List.mem_eraseDups.mpr member, rfl⟩)

theorem repetition_grows {rule : String} {content : Rule}
    {alternatives : FlattenM (List Alternative)}
    (flattens : FlattensTo grammar content alternatives) {draft final : FlatDraft} {index : Nat}
    (sound : draft.Sound grammar)
    (ran : (repetition rule content alternatives).run draft = .ok (index, final)) :
    GrowsTo grammar draft final ∧
      ∃ known, final.repetitions[index]? = some known ∧ known.content = content := by
  unfold repetition at ran
  obtain ⟨current, middle, got, search⟩ := run_bind_ok ran
  obtain ⟨rfl, rfl⟩ := run_get_ok got
  cases known : middle.repetitions.findIdx? fun known => known.content = content with
  | some place =>
      rw [known] at search
      obtain ⟨rfl, rfl⟩ := run_pure_ok search
      obtain ⟨bound, same, _⟩ := List.findIdx?_eq_some_iff_getElem.mp known
      exact ⟨.refl _, _, List.getElem?_eq_getElem bound, by simpa using same⟩
  | none =>
      rw [known] at search
      obtain ⟨_, opened, stored, body⟩ := run_bind_ok search
      have opening := run_set_ok stored
      obtain ⟨found, flattened, listed, rest⟩ := run_bind_ok body
      dsimp only at rest
      split at rest
      · obtain ⟨_, stopped, failed, _⟩ := run_bind_ok rest
        exact absurd failed run_fail_ok
      · obtain ⟨_, changed, modified, done⟩ := run_bind_ok rest
        have change := run_modify_ok modified
        obtain ⟨rfl, rfl⟩ := run_pure_ok done
        have longer : middle.repetitions <+: opened.repetitions := opening ▸ List.prefix_append _ _
        have length : opened.repetitions.length = middle.repetitions.length + 1 := by
          simp [opening]
        have same : opened.productions = middle.productions := by rw [opening]
        have openedSound : opened.Sound grammar :=
          (sound_of_grown opened sound (by rw [opening]; rfl) longer.length_le
            fun production member => .inl (same ▸ member)).1
        obtain ⟨grown, inner⟩ := flattens openedSound listed
        -- the content may hold the repetition again, which finds it without productions
        have placed : ∃ known, opened.repetitions[middle.repetitions.length]? = some known ∧
            known.content = content := by simp [opening]
        obtain ⟨entry, placed, rfl⟩ := placed
        have untouched : ∀ symbols,
            ¬ opened.HasProduction (.repetition middle.repetitions.length) symbols := by
          rintro symbols ⟨production, member, left⟩
          exact not_hasProduction_of_sound sound (Nat.le_refl _) symbols
            ⟨production, same ▸ member, left⟩
        have finished : final.Closed grammar middle.repetitions.length :=
          closed_of_productions grown (by omega) placed untouched inner change
        have kept : final.repetitions = flattened.repetitions := by rw [change]
        have whole : GrowsTo grammar middle final := by
          refine grown.of_repetition (by rw [opening]; rfl) longer length same (by rw [change]; rfl)
            kept (by rw [change]; exact List.append_assoc ..) ?_ finished
          intro production member
          simp only [List.mem_append, List.mem_map] at member
          rcases member with ⟨_, _, rfl⟩ | ⟨_, _, rfl⟩ <;> rfl
        exact ⟨whole, entry, getElem?_of_longer (kept ▸ grown.repetitions) placed, rfl⟩

theorem map_symbols_of_mapM_withAlias? {name : String} {named : Bool}
    {found renamed : List Alternative}
    (success : found.mapM (·.withAlias? name named) = some renamed) :
    renamed.map Alternative.symbols = found.map Alternative.symbols := by
  induction found generalizing renamed with
  | nil =>
      rw [List.mapM_nil] at success
      obtain rfl := Option.some.inj success
      rfl
  | cons alternative found ih =>
      rw [List.mapM_cons] at success
      obtain ⟨first, changed, rest⟩ := Option.bind_eq_some_iff.mp success
      obtain ⟨others, mapped, same⟩ := Option.bind_eq_some_iff.mp rest
      obtain rfl := Option.some.inj same
      rw [List.map_cons, List.map_cons, Alternative.symbols_of_withAlias? changed, ih mapped]

mutual

theorem flatten_flattens (rule : String) (body : Rule) :
    FlattensTo grammar body (flatten grammar rule body) := by
  intro draft final found sound ran
  cases body with
  | blank =>
      rw [flatten] at ran
      obtain ⟨rfl, rfl⟩ := run_pure_ok ran
      exact ⟨.refl _, .blank⟩
  | literal text =>
      rw [flatten] at ran
      obtain ⟨index, middle, interned, done⟩ := run_bind_ok ran
      obtain ⟨rfl, rfl⟩ := run_pure_ok done
      obtain ⟨grown, placed⟩ := @intern_grows grammar _ _ _ _ interned
      exact ⟨grown, .literal placed⟩
  | pattern text =>
      rw [flatten] at ran
      obtain ⟨index, middle, interned, done⟩ := run_bind_ok ran
      obtain ⟨rfl, rfl⟩ := run_pure_ok done
      obtain ⟨grown, placed⟩ := @internPattern_grows grammar _ _ _ _ _ interned
      exact ⟨grown, .pattern placed⟩
  | token body =>
      rw [flatten] at ran
      obtain ⟨text, same, lifted, rest⟩ := run_bind_ok ran
      obtain ⟨glued, rfl⟩ := run_lift_ok lifted
      obtain ⟨index, middle, interned, done⟩ := run_bind_ok rest
      obtain ⟨rfl, rfl⟩ := run_pure_ok done
      obtain ⟨grown, placed⟩ := @internPattern_grows grammar _ _ _ _ _ interned
      exact ⟨grown, .token glued placed⟩
  | keyword name =>
      rw [flatten] at ran
      split at ran
      · obtain ⟨_, middle, failed, _⟩ := run_bind_ok ran
        exact absurd failed run_fail_ok
      · obtain ⟨index, middle, interned, done⟩ := run_bind_ok ran
        obtain ⟨rfl, rfl⟩ := run_pure_ok done
        obtain ⟨grown, placed⟩ := @intern_grows grammar _ _ _ _ interned
        exact ⟨grown, .keyword placed⟩
  | symbol name =>
      rw [flatten] at ran
      obtain ⟨symbol, middle, resolved, done⟩ := run_bind_ok ran
      obtain ⟨rfl, rfl⟩ := run_pure_ok done
      exact resolve_grows resolved
  | seq items =>
      rw [flatten] at ran
      obtain ⟨grown, rest, flattens, same⟩ :=
        flattenSeq_flattens rule items sound (by simpa using hasAlternative_empty) ran
      rw [same]
      exact ⟨grown, (joinAll_empty_left rest).symm ▸ flattens⟩
  | choice items =>
      rw [flatten] at ran
      exact flattenChoice_flattens rule items sound ran
  | optional body =>
      rw [flatten] at ran
      obtain ⟨plain, middle, listed, done⟩ := run_bind_ok ran
      obtain ⟨rfl, rfl⟩ := run_pure_ok done
      obtain ⟨grown, flattens⟩ := flatten_flattens rule body sound listed
      rw [List.map_append]
      exact ⟨grown, .optional flattens⟩
  | repeat1 body =>
      rw [flatten] at ran
      obtain ⟨index, middle, entered, done⟩ := run_bind_ok ran
      obtain ⟨rfl, rfl⟩ := run_pure_ok done
      obtain ⟨grown, known, placed, rfl⟩ :=
        repetition_grows (flatten_flattens rule body) sound entered
      exact ⟨grown, .repeat1 placed⟩
  | repeat0 body =>
      rw [flatten] at ran
      obtain ⟨index, middle, entered, done⟩ := run_bind_ok ran
      obtain ⟨rfl, rfl⟩ := run_pure_ok done
      obtain ⟨grown, known, placed, rfl⟩ :=
        repetition_grows (flatten_flattens rule body) sound entered
      exact ⟨grown, .repeat0 placed⟩
  | prec value associativity body =>
      rw [flatten] at ran
      obtain ⟨plain, middle, listed, rest⟩ := run_bind_ok ran
      obtain ⟨rfl, rfl⟩ := run_pure_ok (run_check_ok rest).2
      obtain ⟨grown, flattens⟩ := flatten_flattens rule body sound listed
      refine ⟨grown, .prec ?_⟩
      simpa [List.map_map, Function.comp_def] using flattens
  | dynamicPrec value body =>
      rw [flatten] at ran
      obtain ⟨plain, middle, listed, rest⟩ := run_bind_ok ran
      obtain ⟨rfl, rfl⟩ := run_pure_ok (run_check_ok rest).2
      obtain ⟨grown, flattens⟩ := flatten_flattens rule body sound listed
      refine ⟨grown, .dynamicPrec ?_⟩
      simpa [List.map_map, Function.comp_def] using flattens
  | field name body =>
      rw [flatten] at ran
      obtain ⟨plain, middle, listed, rest⟩ := run_bind_ok ran
      obtain ⟨_, changed, modified, done⟩ := run_bind_ok rest
      have change := run_modify_ok modified
      obtain ⟨rfl, rfl⟩ := run_pure_ok done
      obtain ⟨grown, flattens⟩ := flatten_flattens rule body sound listed
      have noting : GrowsTo grammar middle final :=
        .of_keys (by rw [change]; exact List.prefix_refl _) (by rw [change]) (by rw [change])
      refine ⟨grown.trans noting, .field ?_⟩
      simpa [List.map_map, Function.comp_def] using noting.flattens flattens
  | aliased name named body =>
      rw [flatten] at ran
      obtain ⟨plain, middle, listed, rest⟩ := run_bind_ok ran
      obtain ⟨grown, flattens⟩ := flatten_flattens rule body sound listed
      split at rest
      case h_1 renamed success =>
          obtain ⟨rfl, rfl⟩ := run_pure_ok rest
          rw [map_symbols_of_mapM_withAlias? success]
          exact ⟨grown, .aliased flattens⟩
      case h_2 => exact absurd rest run_fail_ok
  | immediate body =>
      rw [flatten] at ran
      obtain ⟨plain, middle, listed, mapped⟩ := run_bind_ok ran
      obtain ⟨grown, flattens⟩ := flatten_flattens rule body sound listed
      obtain ⟨more, twins⟩ := @mapM_immediate_grows grammar _ _ _ _ _ mapped
      exact ⟨grown.trans more, .immediate (more.flattens flattens) twins⟩

theorem flattenSeq_flattens (rule : String) (items : List Rule) {before : List Alternative}
    {draft final : FlatDraft} {found : List Alternative} (sound : draft.Sound grammar)
    (entered : ∀ alternative ∈ before, draft.HasAlternative grammar alternative)
    (ran : (flattenSeq grammar rule before items).run draft = .ok (found, final)) :
    GrowsTo grammar draft final ∧ ∃ rest, final.Flattens grammar (.seq items) rest ∧
      found.map Alternative.symbols = joinAll (before.map Alternative.symbols) rest := by
  cases items with
  | nil =>
      rw [flattenSeq] at ran
      obtain ⟨rfl, rfl⟩ := run_pure_ok ran
      exact ⟨.refl _, [[]], .seqNil, (joinAll_empty_right _).symm⟩
  | cons item items =>
      rw [flattenSeq] at ran
      obtain ⟨plain, middle, listed, rest⟩ := run_bind_ok ran
      obtain ⟨kept, longer, has⟩ := flatten_ok rule item sound listed
      obtain ⟨grown, first⟩ := flatten_flattens rule item sound listed
      obtain ⟨more, behind, others, same⟩ := flattenSeq_flattens rule items kept
        (hasAlternative_append (fun alternative member =>
          longer.hasAlternative (entered alternative member)) has) rest
      refine ⟨grown.trans more, _, .seqCons (more.flattens first) others, ?_⟩
      rw [same, map_symbols_appendAll, joinAll_assoc]

theorem flattenChoice_flattens (rule : String) (items : List Rule) {draft final : FlatDraft}
    {found : List Alternative} (sound : draft.Sound grammar)
    (ran : (flattenChoice grammar rule items).run draft = .ok (found, final)) :
    GrowsTo grammar draft final ∧
      final.Flattens grammar (.choice items) (found.map Alternative.symbols) := by
  cases items with
  | nil =>
      rw [flattenChoice] at ran
      obtain ⟨rfl, rfl⟩ := run_pure_ok ran
      exact ⟨.refl _, .choiceNil⟩
  | cons item items =>
      rw [flattenChoice] at ran
      obtain ⟨plain, middle, listed, rest⟩ := run_bind_ok ran
      obtain ⟨others, last, behind, done⟩ := run_bind_ok rest
      obtain ⟨rfl, rfl⟩ := run_pure_ok done
      obtain ⟨kept, _, _⟩ := flatten_ok rule item sound listed
      obtain ⟨grown, first⟩ := flatten_flattens rule item sound listed
      obtain ⟨more, second⟩ := flattenChoice_flattens rule items kept behind
      rw [List.map_append]
      exact ⟨grown.trans more, .choiceCons (more.flattens first) second⟩

end

end FlattenM

end Lalr
