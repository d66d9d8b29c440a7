import Lalr.Proofs.FlatGrammar.Language
import Lalr.Proofs.FlatGrammar.Recognition

set_option autoImplicit false

/-!
Grammars as they are written. The symbol sequences that rules and repetitions stand for, with the
precedences on their symbols, can be read off the rules; flattening enters these sequences as
productions, and no others.
-/

namespace Lalr

/-- A symbol by what it stands for: the key of a terminal, the name of a rule, or the expression
that a repetition repeats. -/
inductive WrittenSymbol where
  | terminal (key : TerminalKey)
  | rule (name : String)
  | repetition (content : Rule)
deriving DecidableEq, Repr

/-- One symbol of a sequence and what settles conflicts at it. -/
structure WrittenStep where
  symbol : WrittenSymbol
  precedence : Option Int32 := none
  associativity : Option Associativity := none
deriving DecidableEq, Repr

/-- A symbol and one of the sequences it stands for. -/
structure WrittenProduction where
  lhs : WrittenSymbol
  steps : List WrittenStep
deriving DecidableEq, Repr

/-- The symbols of a production, without the marks on them. -/
def WrittenProduction.symbols (production : WrittenProduction) : List WrittenSymbol :=
  production.steps.map WrittenStep.symbol

namespace WrittenStep

/-- Marks a step that has no precedence yet. -/
def withPrecedence (value : Int32) (associativity : Option Associativity) (step : WrittenStep) :
    WrittenStep :=
  if step.precedence.isNone then
    { step with precedence := some value, associativity := associativity }
  else step

/-- Replaces a terminal by its immediate twin. -/
def immediate (step : WrittenStep) : WrittenStep :=
  match step.symbol with
  | .terminal key => { step with symbol := .terminal (.immediate key) }
  | _ => step

end WrittenStep

namespace Rule

mutual

/-- The expressions that are repeated somewhere in an expression. -/
def repeated : Rule → List Rule
  | .blank => []
  | .literal _ => []
  | .pattern _ => []
  | .token _ => []
  | .keyword _ => []
  | .symbol _ => []
  | .seq items => repeatedOf items
  | .choice items => repeatedOf items
  | .optional body => body.repeated
  | .repeat0 body => body :: body.repeated
  | .repeat1 body => body :: body.repeated
  | .prec _ _ body => body.repeated
  | .dynamicPrec _ body => body.repeated
  | .field _ body => body.repeated
  | .aliased _ _ body => body.repeated
  | .immediate body => body.repeated

/-- The expressions that are repeated somewhere in several expressions. -/
def repeatedOf : List Rule → List Rule
  | [] => []
  | item :: items => item.repeated ++ repeatedOf items

end

end Rule

namespace Grammar

/-- What a name stands for. -/
def writtenSymbol (grammar : Grammar) (name : String) : WrittenSymbol :=
  if name ∈ grammar.syntacticRules then .rule name
  else if (grammar.rule? name).isSome then .terminal (.named name)
  else .terminal (.external name)

mutual

/-- The sequences that an expression stands for. -/
def written (grammar : Grammar) : Rule → List (List WrittenStep)
  | .blank => [[]]
  | .literal text => [[{ symbol := .terminal (.literal text) }]]
  | .pattern text => [[{ symbol := .terminal (.pattern text) }]]
  | .token body => [[{ symbol := .terminal (.pattern ((body.patternText "").toOption.getD "")) }]]
  | .keyword name => [[{ symbol := .terminal (.keyword name) }]]
  | .symbol name => [[{ symbol := grammar.writtenSymbol name }]]
  | .seq items => writtenSeq grammar items
  | .choice items => writtenChoice grammar items
  | .optional body => written grammar body ++ [[]]
  | .repeat0 body => [[{ symbol := .repetition body }], []]
  | .repeat1 body => [[{ symbol := .repetition body }]]
  | .prec value associativity body =>
      (written grammar body).map (List.map (·.withPrecedence value associativity))
  | .dynamicPrec _ body => written grammar body
  | .field _ body => written grammar body
  | .aliased _ _ body => written grammar body
  | .immediate body => (written grammar body).map (List.map WrittenStep.immediate)

/-- The sequences of several expressions one behind the other. -/
def writtenSeq (grammar : Grammar) : List Rule → List (List WrittenStep)
  | [] => [[]]
  | item :: items => joinAll (written grammar item) (writtenSeq grammar items)

/-- The sequences of several expressions. -/
def writtenChoice (grammar : Grammar) : List Rule → List (List WrittenStep)
  | [] => []
  | item :: items => written grammar item ++ writtenChoice grammar items

end

/-- The sequences of a repetition: what it repeats, behind itself or alone. -/
def writtenRepetition (grammar : Grammar) (content : Rule) : List (List WrittenStep) :=
  (grammar.written content).map ({ symbol := .repetition content } :: ·) ++ grammar.written content

/-- The expressions that are repeated somewhere in the rules. -/
def repeated (grammar : Grammar) : List Rule :=
  grammar.syntacticEntries.flatMap fun entry => entry.2.repeated

/-- The symbols of a grammar with the sequences they stand for. -/
def writtenProductions (grammar : Grammar) : List WrittenProduction :=
  (grammar.syntacticEntries.flatMap fun entry =>
      (grammar.written entry.2).map (WrittenProduction.mk (.rule entry.1))) ++
    grammar.repeated.flatMap fun content =>
      (grammar.writtenRepetition content).map (WrittenProduction.mk (.repetition content))

variable {grammar : Grammar}

theorem mem_writtenProductions_iff {symbol : WrittenSymbol} {steps : List WrittenStep} :
    ⟨symbol, steps⟩ ∈ grammar.writtenProductions ↔
      (∃ name body, symbol = .rule name ∧ (name, body) ∈ grammar.syntacticEntries ∧
        steps ∈ grammar.written body) ∨
      ∃ content, symbol = .repetition content ∧ content ∈ grammar.repeated ∧
        steps ∈ grammar.writtenRepetition content := by
  simp only [writtenProductions, List.mem_append, List.mem_flatMap, List.mem_map,
    WrittenProduction.mk.injEq, Prod.exists, eq_comm (b := symbol)]
  grind

end Grammar

namespace FlatDraft

variable {grammar : Grammar} {draft before after : FlatDraft}

/-- What a symbol of a draft stands for. -/
def symbol? (grammar : Grammar) (draft : FlatDraft) : SymbolRef → Option WrittenSymbol
  | .terminal index => (draft.keys[index]?).map .terminal
  | .rule index => (grammar.syntacticRules[index]?).map .rule
  | .repetition index => (draft.repetitions[index]?).map fun known => .repetition known.content

/-- A step of a draft is one that was written. -/
structure Writes (grammar : Grammar) (draft : FlatDraft) (step : DraftStep)
    (written : WrittenStep) : Prop where
  symbol : draft.symbol? grammar step.symbol = some written.symbol
  precedence : step.precedence = written.precedence
  associativity : step.associativity = written.associativity

/-- A sequence of a draft is one that was written. -/
def WritesAll (grammar : Grammar) (draft : FlatDraft) (alternative : Alternative)
    (steps : List WrittenStep) : Prop :=
  List.Forall₂ (draft.Writes grammar) alternative.steps steps

/-- All productions of a draft were written. -/
def AllWritten (grammar : Grammar) (draft : FlatDraft) : Prop :=
  ∀ production ∈ draft.productions, ∃ entry ∈ grammar.writtenProductions,
    draft.symbol? grammar production.lhs = some entry.lhs ∧
      draft.WritesAll grammar production.alternative entry.steps

theorem symbol?_mono (keys : before.keys <+: after.keys)
    (repetitions : before.repetitions <+: after.repetitions) {symbol : SymbolRef}
    {written : WrittenSymbol} (named : before.symbol? grammar symbol = some written) :
    after.symbol? grammar symbol = some written := by
  cases symbol with
  | terminal index =>
      obtain ⟨key, placed, rfl⟩ := Option.map_eq_some_iff.mp named
      simp only [symbol?, getElem?_of_longer keys placed, Option.map_some]
  | rule index => exact named
  | repetition index =>
      obtain ⟨known, placed, rfl⟩ := Option.map_eq_some_iff.mp named
      simp only [symbol?, getElem?_of_longer repetitions placed, Option.map_some]

theorem WritesAll.mono (keys : before.keys <+: after.keys)
    (repetitions : before.repetitions <+: after.repetitions) {alternative : Alternative}
    {steps : List WrittenStep} (writes : before.WritesAll grammar alternative steps) :
    after.WritesAll grammar alternative steps :=
  List.Forall₂.imp (fun _ _ each =>
    ⟨symbol?_mono keys repetitions each.symbol, each.precedence, each.associativity⟩) writes

theorem AllWritten.grow (written : before.AllWritten grammar) (keys : before.keys <+: after.keys)
    (repetitions : before.repetitions <+: after.repetitions)
    (added : ∀ production ∈ after.productions, production ∈ before.productions ∨
      ∃ entry ∈ grammar.writtenProductions,
        after.symbol? grammar production.lhs = some entry.lhs ∧
          after.WritesAll grammar production.alternative entry.steps) :
    after.AllWritten grammar := by
  intro production member
  rcases added production member with old | new
  · obtain ⟨entry, listed, lhs, steps⟩ := written production old
    exact ⟨entry, listed, symbol?_mono keys repetitions lhs, steps.mono keys repetitions⟩
  · exact new

theorem AllWritten.of_same (written : before.AllWritten grammar)
    (grown : GrowsTo grammar before after) (same : after.productions = before.productions) :
    after.AllWritten grammar :=
  written.grow grown.keys grown.repetitions fun _ member => .inl (same ▸ member)

/-- All productions of a draft were written, and every sequence that was written for one of the
first rules has become a production. -/
structure Entered (grammar : Grammar) (draft : FlatDraft) (count : Nat) : Prop where
  written : draft.AllWritten grammar
  rules : ∀ index < count, ∀ name body, grammar.syntacticEntries[index]? = some (name, body) →
    ∀ steps ∈ grammar.written body, ∃ production ∈ draft.productions,
      production.lhs = .rule index ∧ draft.WritesAll grammar production.alternative steps

theorem Entered.grow {count : Nat} (entered : before.Entered grammar count)
    (grown : GrowsTo grammar before after) (written : after.AllWritten grammar) :
    after.Entered grammar count where
  written := written
  rules := by
    intro index bound name body entry steps listed
    obtain ⟨production, member, lhs, writes⟩ := entered.rules index bound name body entry steps listed
    obtain ⟨_, split, _⟩ := grown.productions
    exact ⟨production, split ▸ List.mem_append_left _ member, lhs,
      writes.mono grown.keys grown.repetitions⟩

theorem symbol?_rule {index : Nat} {name : String} {body : Rule}
    (entry : grammar.syntacticEntries[index]? = some (name, body)) :
    draft.symbol? grammar (.rule index) = some (.rule name) := by
  have listed : grammar.syntacticRules[index]? = some name := by
    rw [show grammar.syntacticRules = grammar.syntacticEntries.map Prod.fst from rfl,
      List.getElem?_map, entry]
    rfl
  simp only [symbol?, listed, Option.map_some]

theorem Entered.next {final : FlatDraft} {index : Nat} (entered : draft.Entered grammar index)
    {name : String} {body : Rule} (entry : grammar.syntacticEntries[index]? = some (name, body))
    {found : List Alternative}
    (writes : List.Forall₂ (draft.WritesAll grammar) found (grammar.written body))
    (change : final = { draft with
      productions := draft.productions ++
        found.eraseDups.map fun alternative => ⟨.rule index, alternative⟩ }) :
    final.Entered grammar (index + 1) := by
  have keys : draft.keys <+: final.keys := change ▸ List.prefix_refl _
  have repetitions : draft.repetitions <+: final.repetitions := change ▸ List.prefix_refl _
  have productions : ∀ production, production ∈ final.productions ↔
      production ∈ draft.productions ∨
        ∃ alternative ∈ found, production = ⟨.rule index, alternative⟩ := by
    intro production
    simp [change, eq_comm]
  constructor
  · refine entered.written.grow keys repetitions fun production member => ?_
    refine ((productions production).mp member).imp_right ?_
    rintro ⟨alternative, inside, rfl⟩
    obtain ⟨steps, listed, each⟩ := exists_of_mem_forall₂ writes.flip inside
    exact ⟨_, Grammar.mem_writtenProductions_iff.mpr
        (.inl ⟨name, body, rfl, List.mem_of_getElem? entry, listed⟩),
      symbol?_rule entry, WritesAll.mono keys repetitions each⟩
  · intro place bound otherName otherBody listed steps member
    rcases Nat.lt_succ_iff_lt_or_eq.mp bound with early | rfl
    · obtain ⟨production, old, lhs, each⟩ :=
        entered.rules place early otherName otherBody listed steps member
      exact ⟨production, (productions production).mpr (.inl old), lhs,
        each.mono keys repetitions⟩
    · obtain ⟨rfl, rfl⟩ := Prod.mk.inj (Option.some.inj (listed.symm.trans entry))
      obtain ⟨alternative, inside, each⟩ := exists_of_mem_forall₂ writes member
      exact ⟨_, (productions _).mpr (.inr ⟨alternative, inside, rfl⟩), rfl,
        WritesAll.mono keys repetitions each⟩

/-! ## Sequences -/

theorem writesAll_single {symbol : SymbolRef} {written : WrittenSymbol}
    (named : draft.symbol? grammar symbol = some written) :
    draft.WritesAll grammar (.single symbol) [{ symbol := written }] :=
  .cons ⟨named, rfl, rfl⟩ .nil

theorem WritesAll.withPrecedence {alternative : Alternative} {steps : List WrittenStep}
    (writes : draft.WritesAll grammar alternative steps) (value : Int32)
    (associativity : Option Associativity) :
    draft.WritesAll grammar (alternative.withPrecedence value associativity)
      (steps.map (·.withPrecedence value associativity)) := by
  refine List.rel_map (fun step written each => ?_) writes
  simp only [WrittenStep.withPrecedence, ← each.precedence]
  split
  · exact ⟨each.symbol, rfl, rfl⟩
  · exact each

theorem WritesAll.withField {alternative : Alternative} {steps : List WrittenStep}
    (writes : draft.WritesAll grammar alternative steps) (name : String) :
    draft.WritesAll grammar (alternative.withField name) steps := by
  refine List.forall₂_map_left_iff.mpr (writes.imp fun step written each => ?_)
  split
  · exact ⟨each.symbol, each.precedence, each.associativity⟩
  · exact each

theorem WritesAll.withAlias? {name : String} {named : Bool} {alternative renamed : Alternative}
    {steps : List WrittenStep} (writes : draft.WritesAll grammar alternative steps)
    (success : alternative.withAlias? name named = some renamed) :
    draft.WritesAll grammar renamed steps := by
  unfold Alternative.withAlias? at success
  split at success
  case h_1 step single =>
      obtain rfl := Option.some.inj success
      rw [WritesAll, single] at writes
      cases writes with
      | cons each rest =>
          cases rest
          exact .cons ⟨each.symbol, each.precedence, each.associativity⟩ .nil
  case h_2 => cases success

theorem writesAll_appendAll {first second : List Alternative}
    {before behind : List (List WrittenStep)}
    (left : List.Forall₂ (draft.WritesAll grammar) first before)
    (right : List.Forall₂ (draft.WritesAll grammar) second behind) :
    List.Forall₂ (draft.WritesAll grammar) (appendAll first second) (joinAll before behind) := by
  refine List.rel_flatMap left fun alternative steps early => ?_
  refine List.rel_map (fun other more late => ?_) right
  show List.Forall₂ _ (alternative.steps ++ other.steps) (steps ++ more)
  exact List.rel_append early late

end FlatDraft

/-! ## Flattening -/

namespace FlattenM

open FlatDraft

variable {grammar : Grammar}

section terminals

variable {invariant : FlatDraft → Prop}
  (indifferent : ∀ draft terminals owners, invariant draft →
    invariant { draft with terminals := terminals, patternOwners := owners })

include indifferent

theorem keeps_intern_of_indifferent (terminal : Terminal) :
    Keeps invariant (intern terminal) := by
  intro draft final index holds ran
  rcases intern_cases ran with ⟨rfl, _⟩ | ⟨rfl, _⟩
  · exact holds
  · exact indifferent draft _ _ holds

theorem keeps_internRule_of_indifferent (name : String) (body : Rule) :
    Keeps invariant (internRule name body) := by
  intro draft final index holds ran
  unfold internRule at ran
  obtain ⟨current, middle, got, rest⟩ := run_bind_ok ran
  obtain ⟨rfl, rfl⟩ := run_get_ok got
  split at rest
  · exact Keeps.pure _ _ _ _ holds rest
  · exact ((Keeps.lift _).bind fun _ => keeps_intern_of_indifferent indifferent _) _ _ _ holds rest

theorem keeps_internPattern_of_indifferent (rule text : String) :
    Keeps invariant (internPattern rule text) := by
  intro draft final index holds ran
  unfold internPattern at ran
  obtain ⟨_, _, lifted, search⟩ := run_bind_ok ran
  obtain ⟨_, rfl⟩ := run_lift_ok lifted
  obtain ⟨current, middle, got, rest⟩ := run_bind_ok search
  obtain ⟨rfl, rfl⟩ := run_get_ok got
  split at rest
  · exact Keeps.pure _ _ _ _ holds rest
  · obtain ⟨_, counted, stored, interned⟩ := run_bind_ok rest
    obtain rfl := run_set_ok stored
    exact keeps_intern_of_indifferent indifferent _ _ _ _ (indifferent _ _ _ holds) interned

theorem keeps_resolve_of_indifferent (rule name : String) :
    Keeps invariant (resolve grammar rule name) := by
  unfold resolve
  split
  · exact .pure _
  · rw [map_eq_pure_bind]
    exact (keeps_internRule_of_indifferent indifferent _ _).bind fun _ => .pure _
  · intro draft final result holds ran
    obtain ⟨current, middle, got, rest⟩ := run_bind_ok ran
    obtain ⟨rfl, rfl⟩ := run_get_ok got
    split at rest
    · exact Keeps.pure _ _ _ _ holds rest
    · exact absurd rest run_fail_ok

theorem keeps_immediate_of_indifferent (rule : String) (alternative : Alternative) :
    Keeps invariant (immediate rule alternative) := by
  unfold immediate
  split
  case h_2 => exact .fail _
  case h_1 =>
      intro draft final result holds ran
      obtain ⟨current, middle, got, rest⟩ := run_bind_ok ran
      obtain ⟨rfl, rfl⟩ := run_get_ok got
      split at rest
      · exact absurd rest run_fail_ok
      · split at rest
        · exact absurd rest run_fail_ok
        · exact ((keeps_intern_of_indifferent indifferent _).bind fun _ => .pure _) _ _ _ holds rest

theorem keeps_enterExtra_of_indifferent (extra : Rule) :
    Keeps invariant (enterExtra grammar extra) := by
  have marks (index : Nat) : Keeps invariant (modify fun draft : FlatDraft => { draft with
      terminals := draft.terminals.modify index fun terminal =>
        { terminal with extra := true } } : FlattenM Unit) :=
    .modify fun draft holds => indifferent draft _ _ holds
  unfold enterExtra
  dsimp only
  split
  · split
    · split
      · exact (keeps_internRule_of_indifferent indifferent _ _).bind marks
      · exact (Keeps.fail _).bind marks
    · exact (Keeps.fail _).bind marks
  · exact (keeps_intern_of_indifferent indifferent _).bind marks
  · exact (keeps_internPattern_of_indifferent indifferent _ _).bind marks
  · exact (Keeps.fail _).bind marks

theorem keeps_enterFixedTerminals_of_indifferent :
    Keeps invariant (enterFixedTerminals grammar) := by
  have behindWord : Keeps invariant (do
      grammar.externals.forM fun name => do
        let _ ← intern (.ofExternal name)
      grammar.extras.forM (enterExtra grammar)) :=
    (Keeps.forM fun _ _ => (keeps_intern_of_indifferent indifferent _).bind fun _ => .pure _).bind
      fun _ => .forM fun extra _ => keeps_enterExtra_of_indifferent indifferent extra
  unfold enterFixedTerminals
  refine (keeps_intern_of_indifferent indifferent _).bind fun _ => ?_
  split
  · exact behindWord
  · split
    · exact (Keeps.fail _).bind fun _ => behindWord
    · exact (keeps_internRule_of_indifferent indifferent _ _).bind fun _ => behindWord

end terminals

/-- An action that leaves the productions as they are and only enters what it needs keeps all of
them written. -/
theorem allWritten_of_keeps {α : Type} {action : FlattenM α} {draft final : FlatDraft} {result : α}
    (written : draft.AllWritten grammar) (grown : GrowsTo grammar draft final)
    (keeps : ∀ productions, Keeps (fun draft => draft.productions = productions) action)
    (ran : action.run draft = .ok (result, final)) : final.AllWritten grammar :=
  written.of_same grown (keeps draft.productions _ _ _ rfl ran)

/-- An action that gives the sequences of an expression as they were written. -/
def Writing (grammar : Grammar) (sequences : List (List WrittenStep))
    (action : FlattenM (List Alternative)) : Prop :=
  ∀ {draft final : FlatDraft} {found : List Alternative}, draft.Sound grammar →
    draft.AllWritten grammar → action.run draft = .ok (found, final) →
    final.AllWritten grammar ∧ List.Forall₂ (final.WritesAll grammar) found sequences

theorem writing_terminal {action : FlattenM Nat} {key : TerminalKey}
    (grows : ∀ {draft final index}, action.run draft = .ok (index, final) →
      GrowsTo grammar draft final ∧ final.keys[index]? = some key)
    (keeps : ∀ productions, Keeps (fun draft => draft.productions = productions) action) :
    Writing grammar [[{ symbol := .terminal key }]]
      (action >>= fun index => pure [.single (.terminal index)]) := by
  intro draft final found sound written ran
  obtain ⟨index, middle, interned, done⟩ := run_bind_ok ran
  obtain ⟨rfl, rfl⟩ := run_pure_ok done
  obtain ⟨grown, placed⟩ := grows interned
  refine ⟨allWritten_of_keeps written grown keeps interned, .cons (writesAll_single ?_) .nil⟩
  simp only [symbol?, placed, Option.map_some]

theorem writing_symbol (rule name : String) :
    Writing grammar [[{ symbol := grammar.writtenSymbol name }]]
      (resolve grammar rule name >>= fun symbol => pure [.single symbol]) := by
  intro draft final found sound written ran
  obtain ⟨symbol, middle, resolved, done⟩ := run_bind_ok ran
  obtain ⟨rfl, rfl⟩ := run_pure_ok done
  obtain ⟨grown, flattens⟩ := resolve_grows resolved
  refine ⟨allWritten_of_keeps written grown
    (fun _ => keeps_resolve_of_indifferent (fun _ _ _ => id) rule name) resolved,
    .cons (writesAll_single ?_) .nil⟩
  -- the three kinds of names, in the order in which they are looked up
  have absent : grammar.syntacticRules.idxOf? name = none → name ∉ grammar.syntacticRules :=
    List.idxOf?_eq_none_iff.mp
  generalize shape : [[symbol]] = sequences at flattens
  cases flattens with
  | syntactic known =>
      obtain rfl : symbol = _ := by simpa using shape
      obtain ⟨bound, rfl, _⟩ := List.idxOf?_eq_some_iff.mp known
      simp [symbol?, Grammar.writtenSymbol]
  | lexical unknown known placed =>
      obtain rfl : symbol = _ := by simpa using shape
      simp [symbol?, Grammar.writtenSymbol, absent unknown, known, placed]
  | external unknown undefined placed =>
      obtain rfl : symbol = _ := by simpa using shape
      simp [symbol?, Grammar.writtenSymbol, absent unknown, undefined, placed]

theorem writes_repetition {rule : String} {content : Rule}
    {alternatives : FlattenM (List Alternative)}
    (flattens : FlattensTo grammar content alternatives)
    (writing : Writing grammar (grammar.written content) alternatives)
    (listed : content ∈ grammar.repeated) {draft final : FlatDraft} {index : Nat}
    (sound : draft.Sound grammar) (written : draft.AllWritten grammar)
    (ran : (repetition rule content alternatives).run draft = .ok (index, final)) :
    final.AllWritten grammar ∧
      final.symbol? grammar (.repetition index) = some (.repetition content) := by
  obtain ⟨grown, known, placed, rfl⟩ := repetition_grows flattens sound ran
  refine ⟨?_, by simp only [symbol?, placed, Option.map_some]⟩
  unfold repetition at ran
  obtain ⟨current, middle, got, search⟩ := run_bind_ok ran
  obtain ⟨rfl, rfl⟩ := run_get_ok got
  split at search
  case h_1 =>
      obtain ⟨rfl, rfl⟩ := run_pure_ok search
      exact written
  case h_2 =>
      obtain ⟨_, opened, stored, body⟩ := run_bind_ok search
      have opening := run_set_ok stored
      obtain ⟨found, flattened, inside, rest⟩ := run_bind_ok body
      dsimp only at rest
      split at rest
      · obtain ⟨_, stopped, failed, _⟩ := run_bind_ok rest
        exact absurd failed run_fail_ok
      obtain ⟨_, changed, modified, done⟩ := run_bind_ok rest
      have change := run_modify_ok modified
      obtain ⟨rfl, rfl⟩ := run_pure_ok done
      have longer : middle.repetitions <+: opened.repetitions := opening ▸ List.prefix_append _ _
      have openedSound : opened.Sound grammar :=
        (sound_of_grown opened sound (by rw [opening]; rfl) longer.length_le
          fun production member => .inl (by rwa [opening] at member)).1
      have openedWritten : opened.AllWritten grammar :=
        written.grow (by rw [opening]; exact List.prefix_refl _) longer
          fun _ member => .inl (by rwa [opening] at member)
      obtain ⟨kept, sequences⟩ := writing openedSound openedWritten inside
      have keys : flattened.keys <+: final.keys := by rw [change]; exact List.prefix_refl _
      have repetitions : flattened.repetitions <+: final.repetitions := by rw [change]
      have named : final.symbol? grammar (.repetition middle.repetitions.length) =
          some (.repetition known.content) := by
        simp only [symbol?, placed, Option.map_some]
      have productions (steps : List WrittenStep)
          (here : steps ∈ grammar.writtenRepetition known.content) :
          ⟨.repetition known.content, steps⟩ ∈ grammar.writtenProductions :=
        Grammar.mem_writtenProductions_iff.mpr (.inr ⟨_, rfl, listed, here⟩)
      refine kept.grow keys repetitions fun production member => ?_
      rw [change] at member
      simp only [List.mem_append, List.mem_map, List.mem_eraseDups] at member
      rcases member with (old | ⟨alternative, member, rfl⟩) | ⟨alternative, member, rfl⟩
      · exact .inl old
      · obtain ⟨steps, inBody, writes⟩ := exists_of_mem_forall₂ sequences.flip member
        refine .inr ⟨_, productions _ (List.mem_append_left _ (List.mem_map_of_mem inBody)), named,
          .cons ⟨named, rfl, rfl⟩ (WritesAll.mono keys repetitions writes)⟩
      · obtain ⟨steps, inBody, writes⟩ := exists_of_mem_forall₂ sequences.flip member
        exact .inr ⟨_, productions _ (List.mem_append_right _ inBody), named,
          WritesAll.mono keys repetitions writes⟩

theorem writes_immediate {rule : String} {alternative twin : Alternative}
    {steps : List WrittenStep} {draft final : FlatDraft}
    (ran : (immediate rule alternative).run draft = .ok (twin, final))
    (writes : draft.WritesAll grammar alternative steps) :
    final.WritesAll grammar twin (steps.map WrittenStep.immediate) := by
  unfold immediate at ran
  split at ran
  case h_2 => exact absurd ran run_fail_ok
  case h_1 index precedence associativity field shownAs single =>
      obtain ⟨current, middle, got, rest⟩ := run_bind_ok ran
      obtain ⟨rfl, rfl⟩ := run_get_ok got
      split at rest
      case h_1 => exact absurd rest run_fail_ok
      case h_2 base found =>
          split at rest
          case isTrue => exact absurd rest run_fail_ok
          case isFalse =>
              obtain ⟨place, entered, interned, done⟩ := run_bind_ok rest
              obtain ⟨rfl, rfl⟩ := run_pure_ok done
              obtain ⟨_, placed⟩ := @intern_grows grammar _ _ _ _ interned
              rw [WritesAll, single] at writes
              cases writes with
              | @cons _ step _ _ each rest =>
                  cases rest
                  have key : step.symbol = .terminal base.key := by
                    simpa [symbol?, FlatDraft.keys, found, eq_comm] using each.symbol
                  refine .cons ⟨?_, ?_, ?_⟩ .nil
                  · simp only [symbol?, placed, Option.map_some, WrittenStep.immediate, key]
                    rfl
                  · simpa only [WrittenStep.immediate, key] using each.precedence
                  · simpa only [WrittenStep.immediate, key] using each.associativity

theorem writes_mapM_immediate {rule : String} {found twins : List Alternative}
    {sequences : List (List WrittenStep)} {draft final : FlatDraft}
    (ran : (found.mapM (immediate rule)).run draft = .ok (twins, final))
    (writes : List.Forall₂ (draft.WritesAll grammar) found sequences) :
    List.Forall₂ (final.WritesAll grammar) twins
      (sequences.map (List.map WrittenStep.immediate)) := by
  induction found generalizing draft twins sequences with
  | nil =>
      cases writes
      rw [List.mapM_nil] at ran
      obtain ⟨rfl, rfl⟩ := run_pure_ok ran
      exact .nil
  | cons alternative found ih =>
      rw [List.mapM_cons] at ran
      obtain ⟨twin, middle, first, others⟩ := run_bind_ok ran
      obtain ⟨more, last, mapped, done⟩ := run_bind_ok others
      obtain ⟨rfl, rfl⟩ := run_pure_ok done
      have grown := (@immediate_grows grammar _ _ _ _ _ first).1
      have later := (@mapM_immediate_grows grammar _ _ _ _ _ mapped).1
      cases writes with
      | cons each rest =>
          have kept : List.Forall₂ (middle.WritesAll grammar) found _ :=
            rest.imp fun _ _ here => WritesAll.mono grown.keys grown.repetitions here
          exact .cons (WritesAll.mono later.keys later.repetitions (writes_immediate first each))
            (ih mapped kept)

theorem writes_mapM_withAlias? {name : String} {named : Bool} {found renamed : List Alternative}
    {sequences : List (List WrittenStep)} {draft : FlatDraft}
    (success : found.mapM (·.withAlias? name named) = some renamed)
    (writes : List.Forall₂ (draft.WritesAll grammar) found sequences) :
    List.Forall₂ (draft.WritesAll grammar) renamed sequences := by
  induction writes generalizing renamed with
  | nil =>
      rw [List.mapM_nil] at success
      obtain rfl := Option.some.inj success
      exact .nil
  | cons each _ ih =>
      rw [List.mapM_cons] at success
      obtain ⟨first, changed, rest⟩ := Option.bind_eq_some_iff.mp success
      obtain ⟨others, mapped, same⟩ := Option.bind_eq_some_iff.mp rest
      obtain rfl := Option.some.inj same
      exact .cons (WritesAll.withAlias? each changed) (ih mapped)

mutual

theorem flatten_writes (rule : String) (body : Rule) (inside : body.repeated ⊆ grammar.repeated) :
    Writing grammar (grammar.written body) (flatten grammar rule body) := by
  intro draft final found sound written ran
  cases body with
  | blank =>
      rw [flatten] at ran
      obtain ⟨rfl, rfl⟩ := run_pure_ok ran
      exact ⟨written, .cons .nil .nil⟩
  | literal text =>
      rw [flatten] at ran
      exact writing_terminal intern_grows
        (fun _ => keeps_intern_of_indifferent (fun _ _ _ => id) _) sound written ran
  | pattern text =>
      rw [flatten] at ran
      exact writing_terminal internPattern_grows
        (fun _ => keeps_internPattern_of_indifferent (fun _ _ _ => id) rule text) sound written ran
  | token body =>
      rw [flatten] at ran
      obtain ⟨text, _, lifted, rest⟩ := run_bind_ok ran
      obtain ⟨glued, rfl⟩ := run_lift_ok lifted
      rw [Grammar.written, Rule.patternText_of_ok glued]
      exact writing_terminal internPattern_grows
        (fun _ => keeps_internPattern_of_indifferent (fun _ _ _ => id) rule text) sound written rest
  | keyword name =>
      rw [flatten] at ran
      split at ran
      · obtain ⟨_, middle, failed, _⟩ := run_bind_ok ran
        exact absurd failed run_fail_ok
      · exact writing_terminal intern_grows
          (fun _ => keeps_intern_of_indifferent (fun _ _ _ => id) _) sound written ran
  | symbol name =>
      rw [flatten] at ran
      exact writing_symbol rule name sound written ran
  | seq items =>
      rw [flatten] at ran
      have start : List.Forall₂ (draft.WritesAll grammar) [.empty] [[]] := .cons .nil .nil
      have done := flattenSeq_writes rule items inside sound written start ran
      rwa [joinAll_empty_left] at done
  | choice items =>
      rw [flatten] at ran
      exact flattenChoice_writes rule items inside sound written ran
  | optional body =>
      rw [flatten] at ran
      obtain ⟨plain, middle, listed, done⟩ := run_bind_ok ran
      obtain ⟨rfl, rfl⟩ := run_pure_ok done
      obtain ⟨kept, writes⟩ := flatten_writes rule body inside sound written listed
      exact ⟨kept, List.rel_append writes (.cons .nil .nil)⟩
  | repeat1 body =>
      rw [flatten] at ran
      obtain ⟨index, middle, entered, done⟩ := run_bind_ok ran
      obtain ⟨rfl, rfl⟩ := run_pure_ok done
      obtain ⟨here, below⟩ := List.cons_subset.mp inside
      obtain ⟨kept, named⟩ := writes_repetition (flatten_flattens rule body)
        (flatten_writes rule body below) here sound written entered
      exact ⟨kept, .cons (writesAll_single named) .nil⟩
  | repeat0 body =>
      rw [flatten] at ran
      obtain ⟨index, middle, entered, done⟩ := run_bind_ok ran
      obtain ⟨rfl, rfl⟩ := run_pure_ok done
      obtain ⟨here, below⟩ := List.cons_subset.mp inside
      obtain ⟨kept, named⟩ := writes_repetition (flatten_flattens rule body)
        (flatten_writes rule body below) here sound written entered
      exact ⟨kept, .cons (writesAll_single named) (.cons .nil .nil)⟩
  | prec value associativity body =>
      rw [flatten] at ran
      obtain ⟨plain, middle, listed, rest⟩ := run_bind_ok ran
      obtain ⟨rfl, rfl⟩ := run_pure_ok (run_check_ok rest).2
      obtain ⟨kept, writes⟩ := flatten_writes rule body inside sound written listed
      exact ⟨kept, List.rel_map (fun _ _ each => each.withPrecedence value associativity) writes⟩
  | dynamicPrec value body =>
      rw [flatten] at ran
      obtain ⟨plain, middle, listed, rest⟩ := run_bind_ok ran
      obtain ⟨rfl, rfl⟩ := run_pure_ok (run_check_ok rest).2
      obtain ⟨kept, writes⟩ := flatten_writes rule body inside sound written listed
      exact ⟨kept, List.forall₂_map_left_iff.mpr writes⟩
  | field name body =>
      rw [flatten] at ran
      obtain ⟨plain, middle, listed, rest⟩ := run_bind_ok ran
      obtain ⟨_, changed, modified, done⟩ := run_bind_ok rest
      have change := run_modify_ok modified
      obtain ⟨rfl, rfl⟩ := run_pure_ok done
      obtain ⟨kept, writes⟩ := flatten_writes rule body inside sound written listed
      have noting : GrowsTo grammar middle final :=
        .of_keys (by rw [change]; exact List.prefix_refl _) (by rw [change]) (by rw [change])
      refine ⟨kept.of_same noting (by rw [change]), List.forall₂_map_left_iff.mpr ?_⟩
      exact writes.imp fun _ _ each =>
        (WritesAll.mono noting.keys noting.repetitions each).withField name
  | aliased name named body =>
      rw [flatten] at ran
      obtain ⟨plain, middle, listed, rest⟩ := run_bind_ok ran
      obtain ⟨kept, writes⟩ := flatten_writes rule body inside sound written listed
      split at rest
      case h_1 renamed success =>
          obtain ⟨rfl, rfl⟩ := run_pure_ok rest
          exact ⟨kept, writes_mapM_withAlias? success writes⟩
      case h_2 => exact absurd rest run_fail_ok
  | immediate body =>
      rw [flatten] at ran
      obtain ⟨plain, middle, listed, mapped⟩ := run_bind_ok ran
      obtain ⟨kept, writes⟩ := flatten_writes rule body inside sound written listed
      have grown := (@mapM_immediate_grows grammar _ _ _ _ _ mapped).1
      exact ⟨allWritten_of_keeps kept grown (fun _ => .mapM
        (keeps_immediate_of_indifferent (fun _ _ _ => id) rule) plain) mapped,
        writes_mapM_immediate mapped writes⟩

theorem flattenSeq_writes (rule : String) (items : List Rule)
    (inside : Rule.repeatedOf items ⊆ grammar.repeated) {before : List Alternative}
    {sequences : List (List WrittenStep)} {draft final : FlatDraft} {found : List Alternative}
    (sound : draft.Sound grammar) (written : draft.AllWritten grammar)
    (early : List.Forall₂ (draft.WritesAll grammar) before sequences)
    (ran : (flattenSeq grammar rule before items).run draft = .ok (found, final)) :
    final.AllWritten grammar ∧
      List.Forall₂ (final.WritesAll grammar) found
        (joinAll sequences (grammar.writtenSeq items)) := by
  cases items with
  | nil =>
      rw [flattenSeq] at ran
      obtain ⟨rfl, rfl⟩ := run_pure_ok ran
      rw [Grammar.writtenSeq, joinAll_empty_right]
      exact ⟨written, early⟩
  | cons item items =>
      rw [flattenSeq] at ran
      obtain ⟨plain, middle, listed, rest⟩ := run_bind_ok ran
      obtain ⟨here, below⟩ := List.append_subset.mp inside
      obtain ⟨kept, writes⟩ := flatten_writes rule item here sound written listed
      obtain ⟨grown, _⟩ := flatten_flattens rule item sound listed
      have moved : List.Forall₂ (middle.WritesAll grammar) before sequences :=
        early.imp fun _ _ each => WritesAll.mono grown.keys grown.repetitions each
      rw [Grammar.writtenSeq, ← joinAll_assoc]
      exact flattenSeq_writes rule items below (flatten_ok rule item sound listed).1 kept
        (writesAll_appendAll moved writes) rest

theorem flattenChoice_writes (rule : String) (items : List Rule)
    (inside : Rule.repeatedOf items ⊆ grammar.repeated) :
    Writing grammar (grammar.writtenChoice items) (flattenChoice grammar rule items) := by
  intro draft final found sound written ran
  cases items with
  | nil =>
      rw [flattenChoice] at ran
      obtain ⟨rfl, rfl⟩ := run_pure_ok ran
      exact ⟨written, .nil⟩
  | cons item items =>
      rw [flattenChoice] at ran
      obtain ⟨plain, middle, listed, rest⟩ := run_bind_ok ran
      obtain ⟨others, last, behind, done⟩ := run_bind_ok rest
      obtain ⟨rfl, rfl⟩ := run_pure_ok done
      obtain ⟨here, below⟩ := List.append_subset.mp inside
      have opened := (flatten_ok rule item sound listed).1
      obtain ⟨kept, first⟩ := flatten_writes rule item here sound written listed
      obtain ⟨more, _⟩ := flattenChoice_flattens rule items opened behind
      obtain ⟨whole, second⟩ := flattenChoice_writes rule items below opened kept behind
      have moved : List.Forall₂ (final.WritesAll grammar) plain (grammar.written item) :=
        first.imp fun _ _ each => WritesAll.mono more.keys more.repetitions each
      exact ⟨whole, List.rel_append moved second⟩

end

/-! ## Whole grammars -/

theorem enterRules_entered {rules : List (String × Rule)} {index : Nat} {draft final : FlatDraft}
    {result : Unit} (sound : draft.Sound grammar) (entered : draft.Entered grammar index)
    (ahead : (rules.filter fun entry => !entry.2.isLexical) = grammar.syntacticEntries.drop index)
    (ran : (enterRules grammar rules index).run draft = .ok (result, final)) :
    final.Entered grammar grammar.syntacticEntries.length := by
  induction rules generalizing index draft with
  | nil =>
      rw [enterRules] at ran
      obtain ⟨_, rfl⟩ := run_pure_ok ran
      have finished : grammar.syntacticEntries.length ≤ index := List.drop_eq_nil_iff.mp ahead.symm
      exact ⟨entered.written, fun place bound => entered.rules place (by omega)⟩
  | cons entry rules ih =>
      obtain ⟨name, body⟩ := entry
      rw [enterRules] at ran
      split at ran
      case isTrue lexical => exact ih sound entered (by simpa [lexical] using ahead) ran
      case isFalse syntactic =>
          obtain ⟨found, middle, listed, rest⟩ := run_bind_ok ran
          obtain ⟨_, changed, modified, others⟩ := run_bind_ok rest
          have change := run_modify_ok modified
          rw [List.filter_cons_of_pos (by simpa using syntactic)] at ahead
          have entry : grammar.syntacticEntries[index]? = some (name, body) := by
            rw [← List.head?_drop, ← ahead, List.head?_cons]
          have inside : body.repeated ⊆ grammar.repeated := fun content member =>
            List.mem_flatMap.mpr ⟨_, List.mem_of_getElem? entry, member⟩
          obtain ⟨grown, _⟩ := flatten_flattens name body sound listed
          obtain ⟨kept, writes⟩ := flatten_writes name body inside sound entered.written listed
          obtain ⟨closed, _, has⟩ := flatten_ok name body sound listed
          have bound : index < grammar.syntacticRules.length := by
            rw [Grammar.syntacticRules, List.length_map]
            exact (List.getElem?_eq_some_iff.mp entry).1
          refine ih (sound_of_entered closed bound has change)
            ((entered.grow grown kept).next entry writes change) ?_ others
          rw [← List.tail_drop, ← ahead, List.tail_cons]

end FlattenM

/-- The productions of a draft are what was written, and no others. -/
theorem FlatDraft.entered_of_ofGrammar {grammar : Grammar} {draft : FlatDraft}
    (success : FlatDraft.ofGrammar grammar = .ok draft) :
    draft.Entered grammar grammar.syntacticEntries.length := by
  obtain ⟨⟨_, final⟩, ran, same⟩ := exists_of_bind_eq_ok success
  obtain rfl := Except.ok.inj same
  obtain ⟨_, middle, fixed, rules⟩ := FlattenM.run_bind_ok ran
  have keeps : FlattenM.Keeps (fun draft => draft.productions = [])
      (enterFixedTerminals grammar) :=
    FlattenM.keeps_enterFixedTerminals_of_indifferent fun _ _ _ => id
  have none_yet := keeps _ _ _ rfl fixed
  have start : middle.Entered grammar 0 :=
    ⟨by simp [AllWritten, none_yet], fun _ bound => absurd bound (Nat.not_lt_zero _)⟩
  exact FlattenM.enterRules_entered (FlattenM.enterFixedTerminals_ok fixed) start rfl rules

end Lalr
