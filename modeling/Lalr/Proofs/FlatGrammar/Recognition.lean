import Lalr.Proofs.Except
import Lalr.Proofs.FlatGrammar.Expansion

set_option autoImplicit false

/-!
How the terminals of a draft are recognised. The end of the input comes first and is
recognised by nothing; every other terminal has a pattern that compiles, if it has one, and
is no twin of the end of the input or of an external token; and the declared external tokens
have all been entered, each as nothing but itself. What holds of every terminal that flattening can
enter holds of all terminals of a flattened grammar; so its literals are those that it writes, and
its keywords those that its syntactic rules refer to.
-/

namespace Lalr

namespace Rule

mutual

/-- The literals that an expression writes as tokens of their own. -/
def literals : Rule → List String
  | .literal text => [text]
  | .seq items => literalsOf items
  | .choice items => literalsOf items
  | .optional body => body.literals
  | .repeat0 body => body.literals
  | .repeat1 body => body.literals
  | .prec _ _ body => body.literals
  | .dynamicPrec _ body => body.literals
  | .field _ body => body.literals
  | .aliased _ _ body => body.literals
  | .immediate body => body.literals
  | _ => []

/-- The literals of several expressions. -/
def literalsOf : List Rule → List String
  | [] => []
  | item :: items => item.literals ++ literalsOf items

end

mutual

/-- The keywords that an expression refers to. -/
def keywordNames : Rule → List String
  | .keyword name => [name]
  | .seq items => keywordNamesOf items
  | .choice items => keywordNamesOf items
  | .optional body => body.keywordNames
  | .repeat0 body => body.keywordNames
  | .repeat1 body => body.keywordNames
  | .prec _ _ body => body.keywordNames
  | .dynamicPrec _ body => body.keywordNames
  | .field _ body => body.keywordNames
  | .aliased _ _ body => body.keywordNames
  | .immediate body => body.keywordNames
  | _ => []

/-- The keywords of several expressions. -/
def keywordNamesOf : List Rule → List String
  | [] => []
  | item :: items => item.keywordNames ++ keywordNamesOf items

end

end Rule

/-- The literals that a grammar writes in its rules and extras. -/
def Grammar.literals (grammar : Grammar) : List String :=
  Rule.literalsOf (grammar.rules.map Prod.snd ++ grammar.extras)

theorem Rule.literals_subset {items : List Rule} {item : Rule} (member : item ∈ items) :
    item.literals ⊆ literalsOf items := by
  induction items with
  | nil => cases member
  | cons first items ih =>
      cases member with
      | head => exact List.subset_append_left _ _
      | tail _ later => exact List.Subset.trans (ih later) (List.subset_append_right _ _)

theorem Grammar.literals_subset_of_rule {grammar : Grammar} {entry : String × Rule}
    (member : entry ∈ grammar.rules) : entry.2.literals ⊆ grammar.literals :=
  Rule.literals_subset (List.mem_append_left _ (List.mem_map_of_mem member))

/-- The keywords that the syntactic rules of a grammar refer to. -/
def Grammar.keywordNames (grammar : Grammar) : List String :=
  (grammar.rules.filter fun entry => !entry.2.isLexical).flatMap fun entry => entry.2.keywordNames

theorem Grammar.keywordNames_subset_of_rule {grammar : Grammar} {entry : String × Rule}
    (member : entry ∈ grammar.rules) (syntactic : entry.2.isLexical = false) :
    entry.2.keywordNames ⊆ grammar.keywordNames := fun _ listed =>
  List.mem_flatMap.mpr ⟨entry, List.mem_filter.mpr ⟨member, by simpa using syntactic⟩, listed⟩

/-- A terminal other than the end of the input, which the lexer can be prepared for. -/
structure Terminal.Recognisable (terminal : Terminal) : Prop where
  own : terminal.key ≠ .endOfInput
  compiles : ∀ text, terminal.form = .pattern text → (Pattern.compile? text).isSome
  base : ∀ key, terminal.key = .immediate key → key ≠ .endOfInput ∧ key.isExternal = false
  external : ∀ name, terminal.key = .external name → terminal = .ofExternal name

/-- A draft whose terminals can be recognised, with external tokens already entered. -/
structure FlatDraft.Recognised (entered : List String) (draft : FlatDraft) : Prop where
  first : draft.terminals.head? = some .endOfInput
  others : ∀ terminal ∈ draft.terminals.tail, terminal.Recognisable
  externals : ∀ name ∈ entered, .external name ∈ draft.keys

theorem isSome_of_checkPattern {rule text : String} (passed : checkPattern rule text = .ok ()) :
    (Pattern.compile? text).isSome := by
  unfold checkPattern at passed
  cases compiled : Pattern.compile? text with
  | none => simp [compiled] at passed
  | some program => rfl

namespace Terminal

theorem recognisable_literal (text : String) : (ofLiteral text).Recognisable where
  own := nofun
  compiles := nofun
  base := nofun
  external := nofun

theorem recognisable_keyword (name : String) : (ofKeyword name).Recognisable where
  own := nofun
  compiles := nofun
  base := nofun
  external := nofun

theorem recognisable_external (name : String) : (ofExternal name).Recognisable where
  own := nofun
  compiles := nofun
  base := nofun
  external := by
    rintro other same
    rw [TerminalKey.external.inj same]

theorem recognisable_pattern {rule name text : String}
    (passed : checkPattern rule text = .ok ()) : (ofPattern name text).Recognisable where
  own := nofun
  compiles := by
    intro other same
    obtain rfl := TerminalForm.pattern.inj same
    exact isSome_of_checkPattern passed
  base := nofun
  external := nofun

theorem recognisable_rule {rule name : String} {body : Rule} {form : TerminalForm}
    (formed : body.terminalForm rule = .ok form) : (ofRule name form).Recognisable where
  own := nofun
  compiles := by
    rintro text rfl
    unfold Rule.terminalForm at formed
    split at formed
    case h_1 => cases formed
    case h_2 =>
        obtain ⟨_, passed, same⟩ := exists_of_bind_eq_ok formed
        obtain rfl := TerminalForm.pattern.inj (Except.ok.inj same)
        exact isSome_of_checkPattern passed
    case h_3 =>
        obtain ⟨_, _, formed⟩ := exists_of_bind_eq_ok formed
        obtain ⟨_, passed, same⟩ := exists_of_bind_eq_ok formed
        obtain rfl := TerminalForm.pattern.inj (Except.ok.inj same)
        exact isSome_of_checkPattern passed
  base := nofun
  external := nofun

theorem recognisable_twin {base : Terminal} (own : base.key ≠ .endOfInput)
    (ordinary : base.key.isExternal = false) : base.twin.Recognisable where
  own := nofun
  compiles := nofun
  base := by
    rintro key same
    obtain rfl := TerminalKey.immediate.inj same
    exact ⟨own, ordinary⟩
  external := nofun

end Terminal

namespace FlatDraft

variable {entered : List String} {draft : FlatDraft}

theorem Recognised.congr (recognised : draft.Recognised entered) {other : FlatDraft}
    (same : other.terminals = draft.terminals) : other.Recognised entered where
  first := same ▸ recognised.first
  others := same ▸ recognised.others
  externals := by
    rw [keys, same]
    exact recognised.externals

/-- The terminals behind the first. -/
theorem Recognised.recognisable (recognised : draft.Recognised entered) {index : Nat}
    {terminal : Terminal} (found : draft.terminals[index]? = some terminal) (later : 0 < index) :
    terminal.Recognisable := by
  obtain ⟨index, rfl⟩ := Nat.exists_eq_succ_of_ne_zero (Nat.ne_of_gt later)
  refine recognised.others terminal (List.mem_of_getElem? (i := index) ?_)
  rwa [List.getElem?_tail]

theorem Recognised.push (recognised : draft.Recognised entered) {terminal : Terminal}
    (fits : terminal.Recognisable) :
    ({ draft with terminals := draft.terminals ++ [terminal] } : FlatDraft).Recognised entered := by
  obtain ⟨first, rest, shape⟩ : ∃ first rest, draft.terminals = first :: rest :=
    List.exists_cons_of_ne_nil fun empty => by simpa [empty] using recognised.first
  have known := recognised.first
  have others := recognised.others
  have externals := recognised.externals
  simp only [shape, List.head?_cons, List.tail_cons] at known others
  refine ⟨by simpa [shape] using known, ?_, ?_⟩
  · simp only [shape, List.cons_append, List.tail_cons, List.mem_append, List.mem_singleton]
    rintro other (old | rfl)
    · exact others other old
    · exact fits
  · intro name member
    simp only [keys, List.map_append]
    exact List.mem_append_left _ (externals name member)

theorem Recognised.markExtra (recognised : draft.Recognised entered) {index : Nat}
    {key : TerminalKey} (later : 0 < index) (placed : draft.keys[index]? = some key)
    (ordinary : key.isExternal = false) :
    ({ draft with terminals := draft.terminals.modify index fun terminal =>
        { terminal with extra := true } } : FlatDraft).Recognised entered := by
  obtain ⟨index, rfl⟩ := Nat.exists_eq_succ_of_ne_zero (Nat.ne_of_gt later)
  obtain ⟨first, rest, shape⟩ : ∃ first rest, draft.terminals = first :: rest :=
    List.exists_cons_of_ne_nil fun empty => by simpa [empty] using recognised.first
  have known := recognised.first
  have others := recognised.others
  simp only [shape, List.head?_cons, List.tail_cons] at known others
  refine ⟨by simpa [shape] using known, ?_, ?_⟩
  · simp only [shape, List.modify_succ_cons, List.tail_cons]
    intro terminal member
    obtain ⟨place, bound, rfl⟩ := List.getElem_of_mem member
    rw [List.getElem_modify]
    rw [List.length_modify] at bound
    have fits := others rest[place] (List.getElem_mem bound)
    split
    case isTrue same =>
        obtain rfl := same
        refine ⟨fits.own, fits.compiles, fits.base, fun name external => ?_⟩
        have keyed : rest[index].key = key := by simpa [keys, shape, bound] using placed
        rw [← keyed, show rest[index].key = .external name from external] at ordinary
        cases ordinary
    case isFalse => exact fits
  · rw [FlattenM.keys_markExtra]
    exact recognised.externals

end FlatDraft

namespace FlattenM

open FlatDraft

variable {grammar : Grammar} {entered : List String}

/-- An action that keeps an invariant whenever it succeeds. -/
def Keeps {α : Type} (invariant : FlatDraft → Prop) (action : FlattenM α) : Prop :=
  ∀ draft final result, invariant draft → action.run draft = .ok (result, final) → invariant final

namespace Keeps

variable {α β : Type} {invariant : FlatDraft → Prop}

theorem pure (value : α) : Keeps invariant (Pure.pure value : FlattenM α) := by
  intro draft final result holds ran
  obtain ⟨_, rfl⟩ := run_pure_ok ran
  exact holds

theorem fail (mistake : GrammarError) : Keeps invariant (fail mistake : FlattenM α) :=
  fun _ _ _ _ ran => absurd ran run_fail_ok

theorem lift (action : Except GrammarError α) :
    Keeps invariant (liftM action : FlattenM α) := by
  intro draft final result holds ran
  obtain ⟨_, rfl⟩ := run_lift_ok ran
  exact holds

theorem bind {first : FlattenM α} {second : α → FlattenM β} (before : Keeps invariant first)
    (after : ∀ value, Keeps invariant (second value)) : Keeps invariant (first >>= second) := by
  intro draft final result holds ran
  obtain ⟨value, middle, one, other⟩ := run_bind_ok ran
  exact after value middle final result (before draft middle value holds one) other

theorem modify {change : FlatDraft → FlatDraft}
    (keeps : ∀ draft, invariant draft → invariant (change draft)) :
    Keeps invariant (modify change : FlattenM Unit) := by
  intro draft final result holds ran
  obtain rfl := run_modify_ok ran
  exact keeps draft holds

theorem mapM {action : α → FlattenM β} (keeps : ∀ item, Keeps invariant (action item))
    (items : List α) : Keeps invariant (items.mapM action) := by
  induction items with
  | nil =>
      rw [List.mapM_nil]
      exact .pure []
  | cons item items ih =>
      rw [List.mapM_cons]
      exact (keeps item).bind fun first => ih.bind fun others => .pure (first :: others)

theorem forM {action : α → FlattenM Unit} {items : List α}
    (keeps : ∀ item ∈ items, Keeps invariant (action item)) :
    Keeps invariant (items.forM action) := by
  rw [List.forM_eq_forM]
  induction items with
  | nil =>
      rw [List.forM_nil]
      exact .pure ()
  | cons item items ih =>
      rw [List.forM_cons]
      exact (keeps item List.mem_cons_self).bind fun _ =>
        ih fun other later => keeps other (List.mem_cons_of_mem _ later)

end Keeps

/-! ## Terminals -/

/-- Interning a terminal finds its key, or adds the terminal behind the others. -/
theorem intern_cases {terminal : Terminal} {draft final : FlatDraft} {index : Nat}
    (ran : (intern terminal).run draft = .ok (index, final)) :
    (final = draft ∧ terminalIndex? draft.terminals terminal.key = some index) ∨
      (final = { draft with terminals := draft.terminals ++ [terminal] } ∧
        index = draft.terminals.length) := by
  unfold intern at ran
  obtain ⟨current, middle, got, rest⟩ := run_bind_ok ran
  obtain ⟨rfl, rfl⟩ := run_get_ok got
  cases known : terminalIndex? middle.terminals terminal.key with
  | some place =>
      rw [known] at rest
      obtain ⟨rfl, rfl⟩ := run_pure_ok rest
      exact .inl ⟨rfl, rfl⟩
  | none =>
      rw [known] at rest
      obtain ⟨_, changed, stored, rest⟩ := run_bind_ok rest
      obtain rfl := run_set_ok stored
      obtain ⟨rfl, rfl⟩ := run_pure_ok rest
      exact .inr ⟨rfl, rfl⟩

theorem keeps_intern {terminal : Terminal} (fits : terminal.Recognisable) :
    Keeps (Recognised entered) (intern terminal) := by
  intro draft final index recognised ran
  rcases intern_cases ran with ⟨rfl, _⟩ | ⟨rfl, _⟩
  · exact recognised
  · exact recognised.push fits

theorem keeps_internRule (name : String) (body : Rule) :
    Keeps (Recognised entered) (internRule name body) := by
  intro draft final index recognised ran
  unfold internRule at ran
  obtain ⟨current, middle, got, rest⟩ := run_bind_ok ran
  obtain ⟨rfl, rfl⟩ := run_get_ok got
  split at rest
  · obtain ⟨rfl, rfl⟩ := run_pure_ok rest
    exact recognised
  · obtain ⟨form, same, lifted, interned⟩ := run_bind_ok rest
    obtain ⟨formed, rfl⟩ := run_lift_ok lifted
    exact keeps_intern (Terminal.recognisable_rule formed) _ _ _ recognised interned

theorem keeps_internPattern (rule text : String) :
    Keeps (Recognised entered) (internPattern rule text) := by
  intro draft final index recognised ran
  unfold internPattern at ran
  obtain ⟨_, same, lifted, search⟩ := run_bind_ok ran
  obtain ⟨passed, rfl⟩ := run_lift_ok lifted
  obtain ⟨current, middle, got, rest⟩ := run_bind_ok search
  obtain ⟨rfl, rfl⟩ := run_get_ok got
  split at rest
  · obtain ⟨rfl, rfl⟩ := run_pure_ok rest
    exact recognised
  · obtain ⟨_, counted, stored, interned⟩ := run_bind_ok rest
    obtain rfl := run_set_ok stored
    refine keeps_intern (Terminal.recognisable_pattern passed) _ _ _ ?_ interned
    exact recognised.congr rfl

theorem keeps_immediate (rule : String) (alternative : Alternative) :
    Keeps (Recognised entered) (immediate rule alternative) := by
  intro draft final result recognised ran
  unfold immediate at ran
  split at ran
  case h_2 => exact absurd ran run_fail_ok
  case h_1 index precedence associativity field shownAs _ =>
      obtain ⟨current, middle, got, rest⟩ := run_bind_ok ran
      obtain ⟨rfl, rfl⟩ := run_get_ok got
      split at rest
      case h_1 => exact absurd rest run_fail_ok
      case h_2 base found =>
          split at rest
          case isTrue => exact absurd rest run_fail_ok
          case isFalse allowed =>
              obtain ⟨twin, changed, interned, done⟩ := run_bind_ok rest
              obtain ⟨_, rfl⟩ := run_pure_ok done
              simp only [Bool.or_eq_true, decide_eq_true_eq, not_or, Bool.not_eq_true] at allowed
              have fits := recognised.recognisable found (Nat.pos_of_ne_zero allowed.1)
              exact keeps_intern (Terminal.recognisable_twin fits.own allowed.2) _ _ _ recognised
                interned

/-! ## Expressions -/

/-- An invariant that every step of flattening keeps, as long as the literals and the keywords are
among some given ones and no repetition gets an empty production. -/
structure Stable (grammar : Grammar) (invariant : FlatDraft → Prop)
    (literals keywords : List String) : Prop where
  congr : ∀ {draft : FlatDraft}, invariant draft → ∀ {other : FlatDraft},
    other.terminals = draft.terminals → other.productions = draft.productions → invariant other
  productions : ∀ {draft : FlatDraft} {added : List DraftProduction},
    (∀ production ∈ added, ∀ index, production.lhs = .repetition index →
      production.alternative.steps ≠ []) →
    invariant draft → invariant { draft with productions := draft.productions ++ added }
  literal : ∀ text ∈ literals, Keeps invariant (intern (.ofLiteral text))
  keyword : ∀ name ∈ keywords, Keeps invariant (intern (.ofKeyword name))
  pattern : ∀ rule text, Keeps invariant (internPattern rule text)
  rule : ∀ name body, grammar.rule? name = some body → Keeps invariant (internRule name body)
  twin : ∀ rule alternative, Keeps invariant (immediate rule alternative)

theorem stable_recognised (literals keywords : List String) :
    Stable grammar (Recognised entered) literals keywords where
  congr recognised _ same _ := recognised.congr same
  productions _ recognised := recognised.congr rfl
  literal text _ := keeps_intern (Terminal.recognisable_literal text)
  keyword name _ := keeps_intern (Terminal.recognisable_keyword name)
  pattern := keeps_internPattern
  rule name body _ := keeps_internRule name body
  twin := keeps_immediate

namespace Stable

variable {invariant : FlatDraft → Prop} {literals keywords : List String}

theorem resolve (stable : Stable grammar invariant literals keywords) (rule name : String) :
    Keeps invariant (FlattenM.resolve grammar rule name) := by
  unfold FlattenM.resolve
  split
  case h_1 => exact .pure _
  case h_2 body _ known =>
      rw [map_eq_pure_bind]
      exact (stable.rule name body known).bind fun _ => .pure _
  case h_3 =>
      intro draft final index holds ran
      obtain ⟨current, middle, got, rest⟩ := run_bind_ok ran
      obtain ⟨rfl, rfl⟩ := run_get_ok got
      split at rest
      · obtain ⟨_, rfl⟩ := run_pure_ok rest
        exact holds
      · exact absurd rest run_fail_ok

theorem repetition (stable : Stable grammar invariant literals keywords) {rule : String} {content : Rule}
    {alternatives : FlattenM (List Alternative)} (inside : Keeps invariant alternatives) :
    Keeps invariant (FlattenM.repetition rule content alternatives) := by
  intro draft final result holds ran
  unfold FlattenM.repetition at ran
  obtain ⟨current, middle, got, rest⟩ := run_bind_ok ran
  obtain ⟨rfl, rfl⟩ := run_get_ok got
  dsimp only at rest
  split at rest
  case h_1 =>
      obtain ⟨_, rfl⟩ := run_pure_ok rest
      exact holds
  case h_2 =>
      obtain ⟨_, started, stored, rest⟩ := run_bind_ok rest
      obtain rfl := run_set_ok stored
      obtain ⟨found, filled, flattened, rest⟩ := run_bind_ok rest
      have kept : invariant filled := by
        refine inside _ _ _ ?_ flattened
        exact stable.congr holds rfl rfl
      split at rest
      case isTrue =>
          obtain ⟨_, _, failed, _⟩ := run_bind_ok rest
          exact absurd failed run_fail_ok
      case isFalse filled =>
          obtain ⟨_, changed, modified, done⟩ := run_bind_ok rest
          obtain ⟨_, rfl⟩ := run_pure_ok done
          obtain rfl := run_modify_ok modified
          rw [List.append_assoc]
          refine stable.productions (fun production member index _ => ?_) kept
          rcases List.mem_append.mp member with more | first
          · obtain ⟨alternative, _, rfl⟩ := List.mem_map.mp more
            exact List.cons_ne_nil _ _
          · obtain ⟨alternative, listed, rfl⟩ := List.mem_map.mp first
            intro empty
            exact filled (List.any_eq_true.mpr ⟨alternative, listed, List.isEmpty_iff.mpr empty⟩)

mutual

theorem flatten (stable : Stable grammar invariant literals keywords) (rule : String)
    (expression : Rule) (written : expression.literals ⊆ literals)
    (named : expression.keywordNames ⊆ keywords) :
    Keeps invariant (Lalr.flatten grammar rule expression) := by
  cases expression with
  | blank =>
      rw [Lalr.flatten]
      exact .pure _
  | literal text =>
      rw [Lalr.flatten]
      exact (stable.literal text (written List.mem_cons_self)).bind fun _ => .pure _
  | pattern text =>
      rw [Lalr.flatten]
      exact (stable.pattern rule text).bind fun _ => .pure _
  | token body =>
      rw [Lalr.flatten]
      exact (Keeps.lift _).bind fun text => (stable.pattern rule text).bind fun _ => .pure _
  | keyword name =>
      rw [Lalr.flatten]
      split
      · exact (Keeps.fail _).bind fun _ =>
          (stable.keyword name (named List.mem_cons_self)).bind fun _ => .pure _
      · exact (stable.keyword name (named List.mem_cons_self)).bind fun _ => .pure _
  | symbol name =>
      rw [Lalr.flatten]
      exact (stable.resolve rule name).bind fun _ => .pure _
  | seq items =>
      rw [Lalr.flatten]
      exact stable.flattenSeq rule _ items written named
  | choice items =>
      rw [Lalr.flatten]
      exact stable.flattenChoice rule items written named
  | optional body =>
      rw [Lalr.flatten]
      exact (stable.flatten rule body written named).bind fun _ => .pure _
  | repeat1 body =>
      rw [Lalr.flatten]
      exact (stable.repetition (stable.flatten rule body written named)).bind fun _ => .pure _
  | repeat0 body =>
      rw [Lalr.flatten]
      exact (stable.repetition (stable.flatten rule body written named)).bind fun _ => .pure _
  | prec value associativity body =>
      rw [Lalr.flatten]
      refine (stable.flatten rule body written named).bind fun found => ?_
      split
      · exact (Keeps.fail _).bind fun _ => .pure _
      · exact .pure _
  | dynamicPrec value body =>
      rw [Lalr.flatten]
      refine (stable.flatten rule body written named).bind fun found => ?_
      split
      · exact (Keeps.fail _).bind fun _ => .pure _
      · exact .pure _
  | field name body =>
      rw [Lalr.flatten]
      refine (stable.flatten rule body written named).bind fun _ =>
        (Keeps.modify fun _ held => ?_).bind fun _ => .pure _
      exact stable.congr held rfl rfl
  | aliased name named body =>
      rw [Lalr.flatten]
      refine (stable.flatten rule body written named).bind fun found => ?_
      split
      · exact .pure _
      · exact .fail _
  | immediate body =>
      rw [Lalr.flatten]
      exact (stable.flatten rule body written named).bind fun found => .mapM (stable.twin rule) found

theorem flattenSeq (stable : Stable grammar invariant literals keywords) (rule : String)
    (before : List Alternative) (items : List Rule) (written : Rule.literalsOf items ⊆ literals)
    (named : Rule.keywordNamesOf items ⊆ keywords) :
    Keeps invariant (Lalr.flattenSeq grammar rule before items) := by
  cases items with
  | nil =>
      rw [Lalr.flattenSeq]
      exact .pure _
  | cons item items =>
      obtain ⟨first, others⟩ := List.append_subset.mp written
      obtain ⟨here, behind⟩ := List.append_subset.mp named
      rw [Lalr.flattenSeq]
      exact (stable.flatten rule item first here).bind fun found =>
        stable.flattenSeq rule _ items others behind

theorem flattenChoice (stable : Stable grammar invariant literals keywords) (rule : String)
    (items : List Rule) (written : Rule.literalsOf items ⊆ literals)
    (named : Rule.keywordNamesOf items ⊆ keywords) :
    Keeps invariant (Lalr.flattenChoice grammar rule items) := by
  cases items with
  | nil =>
      rw [Lalr.flattenChoice]
      exact .pure _
  | cons item items =>
      obtain ⟨first, others⟩ := List.append_subset.mp written
      obtain ⟨here, behind⟩ := List.append_subset.mp named
      rw [Lalr.flattenChoice]
      exact (stable.flatten rule item first here).bind fun found =>
        (stable.flattenChoice rule items others behind).bind fun others => .pure _

end

/-! ## Whole grammars -/

theorem enterRules (stable : Stable grammar invariant literals keywords) (rules : List (String × Rule))
    (written : ∀ entry ∈ rules, entry.2.literals ⊆ literals)
    (named : ∀ entry ∈ rules, entry.2.isLexical = false → entry.2.keywordNames ⊆ keywords)
    (index : Nat) :
    Keeps invariant (Lalr.enterRules grammar rules index) := by
  induction rules generalizing index with
  | nil =>
      rw [Lalr.enterRules]
      exact .pure _
  | cons entry rules ih =>
      obtain ⟨name, body⟩ := entry
      have others := ih (fun entry later => written entry (List.mem_cons_of_mem _ later))
        fun entry later => named entry (List.mem_cons_of_mem _ later)
      rw [Lalr.enterRules]
      split
      case isTrue => exact others index
      case isFalse syntactic =>
          have here := named _ List.mem_cons_self (by simpa using syntactic)
          refine (stable.flatten name body (written _ List.mem_cons_self) here).bind fun found =>
            (Keeps.modify fun _ held => ?_).bind fun _ => others (index + 1)
          refine stable.productions (fun production member _ same => ?_) held
          obtain ⟨_, _, rfl⟩ := List.mem_map.mp member
          cases same

end Stable

/-- An extra is never the end of the input or an external token. -/
theorem keeps_enterExtra (extra : Rule) :
    Keeps (fun draft => draft.Sound grammar ∧ draft.Recognised entered)
      (enterExtra grammar extra) := by
  rintro draft final result ⟨sound, recognised⟩ ran
  refine ⟨(enterExtra_ok sound ran).1, ?_⟩
  have marked : ∀ {middle : FlatDraft} {index : Nat} {key : TerminalKey},
      middle.Recognised entered → middle.HasSymbol grammar (.terminal index) →
      middle.keys[index]? = some key → key.isExternal = false →
      (modify fun draft : FlatDraft => { draft with
        terminals := draft.terminals.modify index fun terminal =>
          { terminal with extra := true } } : FlattenM Unit).run middle = .ok (result, final) →
      final.Recognised entered := by
    intro middle index key kept entered placed ordinary modified
    obtain rfl := run_modify_ok modified
    exact kept.markExtra entered.1 placed ordinary
  unfold enterExtra at ran
  dsimp only at ran
  split at ran
  case h_1 name =>
      split at ran
      · split at ran
        · obtain ⟨index, middle, entered, modified⟩ := run_bind_ok ran
          exact marked (keeps_internRule _ _ _ _ _ recognised entered)
            (internRule_ok sound entered).2.2 (@internRule_grows grammar _ _ _ _ _ entered).2 rfl
            modified
        · obtain ⟨index, middle, failed, _⟩ := run_bind_ok ran
          exact absurd failed run_fail_ok
      · obtain ⟨index, middle, failed, _⟩ := run_bind_ok ran
        exact absurd failed run_fail_ok
  case h_2 text =>
      obtain ⟨index, middle, entered, modified⟩ := run_bind_ok ran
      exact marked (keeps_intern (Terminal.recognisable_literal text) _ _ _ recognised entered)
        (intern_hasSymbol sound (by simp [Terminal.ofLiteral])
          (by simp [Terminal.ofLiteral]) entered).2.2 (@intern_grows grammar _ _ _ _ entered).2 rfl
        modified
  case h_3 text =>
      obtain ⟨index, middle, entered, modified⟩ := run_bind_ok ran
      exact marked (keeps_internPattern _ _ _ _ _ recognised entered)
        (internPattern_ok sound entered).2.2 (@internPattern_grows grammar _ _ _ _ _ entered).2 rfl
        modified
  case h_4 =>
      obtain ⟨index, middle, failed, _⟩ := run_bind_ok ran
      exact absurd failed run_fail_ok

theorem enterExternals_ok {names : List String}
    (declared : ∀ name ∈ names, name ∈ grammar.externals) {draft final : FlatDraft} {result : Unit}
    (sound : draft.Sound grammar) (recognised : draft.Recognised entered)
    (ran : (names.forM fun name => do
      let _ ← intern (.ofExternal name) : FlattenM Unit).run draft = .ok (result, final)) :
    final.Sound grammar ∧ final.Recognised (entered ++ names) := by
  rw [List.forM_eq_forM] at ran
  induction names generalizing draft entered with
  | nil =>
      rw [List.forM_nil] at ran
      obtain ⟨_, rfl⟩ := run_pure_ok ran
      exact ⟨sound, by rwa [List.append_nil]⟩
  | cons name names ih =>
      rw [List.forM_cons] at ran
      obtain ⟨_, middle, here, others⟩ := run_bind_ok ran
      obtain ⟨index, _, interned, done⟩ := run_bind_ok here
      obtain ⟨_, rfl⟩ := run_pure_ok done
      have known : ∀ other, (Terminal.ofExternal name).key = .external other →
          other ∈ grammar.externals := by
        rintro other same
        obtain rfl := TerminalKey.external.inj same
        exact declared name List.mem_cons_self
      obtain ⟨kept, _, placed⟩ := intern_ok sound known interned
      have more : middle.Recognised (entered ++ [name]) := by
        obtain ⟨first, rest, old⟩ :=
          keeps_intern (Terminal.recognisable_external name) _ _ _ recognised interned
        refine ⟨first, rest, fun other member => ?_⟩
        rcases List.mem_append.mp member with before | added
        · exact old other before
        · obtain rfl := List.mem_singleton.mp added
          exact List.mem_of_getElem? placed
      rw [List.append_cons]
      exact ih (fun other member => declared other (List.mem_cons_of_mem _ member)) kept more others

theorem enterFixedTerminals_recognised {final : FlatDraft} {result : Unit}
    (ran : (enterFixedTerminals grammar).run {} = .ok (result, final)) :
    final.Recognised grammar.externals := by
  unfold enterFixedTerminals at ran
  obtain ⟨_, first, interned, rest⟩ := run_bind_ok ran
  have opened : first.Sound grammar := intern_endOfInput_ok interned
  have started : first.Recognised [] := by
    rcases intern_cases interned with ⟨_, known⟩ | ⟨rfl, _⟩
    · cases known
    · exact ⟨rfl, nofun, nofun⟩
  have behindWord : ∀ {draft : FlatDraft}, draft.Sound grammar → draft.Recognised [] →
      (do
        grammar.externals.forM fun name => do
          let _ ← intern (.ofExternal name)
        grammar.extras.forM (enterExtra grammar)).run draft = .ok (result, final) →
      final.Recognised grammar.externals := by
    intro draft sound recognised ran
    obtain ⟨_, middle, externals, extras⟩ := run_bind_ok ran
    have kept := enterExternals_ok (fun _ member => member) sound recognised externals
    rw [List.nil_append] at kept
    exact (Keeps.forM (fun extra _ => keeps_enterExtra extra) _ _ _ kept extras).2
  split at rest
  case h_1 => exact behindWord opened started rest
  case h_2 word _ =>
      split at rest
      case h_1 =>
          obtain ⟨_, second, failed, others⟩ := run_bind_ok rest
          exact absurd failed run_fail_ok
      case h_2 body _ =>
          obtain ⟨_, second, entered, others⟩ := run_bind_ok rest
          exact behindWord (internRule_ok opened entered).1
            (keeps_internRule _ _ _ _ _ started entered) others

end FlattenM

/-- The terminals of every grammar can be recognised, and its external tokens are among them. -/
theorem FlatDraft.recognised_of_ofGrammar {grammar : Grammar} {draft : FlatDraft}
    (success : FlatDraft.ofGrammar grammar = .ok draft) :
    draft.Recognised grammar.externals := by
  obtain ⟨⟨_, final⟩, ran, same⟩ := exists_of_bind_eq_ok success
  obtain rfl := Except.ok.inj same
  obtain ⟨_, middle, fixed, rules⟩ := FlattenM.run_bind_ok ran
  exact (FlattenM.stable_recognised grammar.literals grammar.keywordNames).enterRules _
    (fun _ => Grammar.literals_subset_of_rule) (fun _ => Grammar.keywordNames_subset_of_rule) _ _ _ _
    (FlattenM.enterFixedTerminals_recognised fixed) rules

/-! ## Properties of single terminals -/

theorem mem_of_lookup_eq_some {α β : Type} [BEq α] [LawfulBEq α] {entries : List (α × β)} {key : α}
    {value : β} (found : entries.lookup key = some value) : (key, value) ∈ entries := by
  obtain ⟨before, after, shape, _⟩ := List.lookup_eq_some_iff.mp found
  rw [shape]
  exact List.mem_append_right _ List.mem_cons_self

/-- A property holds of all terminals of a draft. -/
def FlatDraft.AllTerminals (holds : Terminal → Prop) (draft : FlatDraft) : Prop :=
  ∀ terminal ∈ draft.terminals, holds terminal

/-- A property holds of whatever flattening enters for a grammar. -/
structure Grammar.Enters (grammar : Grammar) (holds : Terminal → Prop) : Prop where
  endOfInput : holds .endOfInput
  literal : ∀ text ∈ grammar.literals, holds (.ofLiteral text)
  keyword : ∀ name ∈ grammar.keywordNames, holds (.ofKeyword name)
  pattern : ∀ name text, holds (.ofPattern name text)
  rule : ∀ name body form, grammar.rule? name = some body → body.terminalForm name = .ok form →
    holds (.ofRule name form)
  external : ∀ name, holds (.ofExternal name)
  twin : ∀ base, holds base → holds base.twin
  extra : ∀ terminal, holds terminal → holds { terminal with extra := true }

namespace FlattenM

open FlatDraft

variable {grammar : Grammar} {holds : Terminal → Prop}

theorem all_intern {terminal : Terminal} (here : holds terminal) :
    Keeps (AllTerminals holds) (intern terminal) := by
  intro draft final index all ran
  rcases intern_cases ran with ⟨rfl, _⟩ | ⟨rfl, _⟩
  · exact all
  · intro other member
    rcases List.mem_append.mp member with old | added
    · exact all other old
    · exact List.mem_singleton.mp added ▸ here

theorem all_internPattern (pattern : ∀ name text, holds (.ofPattern name text))
    (rule text : String) : Keeps (AllTerminals holds) (internPattern rule text) := by
  unfold internPattern
  refine (Keeps.lift _).bind fun _ => ?_
  intro draft final index all ran
  obtain ⟨current, middle, got, rest⟩ := run_bind_ok ran
  obtain ⟨rfl, rfl⟩ := run_get_ok got
  split at rest
  · obtain ⟨rfl, rfl⟩ := run_pure_ok rest
    exact all
  · obtain ⟨_, counted, stored, interned⟩ := run_bind_ok rest
    obtain rfl := run_set_ok stored
    have counting : AllTerminals holds { middle with
        patternOwners := rule :: middle.patternOwners } := all
    exact all_intern (pattern _ _) _ _ _ counting interned

theorem all_internRule {name : String} {body : Rule}
    (rule : ∀ form, body.terminalForm name = .ok form → holds (.ofRule name form)) :
    Keeps (AllTerminals holds) (internRule name body) := by
  intro draft final index all ran
  unfold internRule at ran
  obtain ⟨current, middle, got, rest⟩ := run_bind_ok ran
  obtain ⟨rfl, rfl⟩ := run_get_ok got
  split at rest
  · obtain ⟨rfl, rfl⟩ := run_pure_ok rest
    exact all
  · obtain ⟨form, same, lifted, interned⟩ := run_bind_ok rest
    obtain ⟨formed, rfl⟩ := run_lift_ok lifted
    exact all_intern (rule form formed) _ _ _ all interned

theorem all_immediate (twin : ∀ base, holds base → holds base.twin) (rule : String)
    (alternative : Alternative) : Keeps (AllTerminals holds) (immediate rule alternative) := by
  intro draft final result all ran
  unfold immediate at ran
  split at ran
  case h_2 => exact absurd ran run_fail_ok
  case h_1 =>
      obtain ⟨current, middle, got, rest⟩ := run_bind_ok ran
      obtain ⟨rfl, rfl⟩ := run_get_ok got
      split at rest
      case h_1 => exact absurd rest run_fail_ok
      case h_2 base found =>
          split at rest
          case isTrue => exact absurd rest run_fail_ok
          case isFalse =>
              obtain ⟨place, changed, interned, done⟩ := run_bind_ok rest
              obtain ⟨_, rfl⟩ := run_pure_ok done
              exact all_intern (twin base (all base (List.mem_of_getElem? found))) _ _ _ all interned

theorem stable_allTerminals (enters : grammar.Enters holds) :
    Stable grammar (AllTerminals holds) grammar.literals grammar.keywordNames where
  congr all _ same _ := by
    unfold AllTerminals
    rwa [same]
  productions _ := id
  literal text listed := all_intern (enters.literal text listed)
  keyword name listed := all_intern (enters.keyword name listed)
  pattern := all_internPattern enters.pattern
  rule name body known := all_internRule fun form => enters.rule name body form known
  twin := all_immediate enters.twin

theorem all_enterExtra (enters : grammar.Enters holds) {extra : Rule}
    (listed : extra ∈ grammar.extras) :
    Keeps (AllTerminals holds) (enterExtra grammar extra) := by
  have marks (index : Nat) : Keeps (AllTerminals holds)
      (modify fun draft : FlatDraft => { draft with
        terminals := draft.terminals.modify index fun terminal =>
          { terminal with extra := true } } : FlattenM Unit) := by
    refine .modify fun draft all terminal member => ?_
    obtain ⟨place, bound, rfl⟩ := List.getElem_of_mem member
    rw [List.length_modify] at bound
    have here := all draft.terminals[place] (List.getElem_mem bound)
    rw [List.getElem_modify]
    split
    · exact enters.extra _ here
    · exact here
  have written : extra.literals ⊆ grammar.literals :=
    Rule.literals_subset (List.mem_append_right _ listed)
  unfold enterExtra
  dsimp only
  split
  case h_1 name =>
      split
      case h_1 body known =>
          split
          · exact (all_internRule fun form => enters.rule name body form known).bind marks
          · exact (Keeps.fail _).bind marks
      case h_2 => exact (Keeps.fail _).bind marks
  case h_2 text =>
      exact (all_intern (enters.literal text (written List.mem_cons_self))).bind marks
  case h_3 => exact (all_internPattern enters.pattern _ _).bind marks
  case h_4 => exact (Keeps.fail _).bind marks

theorem all_enterFixedTerminals (enters : grammar.Enters holds) :
    Keeps (AllTerminals holds) (enterFixedTerminals grammar) := by
  have behindWord : Keeps (AllTerminals holds) (do
      grammar.externals.forM fun name => do
        let _ ← intern (.ofExternal name)
      grammar.extras.forM (enterExtra grammar)) :=
    (Keeps.forM fun name _ => (all_intern (enters.external name)).bind fun _ => .pure _).bind
      fun _ => .forM fun extra => all_enterExtra enters
  unfold enterFixedTerminals
  refine (all_intern enters.endOfInput).bind fun _ => ?_
  split
  case h_1 => exact behindWord
  case h_2 word _ =>
      split
      case h_1 => exact (Keeps.fail _).bind fun _ => behindWord
      case h_2 body known =>
          exact (all_internRule fun form => enters.rule word body form known).bind fun _ =>
            behindWord

end FlattenM

namespace FlatDraft

variable {grammar : Grammar} {draft : FlatDraft}

/-- What holds of whatever flattening enters holds of all terminals of a flattened grammar. -/
theorem allTerminals_of_ofGrammar (holds : Terminal → Prop) (enters : grammar.Enters holds)
    (success : FlatDraft.ofGrammar grammar = .ok draft) : draft.AllTerminals holds := by
  obtain ⟨⟨_, final⟩, ran, same⟩ := exists_of_bind_eq_ok success
  obtain rfl := Except.ok.inj same
  obtain ⟨_, middle, fixed, rules⟩ := FlattenM.run_bind_ok ran
  have nothing_yet : AllTerminals holds {} := fun _ member => by cases member
  exact (FlattenM.stable_allTerminals enters).enterRules _
    (fun _ => Grammar.literals_subset_of_rule) (fun _ => Grammar.keywordNames_subset_of_rule) _ _ _ _
    (FlattenM.all_enterFixedTerminals enters _ _ _ nothing_yet fixed) rules

/-- A literal that a lexical rule is recognised by is written in the rule. -/
theorem literal_of_terminalForm {name text : String} {body : Rule}
    (formed : body.terminalForm name = .ok (.literal text)) : text ∈ body.literals := by
  unfold Rule.terminalForm at formed
  split at formed
  case h_1 =>
      obtain rfl := TerminalForm.literal.inj (Except.ok.inj formed)
      exact List.mem_cons_self
  case h_2 =>
      obtain ⟨_, _, same⟩ := exists_of_bind_eq_ok formed
      cases Except.ok.inj same
  case h_3 =>
      obtain ⟨_, _, formed⟩ := exists_of_bind_eq_ok formed
      obtain ⟨_, _, same⟩ := exists_of_bind_eq_ok formed
      cases Except.ok.inj same

/-- Flattening a grammar finds no literals but those that it writes. -/
theorem mem_literals_of_form (success : FlatDraft.ofGrammar grammar = .ok draft)
    {terminal : Terminal} (member : terminal ∈ draft.terminals) {text : String}
    (form : terminal.form = .literal text) : text ∈ grammar.literals := by
  refine allTerminals_of_ofGrammar (fun terminal =>
    ∀ text, terminal.form = .literal text → text ∈ grammar.literals) ?_ success terminal member
      text form
  constructor
  case literal =>
      intro text listed other same
      exact TerminalForm.literal.inj same ▸ listed
  case rule =>
      intro name body form known formed text literal
      obtain rfl : form = .literal text := literal
      exact Grammar.literals_subset_of_rule (mem_of_lookup_eq_some known)
        (literal_of_terminalForm formed)
  case extra => exact fun _ here => here
  all_goals
    intros
    simp_all [Terminal.endOfInput, Terminal.ofKeyword, Terminal.ofPattern, Terminal.ofExternal,
      Terminal.twin]

/-- Flattening a grammar finds no keywords but those that its syntactic rules refer to, and the
lexer recognises these as spellings. -/
theorem keyword_of_key (success : FlatDraft.ofGrammar grammar = .ok draft)
    {terminal : Terminal} (member : terminal ∈ draft.terminals) {name : String}
    (key : terminal.key = .keyword name) :
    name ∈ grammar.keywordNames ∧ terminal.form = .keyword := by
  refine allTerminals_of_ofGrammar (fun terminal => ∀ name, terminal.key = .keyword name →
    name ∈ grammar.keywordNames ∧ terminal.form = .keyword) ?_ success terminal member name key
  constructor
  case keyword =>
      intro name listed other same
      exact ⟨TerminalKey.keyword.inj same ▸ listed, rfl⟩
  case extra => exact fun _ here => here
  all_goals
    intros
    simp_all [Terminal.endOfInput, Terminal.ofLiteral, Terminal.ofRule, Terminal.ofPattern,
      Terminal.ofExternal, Terminal.twin]

end FlatDraft

end Lalr
