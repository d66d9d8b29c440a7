import Lalr.Proofs.FlatGrammar.Language
import Lalr.Proofs.FlatGrammar.Recognition

set_option autoImplicit false

/-!
Expressions that are single tokens. Flattening one succeeds, finds its terminal and adds nothing
but terminals; so does entering the terminals that every grammar has.
-/

namespace Lalr

/-- Whether a pattern may be that of a token. -/
def isTokenPattern (text : String) : Bool :=
  (Pattern.compile? text).any fun program => !program.matchesEmpty

theorem checkPattern_eq_ok {rule text : String} (valid : isTokenPattern text = true) :
    checkPattern rule text = .ok () := by
  simp only [isTokenPattern, Option.any_eq_true, Bool.not_eq_true'] at valid
  obtain ⟨program, compiled, nonempty⟩ := valid
  simp [checkPattern, compiled, nonempty]

namespace Grammar

/-- The terminal that an expression without marks stands for, if it is a single token. -/
def tokenKey? (grammar : Grammar) : Rule → Option TerminalKey
  | .literal text => some (.literal text)
  | .pattern text => if isTokenPattern text then some (.pattern text) else none
  | .token body =>
      match body.patternText "" with
      | .ok text => if isTokenPattern text then some (.pattern text) else none
      | .error _ => none
  | .keyword name => if (grammar.keyword? name).isSome then some (.keyword name) else none
  | .symbol name =>
      match grammar.rule? name with
      | some body => if body.isLexical then some (.named name) else none
      | none => if name ∈ grammar.externals then some (.external name) else none
  | .immediate body =>
      match grammar.tokenKey? body with
      | some key => if key.isExternal then none else some (.immediate key)
      | none => none
  | .blank | .seq _ | .choice _ | .optional _ | .repeat0 _ | .repeat1 _ | .prec _ _ _
  | .dynamicPrec _ _ | .field _ _ | .aliased _ _ _ => none

/-- Whether an expression may be an extra. -/
def isExtra (grammar : Grammar) : Rule → Bool
  | .symbol name => grammar.isLexicalRule name
  | .literal _ => true
  | .pattern text => isTokenPattern text
  | _ => false

/-- Every lexical rule has a pattern. -/
def HasTokens (grammar : Grammar) : Prop :=
  ∀ name body, grammar.rule? name = some body → body.isLexical = true →
    ∃ form, body.terminalForm name = .ok form

end Grammar

/-! ## References -/

namespace Rule

mutual

theorem referencedSymbols_of_patternText {rule text : String} {body : Rule}
    (success : body.patternText rule = .ok text) : body.referencedSymbols = [] := by
  cases body with
  | blank | literal | pattern => rfl
  | token body | prec _ _ body | dynamicPrec _ body =>
      rw [patternText] at success
      rw [referencedSymbols]
      exact referencedSymbols_of_patternText success
  | optional body | repeat0 body | repeat1 body =>
      rw [patternText] at success
      obtain ⟨inner, found, _⟩ := exists_of_bind_eq_ok success
      rw [referencedSymbols]
      exact referencedSymbols_of_patternText found
  | seq items | choice items =>
      rw [patternText] at success
      obtain ⟨parts, found, _⟩ := exists_of_bind_eq_ok success
      rw [referencedSymbols]
      exact referencedSymbolsOf_of_patternTexts found
  | symbol | keyword | field | aliased | immediate => cases success

theorem referencedSymbolsOf_of_patternTexts {rule : String} {texts : List String}
    {items : List Rule} (success : patternTexts rule items = .ok texts) :
    referencedSymbolsOf items = [] := by
  cases items with
  | nil => rfl
  | cons item items =>
      rw [patternTexts] at success
      obtain ⟨text, found, rest⟩ := exists_of_bind_eq_ok success
      obtain ⟨others, listed, _⟩ := exists_of_bind_eq_ok rest
      rw [referencedSymbolsOf, referencedSymbols_of_patternText found,
        referencedSymbolsOf_of_patternTexts listed]
      rfl

end

theorem referencedSymbols_of_terminalForm {name : String} {form : TerminalForm} {body : Rule}
    (lexical : body.isLexical = true) (success : body.terminalForm name = .ok form) :
    body.referencedSymbols = [] := by
  cases body with
  | literal | pattern => rfl
  | token body =>
      obtain ⟨text, found, _⟩ := exists_of_bind_eq_ok success
      exact referencedSymbols_of_patternText found
  | _ => cases lexical

end Rule

/-- What a token refers to is defined. -/
theorem Grammar.defined_of_tokenKey? {grammar : Grammar} {body : Rule} {key : TerminalKey}
    (token : grammar.tokenKey? body = some key) :
    ∀ name ∈ body.referencedSymbols,
      (grammar.rule? name).isSome = true ∨ name ∈ grammar.externals := by
  cases body with
  | literal | pattern | keyword => simp [Rule.referencedSymbols]
  | token body =>
      rw [tokenKey?] at token
      split at token
      case h_1 text found =>
          rw [Rule.referencedSymbols, Rule.referencedSymbols_of_patternText found]
          simp
      case h_2 => cases token
  | symbol name =>
      simp only [Rule.referencedSymbols, List.mem_singleton, forall_eq]
      rw [tokenKey?] at token
      split at token
      case h_1 body found => exact .inl (by rw [found]; rfl)
      case h_2 => exact .inr (Option.ite_none_right_eq_some.mp token).1
  | immediate body =>
      rw [tokenKey?] at token
      split at token
      case h_1 key found =>
          rw [Rule.referencedSymbols]
          exact defined_of_tokenKey? found
      case h_2 => cases token
  | _ => cases token

namespace FlatDraft

/-- Nothing but terminals has been added. -/
structure AddsTerminals (before after : FlatDraft) : Prop where
  keys : before.keys <+: after.keys
  repetitions : after.repetitions = before.repetitions
  productions : after.productions = before.productions

namespace AddsTerminals

theorem refl (draft : FlatDraft) : AddsTerminals draft draft :=
  ⟨List.prefix_refl _, rfl, rfl⟩

theorem trans {first second third : FlatDraft} (early : AddsTerminals first second)
    (late : AddsTerminals second third) : AddsTerminals first third :=
  ⟨early.keys.trans late.keys, late.repetitions.trans early.repetitions,
    late.productions.trans early.productions⟩

end AddsTerminals

end FlatDraft

namespace FlattenM

open FlatDraft

/-- An action succeeds with a result, and only adds terminals. -/
def Enters {α : Type} (action : FlattenM α) (draft : FlatDraft) (holds : α → FlatDraft → Prop) :
    Prop :=
  ∃ result final, action.run draft = .ok (result, final) ∧ draft.AddsTerminals final ∧
    holds result final

namespace Enters

variable {α β : Type} {draft : FlatDraft}

theorem pure {value : α} {holds : α → FlatDraft → Prop} (here : holds value draft) :
    Enters (Pure.pure value) draft holds :=
  ⟨value, draft, rfl, .refl draft, here⟩

theorem bind {first : FlattenM α} {second : α → FlattenM β} {holds : α → FlatDraft → Prop}
    {ends : β → FlatDraft → Prop} (entered : Enters first draft holds)
    (continues : ∀ value middle, draft.AddsTerminals middle → holds value middle →
      Enters (second value) middle ends) :
    Enters (first >>= second) draft ends := by
  obtain ⟨value, middle, ran, grown, here⟩ := entered
  obtain ⟨result, final, goes, more, done⟩ := continues value middle grown here
  exact ⟨result, final, by rw [StateT.run_bind, ran]; exact goes, grown.trans more, done⟩

theorem lift {action : Except GrammarError α} {value : α} (success : action = .ok value) :
    Enters (liftM action : FlattenM α) draft fun result final => result = value ∧ final = draft := by
  subst success
  exact ⟨value, draft, rfl, .refl draft, rfl, rfl⟩

theorem get : Enters (MonadState.get : FlattenM FlatDraft) draft fun result final =>
    result = draft ∧ final = draft :=
  ⟨draft, draft, rfl, .refl draft, rfl, rfl⟩

theorem forM {action : β → FlattenM Unit} {items : List β}
    (each : ∀ item ∈ items, ∀ middle, draft.AddsTerminals middle →
      Enters (action item) middle fun _ _ => True) :
    Enters (items.forM action) draft fun _ _ => True := by
  rw [List.forM_eq_forM]
  induction items generalizing draft with
  | nil =>
      rw [List.forM_nil]
      exact .pure trivial
  | cons item items ih =>
      rw [List.forM_cons]
      refine (each item List.mem_cons_self draft (.refl draft)).bind fun _ middle grown _ => ?_
      exact ih fun other member later more =>
        each other (List.mem_cons_of_mem _ member) later (grown.trans more)

end Enters

variable {grammar : Grammar} {draft : FlatDraft}

theorem enters_intern (terminal : Terminal) (draft : FlatDraft) :
    Enters (intern terminal) draft fun index final => final.keys[index]? = some terminal.key := by
  unfold intern
  refine Enters.get.bind fun current middle _ same => ?_
  obtain ⟨rfl, rfl⟩ := same
  cases known : terminalIndex? middle.terminals terminal.key with
  | some place => exact .pure (getElem?_of_terminalIndex? known)
  | none =>
      have keys : ({ middle with terminals := middle.terminals ++ [terminal] } : FlatDraft).keys =
          middle.keys ++ [terminal.key] := by simp [keys]
      refine ⟨middle.terminals.length, _, rfl, ⟨keys ▸ List.prefix_append _ _, rfl, rfl⟩, ?_⟩
      dsimp only
      rw [keys, List.getElem?_append_right (by simp [FlatDraft.keys])]
      simp [FlatDraft.keys]

theorem enters_internRule {name : String} {body : Rule} {form : TerminalForm}
    (formed : body.terminalForm name = .ok form) (draft : FlatDraft) :
    Enters (internRule name body) draft fun index final =>
      final.keys[index]? = some (.named name) := by
  unfold internRule
  refine Enters.get.bind fun current middle _ same => ?_
  obtain ⟨rfl, rfl⟩ := same
  split
  case h_1 place known => exact .pure (getElem?_of_terminalIndex? known)
  case h_2 =>
      refine (Enters.lift formed).bind fun found middle _ same => ?_
      obtain ⟨rfl, rfl⟩ := same
      exact enters_intern (.ofRule name found) middle

theorem enters_internPattern {text : String} (valid : isTokenPattern text = true) (rule : String)
    (draft : FlatDraft) :
    Enters (internPattern rule text) draft fun index final =>
      final.keys[index]? = some (.pattern text) := by
  unfold internPattern
  refine (Enters.lift (checkPattern_eq_ok valid)).bind fun _ middle _ same => ?_
  obtain ⟨_, rfl⟩ := same
  refine Enters.get.bind fun current middle _ same => ?_
  obtain ⟨rfl, rfl⟩ := same
  split
  case h_1 place known => exact .pure (getElem?_of_terminalIndex? known)
  case h_2 =>
      obtain ⟨index, final, ran, grown, placed⟩ :=
        enters_intern (.ofPattern (rule ++ "_token" ++ toString (middle.patternOwners.count rule + 1))
          text) { middle with patternOwners := rule :: middle.patternOwners }
      exact ⟨index, final, by simpa using ran,
        ⟨grown.keys, grown.repetitions, grown.productions⟩, placed⟩

theorem idxOf?_eq_none {name : String}
    (other : ∀ body, grammar.rule? name = some body → body.isLexical = true) :
    grammar.syntacticRules.idxOf? name = none := by
  cases found : grammar.syntacticRules.idxOf? name with
  | none => rfl
  | some index =>
      obtain ⟨body, listed⟩ := Grammar.idxOf?_syntacticRules_iff.mp found
      obtain ⟨known, syntactic⟩ := Grammar.mem_syntacticEntries_iff.mp (List.mem_of_getElem? listed)
      exact absurd (other body known) (by simp [syntactic])

theorem ne_endOfInput_of_tokenKey? {body : Rule} {key : TerminalKey}
    (token : grammar.tokenKey? body = some key) : key ≠ .endOfInput := by
  rintro rfl
  cases body <;> grind [Grammar.tokenKey?]

/-- A token is flattened to its terminal. -/
theorem enters_token (tokens : grammar.HasTokens) (rule : String) {body : Rule} {key : TerminalKey}
    (token : grammar.tokenKey? body = some key) (sound : draft.Sound grammar)
    (declared : ∀ name ∈ grammar.externals, .external name ∈ draft.keys) :
    Enters (flatten grammar rule body) draft fun found final =>
      ∃ index, found = [.single (.terminal index)] ∧ final.keys[index]? = some key := by
  cases body with
  | literal text =>
      obtain rfl := Option.some.inj token
      rw [flatten]
      exact (enters_intern (.ofLiteral text) draft).bind fun index _ _ placed =>
        .pure ⟨index, rfl, placed⟩
  | pattern text =>
      rw [Grammar.tokenKey?] at token
      obtain ⟨valid, same⟩ := Option.ite_none_right_eq_some.mp token
      obtain rfl := Option.some.inj same
      rw [flatten]
      exact (enters_internPattern valid rule draft).bind fun index _ _ placed =>
        .pure ⟨index, rfl, placed⟩
  | token body =>
      rw [Grammar.tokenKey?] at token
      split at token
      case h_2 => cases token
      case h_1 text found =>
          obtain ⟨valid, same⟩ := Option.ite_none_right_eq_some.mp token
          obtain rfl := Option.some.inj same
          rw [flatten]
          refine (Enters.lift (Rule.patternText_of_ok found)).bind fun _ middle _ same => ?_
          obtain ⟨rfl, rfl⟩ := same
          exact (enters_internPattern valid rule middle).bind fun index _ _ placed =>
            .pure ⟨index, rfl, placed⟩
  | keyword name =>
      rw [Grammar.tokenKey?] at token
      obtain ⟨known, same⟩ := Option.ite_none_right_eq_some.mp token
      obtain rfl := Option.some.inj same
      rw [flatten, if_neg (by simp [Option.isSome_iff_ne_none.mp known])]
      exact (enters_intern (.ofKeyword name) draft).bind fun index _ _ placed =>
        .pure ⟨index, rfl, placed⟩
  | symbol name =>
      rw [Grammar.tokenKey?] at token
      rw [flatten]
      split at token
      case h_1 body known =>
          obtain ⟨lexical, same⟩ := Option.ite_none_right_eq_some.mp token
          obtain rfl := Option.some.inj same
          obtain ⟨form, formed⟩ := tokens name body known lexical
          have resolved : Enters (resolve grammar rule name) draft fun symbol final =>
              ∃ index, symbol = .terminal index ∧ final.keys[index]? = some (.named name) := by
            unfold resolve
            rw [idxOf?_eq_none fun other found =>
              Option.some.inj (known.symm.trans found) ▸ lexical, known]
            dsimp only
            rw [map_eq_pure_bind]
            exact (enters_internRule formed draft).bind fun index _ _ placed =>
              .pure ⟨index, rfl, placed⟩
          refine resolved.bind fun symbol middle _ same => ?_
          obtain ⟨index, rfl, placed⟩ := same
          exact .pure ⟨index, rfl, placed⟩
      case h_2 unknown =>
          obtain ⟨listed, same⟩ := Option.ite_none_right_eq_some.mp token
          obtain rfl := Option.some.inj same
          have resolved : Enters (resolve grammar rule name) draft fun symbol final =>
              ∃ index, symbol = .terminal index ∧ final.keys[index]? = some (.external name) := by
            unfold resolve
            rw [idxOf?_eq_none fun other found => (nomatch unknown.symm.trans found), unknown]
            refine Enters.get.bind fun _ middle _ same => ?_
            obtain ⟨rfl, rfl⟩ := same
            obtain ⟨index, placed⟩ := List.getElem?_of_mem (declared name listed)
            rw [(terminalIndex?_eq_some_iff sound).mpr placed]
            exact .pure ⟨index, rfl, placed⟩
          refine resolved.bind fun symbol middle _ same => ?_
          obtain ⟨index, rfl, placed⟩ := same
          exact .pure ⟨index, rfl, placed⟩
  | immediate body =>
      rw [Grammar.tokenKey?] at token
      split at token
      case h_2 => cases token
      case h_1 base based =>
          obtain ⟨own, same⟩ := Option.ite_none_left_eq_some.mp token
          obtain rfl := Option.some.inj same
          obtain ⟨found, middle, ran, grown, index, rfl, placed⟩ :=
            enters_token tokens rule based sound declared
          have kept := (flatten_ok rule body sound ran).1
          have later := kept.index_pos placed (ne_endOfInput_of_tokenKey? based)
          have twin : Enters (immediate rule (.single (.terminal index))) middle
              fun alternative final => ∃ index, alternative = .single (.terminal index) ∧
                final.keys[index]? = some (.immediate base) := by
            unfold immediate
            refine Enters.get.bind fun _ middle _ same => ?_
            obtain ⟨rfl, rfl⟩ := same
            obtain ⟨terminal, listed, keyed⟩ : ∃ terminal, middle.terminals[index]? = some terminal ∧
                terminal.key = base := by simpa [keys] using placed
            rw [listed]
            dsimp only
            rw [if_neg (by simp [Nat.ne_of_gt later, keyed, own])]
            exact (enters_intern terminal.twin middle).bind fun place _ _ entered =>
              .pure ⟨place, rfl, by rw [entered, Terminal.twin, keyed]⟩
          rw [flatten]
          have reached : Enters (flatten grammar rule body) draft fun found final =>
              found = [.single (.terminal index)] ∧ final = middle :=
            ⟨_, middle, ran, grown, rfl, rfl⟩
          refine reached.bind fun found final _ same => ?_
          obtain ⟨rfl, rfl⟩ := same
          rw [List.mapM_cons]
          refine twin.bind fun alternative last _ same => ?_
          obtain ⟨place, rfl, entered⟩ := same
          rw [List.mapM_nil]
          exact .pure ⟨place, rfl, entered⟩
  | _ => cases token

/-! ## Terminals that do not depend on the syntactic rules -/

theorem enters_extra (tokens : grammar.HasTokens) {extra : Rule}
    (isExtra : grammar.isExtra extra = true) (draft : FlatDraft) :
    Enters (enterExtra grammar extra) draft fun _ _ => True := by
  have marks : ∀ (index : Nat) (middle : FlatDraft),
      Enters (modify fun draft : FlatDraft => { draft with
        terminals := draft.terminals.modify index fun terminal =>
          { terminal with extra := true } } : FlattenM Unit) middle fun _ _ => True :=
    fun index middle => ⟨(), _, rfl,
      ⟨(keys_markExtra middle index).symm ▸ List.prefix_refl _, rfl, rfl⟩, trivial⟩
  unfold enterExtra
  dsimp only
  split
  case h_1 name =>
      simp only [Grammar.isExtra, Grammar.isLexicalRule, Option.any_eq_true] at isExtra
      obtain ⟨body, known, lexical⟩ := isExtra
      obtain ⟨form, formed⟩ := tokens name body known lexical
      rw [known]
      dsimp only
      rw [if_pos lexical]
      exact (enters_internRule formed draft).bind fun index middle _ _ => marks index middle
  case h_2 text =>
      exact (enters_intern (.ofLiteral text) draft).bind fun index middle _ _ => marks index middle
  case h_3 text =>
      exact (enters_internPattern isExtra "extra" draft).bind fun index middle _ _ =>
        marks index middle
  case h_4 => cases extra <;> simp_all [Grammar.isExtra]

theorem enters_fixedTerminals (tokens : grammar.HasTokens)
    (word : ∀ name ∈ grammar.word, grammar.isLexicalRule name = true)
    (extras : ∀ extra ∈ grammar.extras, grammar.isExtra extra = true) :
    Enters (enterFixedTerminals grammar) {} fun _ _ => True := by
  have behindWord : ∀ middle : FlatDraft, Enters (do
      grammar.externals.forM fun name => do
        let _ ← intern (.ofExternal name)
      grammar.extras.forM (enterExtra grammar)) middle fun _ _ => True := by
    intro middle
    refine (Enters.forM fun name _ draft _ =>
      (enters_intern (.ofExternal name) draft).bind fun _ _ _ _ => .pure trivial).bind
        fun _ last _ _ => ?_
    exact Enters.forM fun extra member draft _ => enters_extra tokens (extras extra member) draft
  unfold enterFixedTerminals
  refine (enters_intern .endOfInput {}).bind fun _ first _ _ => ?_
  split
  case h_1 => exact behindWord first
  case h_2 name named =>
      have lexical := word name named
      simp only [Grammar.isLexicalRule, Option.any_eq_true] at lexical
      obtain ⟨body, known, lexical⟩ := lexical
      obtain ⟨form, formed⟩ := tokens name body known lexical
      rw [known]
      exact (enters_internRule formed first).bind fun _ second _ _ => behindWord second

end FlattenM

end Lalr
