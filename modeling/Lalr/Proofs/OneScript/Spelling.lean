import Lalr.Proofs.Language.External
import Lalr.Proofs.OneScript.Token

set_option autoImplicit false

/-!
Languages with the tokens of OneScript. The forms of their tokens say what their lexers find: the
longest of the tokens whose forms they know.
-/

namespace Lalr

open Lalr.Text

namespace OneScript

/-! ## Grammars with the tokens of OneScript -/

/-- The signs that are tokens. -/
def signTexts : List String :=
  ["%", "&", "(", ")", "*", "+", ",", "-", ".", "/", ";", "<", "<=", "<>", "=", ">", ">=", "?",
    "[", "]"]

/-- The patterns of tokens. -/
def patternForms : List (String × TokenForm) :=
  [("[\\p{L}_][\\p{L}\\p{N}_]*", .identifier), ("(?:[0-9]+)(?:\\.(?:[0-9]+))?", .number),
    ("//[^\\r\\n]*", .line ['/', '/']), ("#[^\\r\\n]*", .line ['#'])]

/-- A terminal is a keyword or an external token, a sign, a word or a number, or else an extra
that is a comment or a directive. -/
def isSpoken (terminal : Terminal) : Bool :=
  match terminal.form with
  | .none | .keyword => true
  | .literal text => signTexts.contains text
  | .pattern text =>
      match patternForms.lookup text with
      | some (.line _) => terminal.extra
      | some _ => true
      | none => false

/-- No spelling of a keyword holds a digit. -/
def hasNoDigits (keyword : Keyword) : Bool :=
  keyword.spellings.all fun spelling =>
    (lowerFrom [] spelling.toList).all fun c => !Property.asciiDigit.contains c

/-- A grammar has tokens of OneScript only, words and directives among them. -/
def speaks (source : Grammar) : Bool :=
  match FlatDraft.ofGrammar source with
  | .error _ => false
  | .ok draft =>
      draft.terminals.all isSpoken &&
        draft.terminals.any (fun terminal => terminal.form = .pattern "[\\p{L}_][\\p{L}\\p{N}_]*") &&
        draft.terminals.any (fun terminal => terminal.form = .pattern "#[^\\r\\n]*") &&
        source.keywords.all hasNoDigits

theorem grammar_speaks : speaks grammar = true := by decide +kernel

/-! ## Compiled patterns -/

/-- Whether two lists of ranges are the same. -/
def sameRanges : CharRanges → CharRanges → Bool
  | [], [] => true
  | (first, last) :: ranges, (low, high) :: others =>
      first == low && last == high && sameRanges ranges others
  | _, _ => false

theorem eq_of_sameRanges {ranges others : CharRanges} (same : sameRanges ranges others = true) :
    ranges = others := by
  fun_induction sameRanges ranges others with
  | case1 => rfl
  | case2 first last ranges low high others ih =>
      simp only [Bool.and_eq_true, beq_iff_eq] at same
      obtain ⟨⟨rfl, rfl⟩, rest⟩ := same
      rw [ih rest]
  | case3 => cases same

/-- Whether a program is that of words. -/
def isWordProgram (program : Program) : Bool :=
  match program with
  | ⟨⟨[.accept, .fork 2 0, .consume part 1, .consume start 1, .check .textStart 3]⟩, 4⟩ =>
      sameRanges part wordPart && sameRanges start wordStart
  | _ => false

theorem eq_wordProgram {program : Program} (word : isWordProgram program = true) :
    program = wordProgram := by
  unfold isWordProgram at word
  split at word
  · simp only [Bool.and_eq_true] at word
    rw [eq_of_sameRanges word.1, eq_of_sameRanges word.2]
    rfl
  · cases word

theorem compile?_word : Pattern.compile? "[\\p{L}_][\\p{L}\\p{N}_]*" = some wordProgram := by
  have word : (Pattern.compile? "[\\p{L}_][\\p{L}\\p{N}_]*").any isWordProgram = true := by
    decide +kernel
  cases compiled : Pattern.compile? "[\\p{L}_][\\p{L}\\p{N}_]*" with
  | none =>
      rw [compiled] at word
      cases word
  | some program =>
      rw [compiled, Option.any_some] at word
      rw [eq_wordProgram word]

theorem exists_program {text : String} {form : TokenForm} (listed : (text, form) ∈ patternForms) :
    ∃ program, Pattern.compile? text = some program ∧
      program.Reads fun text => form.content? text := by
  simp only [patternForms, List.mem_cons, List.not_mem_nil, or_false, Prod.mk.injEq] at listed
  rcases listed with ⟨rfl, rfl⟩ | ⟨rfl, rfl⟩ | ⟨rfl, rfl⟩ | ⟨rfl, rfl⟩
  · exact ⟨wordProgram, compile?_word, reads_word⟩
  · exact ⟨numberProgram, by decide +kernel, reads_number⟩
  · exact ⟨commentProgram, by decide +kernel, reads_comment⟩
  · exact ⟨directiveProgram, by decide +kernel, reads_directive⟩

end OneScript

namespace OneScript

/-! ## What a lexer finds -/

/-- The token of a form at the start of a text. -/
def formMatch? (text : List Char) (entry : TokenForm × SymbolId) : Option TokenMatch :=
  (entry.1.content? text).map fun content =>
    ⟨entry.2, utf8Length content, text.drop content.length⟩

/-- The longest of the tokens at the start of a text, the first of equally long ones. -/
def findForm? (forms : List (TokenForm × SymbolId)) (text : List Char) : Option TokenMatch :=
  (forms.filterMap (formMatch? text)).foldl TokenMatch.longer none

/-- A lexer finds the tokens of some forms. -/
structure Spells (lexer : Lexer) (forms : List (TokenForm × SymbolId)) : Prop where
  matchToken? : ∀ text, lexer.matchToken? text = findForm? forms text
  sign : ∀ sign id, (.literal sign, id) ∈ forms → String.ofList sign ∈ signTexts
  mark : ∀ mark id, (.line mark, id) ∈ forms → mark = ['/', '/'] ∨ mark = ['#']
  extra : ∀ mark id, (.line mark, id) ∈ forms → lexer.isExtra id = true
  identifier : ∃ id, (.identifier, id) ∈ forms
  directive : ∃ id, (.line ['#'], id) ∈ forms
  word : lexer.word ≠ some errorSymbol

theorem stripLiteral?_eq (sign text : List Char) :
    stripLiteral? sign text = if sign <+: text then some (text.drop sign.length) else none := by
  induction sign generalizing text with
  | nil => simp [stripLiteral?]
  | cons l sign ih =>
      cases text with
      | nil => rfl
      | cons c text =>
          rw [stripLiteral?, ih]
          simp only [List.cons_prefix_cons, List.length_cons, List.drop_succ_cons]
          by_cases same : l = c
          · simp [same]
          · simp [same]

theorem literalMatch?_eq (text sign : List Char) (id : SymbolId) :
    Lexer.literalMatch? text (sign, id) = formMatch? text (.literal sign, id) := by
  rw [Lexer.literalMatch?, stripLiteral?_eq, formMatch?, TokenForm.content?]
  split
  · rfl
  · rfl

theorem content_ne_nil {form : TokenForm} {text content : List Char}
    (pattern : form = .identifier ∨ form = .number ∨ form = .line ['/', '/'] ∨ form = .line ['#'])
    (found : form.content? text = some content) : content ≠ [] := by
  rcases pattern with rfl | rfl | rfl | rfl
  · simp only [TokenForm.content?, Option.ite_none_right_eq_some, Option.some.injEq] at found
    obtain ⟨starts, rfl⟩ := found
    cases text with
    | nil => cases starts
    | cons c text =>
        have part := wordPart_of_wordStart starts
        simp [part]
  · simp only [TokenForm.content?, TokenForm.number?] at found
    split at found
    case isTrue => cases found
    case isFalse digits =>
        split at found
        case h_1 =>
            obtain rfl := Option.some.inj found
            split
            · exact digits
            · simp
        case h_2 =>
            obtain rfl := Option.some.inj found
            exact digits
  · simp only [TokenForm.content?, Option.ite_none_right_eq_some, Option.some.injEq] at found
    obtain ⟨⟨rest, rfl⟩, rfl⟩ := found
    exact List.cons_ne_nil '/' _
  · simp only [TokenForm.content?, Option.ite_none_right_eq_some, Option.some.injEq] at found
    obtain ⟨⟨rest, rfl⟩, rfl⟩ := found
    exact List.cons_ne_nil '#' _

theorem patternMatch?_eq {program : Program} {form : TokenForm}
    (reads : program.Reads fun text => form.content? text)
    (pattern : form = .identifier ∨ form = .number ∨ form = .line ['/', '/'] ∨ form = .line ['#'])
    (text : List Char) (id : SymbolId) :
    Lexer.patternMatch? text (program, id) = formMatch? text (form, id) := by
  have matched := reads text
  unfold Lexer.patternMatch? formMatch?
  cases found : form.content? text with
  | none =>
      simp only [found, Option.map_none] at matched ⊢
      rw [matched]
  | some content =>
      have nonempty := List.length_pos_of_ne_nil (content_ne_nil pattern found)
      have bytes := length_le_utf8Length content
      simp only [found, Option.map_some] at matched ⊢
      rw [matched]
      exact if_neg (by omega)

/-- The forms of the tokens in a lexical table. -/
def formsOf (table : LexicalTable) : List (TokenForm × SymbolId) :=
  (table.literals.map fun (text, id) => (.literal text.toList, id)) ++
    table.patterns.filterMap fun (text, id) => (patternForms.lookup text).map fun form => (form, id)

theorem mem_patternForms {text : String} {form : TokenForm}
    (found : patternForms.lookup text = some form) : (text, form) ∈ patternForms := by
  obtain ⟨before, behind, split, _⟩ := List.lookup_eq_some_iff.mp found
  rw [split]
  exact List.mem_append_right _ List.mem_cons_self

theorem form_cases {text : String} {form : TokenForm}
    (found : patternForms.lookup text = some form) :
    form = .identifier ∨ form = .number ∨ form = .line ['/', '/'] ∨ form = .line ['#'] := by
  have listed := mem_patternForms found
  simp only [patternForms, List.mem_cons, List.not_mem_nil, or_false, Prod.mk.injEq] at listed
  rcases listed with ⟨_, rfl⟩ | ⟨_, rfl⟩ | ⟨_, rfl⟩ | ⟨_, rfl⟩
  · exact .inl rfl
  · exact .inr (.inl rfl)
  · exact .inr (.inr (.inl rfl))
  · exact .inr (.inr (.inr rfl))

theorem filterMap_patternMatch? {patterns : List (String × SymbolId)}
    {programs : List (Program × SymbolId)}
    (known : ∀ entry ∈ patterns, (patternForms.lookup entry.1).isSome = true)
    (compiled : patterns.mapM (fun (text, symbol) =>
      match Pattern.compile? text with
      | some program => (pure (program, symbol) : Except LanguageError (Program × SymbolId))
      | none => .error (.invalidPattern text)) = .ok programs) (text : List Char) :
    programs.filterMap (Lexer.patternMatch? text) =
      (patterns.filterMap fun (text, id) =>
        (patternForms.lookup text).map fun form => (form, id)).filterMap (formMatch? text) := by
  induction patterns generalizing programs with
  | nil =>
      rw [List.mapM_nil] at compiled
      obtain rfl := Except.ok.inj compiled
      rfl
  | cons entry patterns ih =>
      obtain ⟨pattern, id⟩ := entry
      rw [List.mapM_cons] at compiled
      obtain ⟨first, here, rest⟩ := exists_of_bind_eq_ok compiled
      obtain ⟨others, mapped, same⟩ := exists_of_bind_eq_ok rest
      obtain rfl := Except.ok.inj same
      obtain ⟨form, found⟩ := Option.isSome_iff_exists.mp (known (pattern, id) List.mem_cons_self)
      obtain ⟨program, made, reads⟩ := exists_program (mem_patternForms found)
      dsimp only at here found
      rw [made] at here
      obtain rfl := Except.ok.inj here
      have later := ih (fun entry member => known entry (List.mem_cons_of_mem _ member)) mapped
      simp only [List.filterMap_cons, found, Option.map_some, later,
        patternMatch?_eq reads (form_cases found)]

theorem matchToken?_of_compile {table : LexicalTable} {lexer : Lexer}
    (compiled : Lexer.compile table = .ok lexer)
    (known : ∀ entry ∈ table.patterns, (patternForms.lookup entry.1).isSome = true)
    (text : List Char) : lexer.matchToken? text = findForm? (formsOf table) text := by
  obtain ⟨programs, listed, rest⟩ := exists_of_bind_eq_ok compiled
  obtain rfl := Except.ok.inj rest
  simp only [Lexer.matchToken?, findForm?, formsOf, List.filterMap_append,
    filterMap_patternMatch? known listed, List.filterMap_map]
  have same : (Lexer.literalMatch? text ∘ fun entry : String × SymbolId =>
      (entry.1.toList, entry.2)) =
      formMatch? text ∘ fun entry => (.literal entry.1.toList, entry.2) :=
    funext fun entry => literalMatch?_eq text entry.1.toList entry.2
  rw [same]

/-! ## Languages with the tokens of OneScript -/

theorem speaks_iff {source : Grammar} : speaks source = true ↔
    ∃ draft, FlatDraft.ofGrammar source = .ok draft ∧
      (∀ terminal ∈ draft.terminals, isSpoken terminal = true) ∧
      (∃ terminal ∈ draft.terminals, terminal.form = .pattern "[\\p{L}_][\\p{L}\\p{N}_]*") ∧
      (∃ terminal ∈ draft.terminals, terminal.form = .pattern "#[^\\r\\n]*") ∧
      ∀ keyword ∈ source.keywords, hasNoDigits keyword = true := by
  unfold speaks
  cases FlatDraft.ofGrammar source with
  | error mistake => simp
  | ok draft => simp [and_assoc]

theorem mem_formsOf_literal {table : LexicalTable} {sign : List Char} {id : SymbolId}
    (member : (.literal sign, id) ∈ formsOf table) : (String.ofList sign, id) ∈ table.literals := by
  cases List.mem_append.mp member with
  | inl literal =>
      obtain ⟨⟨text, number⟩, listed, same⟩ := List.mem_map.mp literal
      obtain ⟨first, rfl⟩ := Prod.mk.inj same
      obtain rfl := TokenForm.literal.inj first
      rwa [String.ofList_toList]
  | inr pattern =>
      obtain ⟨⟨text, number⟩, listed, same⟩ := List.mem_filterMap.mp pattern
      obtain ⟨form, found, same⟩ := Option.map_eq_some_iff.mp same
      obtain ⟨rfl, rfl⟩ := Prod.mk.inj same
      rcases form_cases found with wrong | wrong | wrong | wrong <;> cases wrong

theorem mem_formsOf_pattern {table : LexicalTable} {form : TokenForm} {id : SymbolId}
    (pattern : ∀ sign, form ≠ .literal sign) : (form, id) ∈ formsOf table ↔
      ∃ text, (text, id) ∈ table.patterns ∧ patternForms.lookup text = some form := by
  simp only [formsOf, List.mem_append, List.mem_map, List.mem_filterMap, Option.map_eq_some_iff]
  constructor
  · rintro (⟨_, _, same⟩ | ⟨⟨text, number⟩, listed, other, found, same⟩)
    · exact absurd (Prod.mk.inj same).1.symm (pattern _)
    · obtain ⟨rfl, rfl⟩ := Prod.mk.inj same
      exact ⟨text, listed, found⟩
  · rintro ⟨text, listed, found⟩
    exact .inr ⟨(text, id), listed, form, found, rfl⟩

/-- The lexer of a language with the tokens of OneScript finds them by their forms. -/
theorem spells_formsOf {source : Grammar} (spoken : speaks source = true) {scanner : Scanner}
    {language : Language} (loaded : Language.ofGrammar source scanner = .ok language)
    {draft : FlatDraft} (drafted : FlatDraft.ofGrammar source = .ok draft) :
    Spells language.lexer (formsOf (draft.lexicalTable source)) := by
  obtain ⟨draft', drafted', terminals, ⟨word, wordListed, wordForm⟩,
    ⟨directive, directiveListed, directiveForm⟩, _⟩ := speaks_iff.mp spoken
  obtain rfl := Except.ok.inj (drafted.symm.trans drafted')
  obtain ⟨_, draft', _, drafted', _, _, few, compiled⟩ :=
    Language.exists_draft_of_ofGrammar loaded
  obtain rfl := Except.ok.inj (drafted.symm.trans drafted')
  have pattern {text : String} {id : SymbolId}
      (listed : (text, id) ∈ (draft.lexicalTable source).patterns) : ∃ form,
        patternForms.lookup text = some form ∧
          ∀ mark, form = .line mark → id ∈ (draft.lexicalTable source).extras := by
    obtain ⟨terminal, member, form⟩ := FlatDraft.mem_patterns_iff.mp listed
    have spoken := terminals terminal (FlatDraft.mem_terminals_of_numbered member)
    rw [isSpoken, form] at spoken
    dsimp only at spoken
    split at spoken
    case h_1 mark found =>
        exact ⟨.line mark, found, fun _ _ => FlatDraft.mem_extras_of_extra member spoken⟩
    case h_2 other found => exact ⟨_, found, fun mark same => absurd same (other mark)⟩
    case h_3 => cases spoken
  have line {mark : List Char} {id : SymbolId}
      (member : (.line mark, id) ∈ formsOf (draft.lexicalTable source)) :
      ∃ text, (text, id) ∈ (draft.lexicalTable source).patterns ∧
        patternForms.lookup text = some (.line mark) :=
    (mem_formsOf_pattern (by simp)).mp member
  have extras : language.lexer.extras = (draft.lexicalTable source).extras := by
    obtain ⟨_, _, rest⟩ := exists_of_bind_eq_ok compiled
    rw [← Except.ok.inj rest]
  refine ⟨?_, ?_, ?_, ?_, ?_, ?_, ?_⟩
  · refine matchToken?_of_compile compiled fun entry member => ?_
    obtain ⟨form, found, _⟩ := pattern member
    exact Option.isSome_iff_exists.mpr ⟨form, found⟩
  · intro sign id member
    obtain ⟨terminal, listed, form⟩ := FlatDraft.mem_literals_iff.mp (mem_formsOf_literal member)
    have spoken := terminals terminal (FlatDraft.mem_terminals_of_numbered listed)
    rw [isSpoken, form] at spoken
    simpa using spoken
  · intro mark id member
    obtain ⟨text, _, found⟩ := line member
    rcases form_cases found with wrong | wrong | same | same
    · cases wrong
    · cases wrong
    · exact .inl (TokenForm.line.inj same)
    · exact .inr (TokenForm.line.inj same)
  · intro mark id member
    obtain ⟨text, listed, found⟩ := line member
    obtain ⟨form, found', extra⟩ := pattern listed
    rw [Lexer.isExtra, extras, List.contains_iff_mem]
    exact extra mark (Option.some.inj (found'.symm.trans found))
  · have numbered : ∃ id, (word, id) ∈ draft.numberedTerminals source :=
      FlatDraft.exists_numbered wordListed
    obtain ⟨id, listed⟩ := numbered
    exact ⟨id, (mem_formsOf_pattern (by simp)).mpr
      ⟨_, FlatDraft.mem_patterns_iff.mpr ⟨word, listed, wordForm⟩, rfl⟩⟩
  · have numbered : ∃ id, (directive, id) ∈ draft.numberedTerminals source :=
      FlatDraft.exists_numbered directiveListed
    obtain ⟨id, listed⟩ := numbered
    exact ⟨id, (mem_formsOf_pattern (by simp)).mpr
      ⟨_, FlatDraft.mem_patterns_iff.mpr ⟨directive, listed, directiveForm⟩, rfl⟩⟩
  · intro word
    obtain ⟨_, _, rest⟩ := exists_of_bind_eq_ok compiled
    rw [← Except.ok.inj rest] at word
    obtain ⟨name, _, named⟩ := Option.bind_eq_some_iff.mp word
    obtain ⟨index, found, same⟩ := Option.bind_eq_some_iff.mp named
    obtain ⟨_, small⟩ := FlatDraft.isToken_of_terminalIndex?
      (FlatDraft.sound_of_ofGrammar drafted) few found nofun
    rw [Option.some.inj same] at small
    exact absurd (Nat.lt_of_lt_of_le small few) (Nat.lt_irrefl 65535)

theorem spells_of_speaks {source : Grammar} (spoken : speaks source = true) {scanner : Scanner}
    {language : Language} (loaded : Language.ofGrammar source scanner = .ok language) :
    ∃ forms, Spells language.lexer forms := by
  obtain ⟨_, _, _, drafted, _⟩ := Language.exists_draft_of_ofGrammar loaded
  exact ⟨_, spells_formsOf spoken loaded drafted⟩

end OneScript

end Lalr
