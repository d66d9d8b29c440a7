import Lalr.Proofs.Language.Keyword
import Lalr.Proofs.OneScript.Spelling

set_option autoImplicit false

/-!
Keywords written in different ways. What a word stands for depends on its lower-case form only,
and a keyword has several spellings.
-/

namespace Lalr

open Lalr.Text

namespace OneScript

/-! ## Words -/

/-- A text that the pattern of words matches as a whole. -/
def IsWord (text : List Char) : Prop :=
  ∃ program, Pattern.compile? "[\\p{L}_][\\p{L}\\p{N}_]*" = some program ∧
    program.match? text = some (utf8Length text, [])

theorem isWord_iff {text : List Char} : IsWord text ↔
    text.head?.any wordStart.contains = true ∧ ∀ c ∈ text, wordPart.contains c = true := by
  have matched := reads_word text
  simp only [TokenForm.content?] at matched
  constructor
  · intro word
    obtain ⟨program, compiled, whole⟩ := word
    rw [compile?_word] at compiled
    obtain rfl := Option.some.inj compiled
    rw [whole] at matched
    split at matched
    case isTrue starts =>
        obtain ⟨length, _⟩ := Prod.mk.inj (Option.some.inj matched)
        have taken := eq_of_prefix_of_utf8Length_le
          (List.takeWhile_prefix (l := text) wordPart.contains) (Nat.le_of_eq length)
        exact ⟨starts, List.takeWhile_eq_self_iff.mp taken⟩
    case isFalse => cases matched
  · intro word
    obtain ⟨starts, parts⟩ := word
    refine ⟨wordProgram, compile?_word, ?_⟩
    rw [matched, if_pos starts, List.takeWhile_eq_self_iff.mpr parts, Option.map_some,
      List.drop_length]

/-! ## Spellings -/

/-- A word stands for a keyword: in lower case it is one of its spellings. -/
structure Spelt (keyword : Keyword) (word : List Char) : Prop where
  isWord : IsWord word
  folded : ∃ spelling ∈ keyword.spellings, lowerCase (String.ofList word) = lowerCase spelling

/-- The spellings of all keywords in lower case. -/
def foldedSpellings (source : Grammar) : List (String × Keyword) :=
  source.keywords.flatMap fun keyword =>
    keyword.spellings.map fun spelling => (lowerCase spelling, keyword)

/-- No two keywords share a spelling. -/
def SpellsApart (source : Grammar) : Prop :=
  (foldedSpellings source).Pairwise fun first second => first.1 = second.1 → first.2 = second.2

instance (source : Grammar) : Decidable (SpellsApart source) :=
  inferInstanceAs (Decidable (List.Pairwise _ _))

theorem grammar_spellsApart : SpellsApart grammar := by decide +kernel

section spelt

variable {source : Grammar} {keyword first second : Keyword} {word other : List Char}

theorem mem_foldedSpellings {spelling : String} (listed : keyword ∈ source.keywords)
    (spelt : spelling ∈ keyword.spellings) :
    (lowerCase spelling, keyword) ∈ foldedSpellings source :=
  List.mem_flatMap.mpr ⟨keyword, listed, List.mem_map.mpr ⟨spelling, spelt, rfl⟩⟩

theorem SpellsApart.eq (apart : SpellsApart source) {text : String}
    (left : (text, first) ∈ foldedSpellings source)
    (right : (text, second) ∈ foldedSpellings source) : first = second := by
  have symmetric : Std.Symm fun first second : String × Keyword =>
      first.1 = second.1 → first.2 = second.2 :=
    ⟨fun _ _ alike same => (alike same.symm).symm⟩
  exact List.Pairwise.forall_of_forall (fun _ _ _ => rfl) apart left right rfl

/-- All that is written for a keyword is looked up as the same token. -/
theorem Spelt.keyword?_of_some (apart : SpellsApart source) {scanner : Scanner}
    {language : Language} (loaded : Language.ofGrammar source scanner = .ok language)
    (listed : keyword ∈ source.keywords) (spelt : Spelt keyword word) (spelt' : Spelt keyword other)
    {symbol : SymbolId} (found : language.lexer.keyword? word = some symbol) :
    language.lexer.keyword? other = some symbol := by
  obtain ⟨_, draft, _, drafted, _, _, _, compiled⟩ := Language.exists_draft_of_ofGrammar loaded
  have sound := FlatDraft.sound_of_ofGrammar drafted
  have entries : language.lexer.keywords = (draft.lexicalTable source).keywords.reverse := by
    obtain ⟨_, _, rest⟩ := exists_of_bind_eq_ok compiled
    rw [← Except.ok.inj rest]
  have entered {word : List Char} {symbol : SymbolId} (spelt : Spelt keyword word)
      (found : language.lexer.keyword? word = some symbol) : ∃ terminal name,
        (terminal, symbol) ∈ draft.numberedTerminals source ∧ terminal.form = .keyword ∧
          terminal.key = .keyword name ∧ source.keyword? name = some keyword := by
    have member := mem_of_lookup_eq_some found
    rw [entries, List.mem_reverse] at member
    obtain ⟨terminal, name, known, numbered, form, key, defined, text, written, same⟩ :=
      FlatDraft.mem_keywords_iff.mp member
    obtain ⟨spelling, chosen, folded⟩ := spelt.folded
    have other := mem_foldedSpellings (List.mem_of_find?_eq_some defined) written
    rw [same, ← String.toList_ofList (l := word)] at other
    obtain rfl := apart.eq other (folded ▸ mem_foldedSpellings listed chosen)
    exact ⟨terminal, name, numbered, form, key, defined⟩
  obtain ⟨terminal, name, numbered, form, key, defined⟩ := entered spelt found
  obtain ⟨spelling, chosen, folded⟩ := spelt'.folded
  cases looked : language.lexer.keyword? other with
  | none =>
      have absent := List.lookup_eq_none_iff.mp looked
      have member : (lowerCase spelling, symbol) ∈ language.lexer.keywords := by
        rw [entries, List.mem_reverse]
        exact FlatDraft.mem_keywords_iff.mpr
          ⟨terminal, name, keyword, numbered, form, key, defined, spelling, chosen, rfl⟩
      have apart := absent _ member
      rw [← folded] at apart
      simp [lowerCase] at apart
  | some found' =>
      obtain ⟨terminal', name', numbered', _, key', defined'⟩ := entered spelt' looked
      have same : name = name' := by
        have left := List.find?_some defined
        have right := List.find?_some defined'
        simp only [beq_iff_eq] at left right
        exact left.symm.trans right
      rw [FlatDraft.id_eq_of_key sound numbered' numbered (by rw [key, key', same])]

theorem Spelt.keyword?_eq (apart : SpellsApart source) {scanner : Scanner} {language : Language}
    (loaded : Language.ofGrammar source scanner = .ok language) (listed : keyword ∈ source.keywords)
    (spelt : Spelt keyword word) (spelt' : Spelt keyword other) :
    language.lexer.keyword? word = language.lexer.keyword? other :=
  Option.ext fun _ => ⟨spelt.keyword?_of_some apart loaded listed spelt',
    spelt'.keyword?_of_some apart loaded listed spelt⟩

/-! ## Digits -/

theorem lowerChar_digits : Property.asciiDigit.chars.all (fun c => lowerChar c == c) = true := by
  decide +kernel

/-- Digits stay in lower case. -/
theorem mem_lowerFrom_of_digit {c : Char} (digit : Property.asciiDigit.contains c = true)
    {text : List Char} (member : c ∈ text) (before : List Char) : c ∈ lowerFrom before text := by
  induction text generalizing before with
  | nil => cases member
  | cons d text ih =>
      rw [lowerFrom, List.mem_append]
      cases List.mem_cons.mp member with
      | inl same =>
          subst same
          have sigma : c ≠ 'Σ' := by
            rintro rfl
            cases digit
          have dotted : c ≠ 'İ' := by
            rintro rfl
            cases digit
          have small := List.all_eq_true.mp lowerChar_digits c (CharRanges.mem_chars digit)
          rw [if_neg sigma, if_neg dotted, beq_iff_eq.mp small]
          exact .inl List.mem_cons_self
      | inr later => exact .inr (ih later _)

theorem Spelt.not_digit (plain : hasNoDigits keyword = true) (spelt : Spelt keyword word) :
    ∀ c ∈ word, Property.asciiDigit.contains c = false := by
  obtain ⟨spelling, chosen, folded⟩ := spelt.folded
  have same : lowerFrom [] word = lowerFrom [] spelling.toList := by
    simpa [lowerCase] using congrArg String.toList folded
  intro c member
  by_contra digit
  rw [Bool.not_eq_false] at digit
  have lowered := mem_lowerFrom_of_digit digit member []
  rw [same] at lowered
  simp only [hasNoDigits, List.all_eq_true] at plain
  have apart := plain spelling chosen c lowered
  rw [digit] at apart
  cases apart

end spelt

end OneScript

end Lalr
