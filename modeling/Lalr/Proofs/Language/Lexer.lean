import Lalr.Proofs.Language.External
import Lalr.Proofs.OneScript.Scanner

set_option autoImplicit false

/-!
What the lexer of a loaded language finds. The literals of a lexical table are those that the
grammar writes; where none of them is empty, every token but the end of the input and every extra
has a size. The lexer never finds a twin: what literals, patterns, keywords and the scanner stand
for are other terminals, and only the state of a parse turns one of these into its twin.
-/

namespace Lalr

open Lalr.Text

/-! ## Progress -/

theorem Language.progresses_of_filled {language : Language} {source : Grammar} {scanner : Scanner}
    (loaded : Language.ofGrammar source scanner = .ok language) (filled : "" ∉ source.literals) :
    language.lexer.Progresses := by
  obtain ⟨_, draft, _, drafted, _, _, _, compiled⟩ := exists_draft_of_ofGrammar loaded
  obtain ⟨patterns, _, made⟩ := exists_of_bind_eq_ok compiled
  refine Lexer.progresses_of_literals fun entry member empty => ?_
  rw [← Except.ok.inj made] at member
  obtain ⟨⟨text, id⟩, listed, rfl⟩ := List.mem_map.mp member
  obtain ⟨terminal, numbered, form⟩ := FlatDraft.mem_literals_iff.mp listed
  have written := FlatDraft.mem_literals_of_form drafted
    (FlatDraft.mem_terminals_of_numbered numbered) form
  rw [String.toList_eq_nil_iff.mp empty] at written
  exact filled written

/-! ## Sizes -/

/-- The tokens of a lexeme take something from the text, unless it is the end of the input. -/
structure Lexeme.Filled (lexeme : Lexeme) (before after : Cursor) : Prop where
  passes : ∃ passed, before.Passes passed after
  extras : ∀ extra ∈ lexeme.extras, 0 < extra.size
  token : lexeme.raw ≠ endSymbol → 0 < lexeme.size
  atEnd : lexeme.raw = endSymbol → lexeme.size = 0 ∧ after.rest = []

section

variable {language : Language} {mode : ValidExternals}

theorem filled_of_lexFrom (knowsNoEnd : language.lexer.KnowsNoEnd)
    (progresses : language.lexer.Progresses) {start limit : Nat} {extras : List Leaf}
    {examinedEnd : Nat} {cursor after : Cursor} {state : ScannerState} {lexeme : Lexeme}
    (taken : ∀ extra ∈ extras, 0 < extra.size)
    (read : lexFrom language start mode limit extras examinedEnd cursor state =
      .ok (lexeme, after)) : lexeme.Filled cursor after := by
  induction limit generalizing extras examinedEnd cursor state with
  | zero => cases read
  | succ limit ih =>
      obtain ⟨found, finding, rest⟩ := exists_of_bind_eq_ok read
      have sized (more : (cursor.skipWhile isBlank).rest ≠ []) : 0 < found.size := by
        rcases tokenAt_size_pos progresses more mode examinedEnd state with
          ⟨other, here, positive⟩ | ⟨_, failed, _⟩
        · obtain rfl := Except.ok.inj (finding.symm.trans here)
          exact positive
        · cases finding.symm.trans failed
      have fits := fitsAt_tokenAt knowsNoEnd finding
      have blanks := Cursor.Passes.skipWhile cursor isBlank
      split at rest
      case isTrue isExtra =>
          cases fits with
          | atEnd _ symbol =>
              simp only [symbol, bne_self_eq_false, Bool.false_and] at isExtra
              cases isExtra
          | token more _ content =>
              have later := ih (fun extra member => ?_) rest
              · obtain ⟨passed, onward⟩ := later.passes
                exact ⟨⟨_, (blanks.trans content).trans onward⟩, later.extras, later.token, later.atEnd⟩
              · cases member with
                | head => exact sized more
                | tail _ earlier => exact taken extra earlier
      case isFalse =>
          obtain ⟨rfl, rfl⟩ := Prod.mk.inj (Except.ok.inj rest)
          generalize known : (if language.lexer.word = some found.symbol then
            (_ : Option SymbolId) else none) = keyword
          have same := knowsNoEnd.getD_eq_end_iff known
          refine ⟨?_, fun extra member => taken extra (List.mem_reverse.mp member), ?_, ?_⟩
          · cases fits with
            | atEnd _ _ _ next => exact ⟨_, next.symm ▸ blanks⟩
            | token _ _ content => exact ⟨_, blanks.trans content⟩
          · intro other
            cases fits with
            | atEnd _ symbol => exact absurd (same.mpr symbol) other
            | token more => exact sized more
          · intro atEnd
            cases fits with
            | token _ other => exact absurd (same.mp atEnd) other
            | atEnd empty _ size next => exact ⟨size, by rw [next, empty]⟩

end

/-- Where a grammar without external tokens writes no empty literal, reading comes to an end at
every place of a text, with the end of the input behind the text or a token of some size, and
every extra on the way has a size. -/
theorem lex_filled {source : Grammar} {language : Language}
    (loaded : Language.ofGrammar source .noExternals = .ok language)
    (filled : "" ∉ source.literals) (text : List Char) {offset : Nat} {cursor : Cursor}
    (place : Cursor.at? text offset = some cursor) (mode : ValidExternals) (state : ScannerState) :
    ∃ lexeme after, lex language cursor mode state = .ok (lexeme, after) ∧
      (lexeme.raw = endSymbol ∧ lexeme.size = 0 ∧ after = ⟨utf8Length text, []⟩ ∨
        lexeme.raw ≠ endSymbol ∧ 0 < lexeme.size) ∧
      ∀ extra ∈ lexeme.extras, 0 < extra.size := by
  have knowsNoEnd := Language.knowsNoEnd_of_ofGrammar loaded
  have progresses := Language.progresses_of_filled loaded filled
  rcases lex_progress knowsNoEnd progresses cursor mode state with
    ⟨lexeme, after, read, _⟩ | ⟨fault, _, _, unfit⟩
  · have sizes := filled_of_lexFrom knowsNoEnd progresses (fun _ member => by cases member) read
    refine ⟨lexeme, after, read, ?_, sizes.extras⟩
    by_cases atEnd : lexeme.raw = endSymbol
    · obtain ⟨size, empty⟩ := sizes.atEnd atEnd
      obtain ⟨passed, passes⟩ := sizes.passes
      obtain ⟨front, reached, _⟩ := Cursor.Passes.of_advance? place
      have finish := (reached.trans passes).end_eq
      rw [empty] at finish
      refine .inl ⟨atEnd, size, ?_⟩
      rw [← empty, Cursor.mk.injEq]
      exact ⟨by simpa [Cursor.start] using finish, rfl⟩
    · exact .inr ⟨atEnd, sizes.token atEnd⟩
  · have scanner : language.scanner = .noExternals :=
      (Language.ofTables_ok (Language.ofGrammar_ok loaded).2).2.2.2.2
    exact absurd (scanner ▸ Scanner.fits_noExternals) unfit

/-- The second token of a text for the pair grammar. -/
theorem lex_filled_pair :
    ∃ language, Language.ofGrammar pairGrammar .noExternals = .ok language ∧
      ∃ lexeme after, lex language ⟨1, [' ', 'b']⟩ .none .empty = .ok (lexeme, after) ∧
        (lexeme.raw = endSymbol ∧ lexeme.size = 0 ∧ after = ⟨3, []⟩ ∨
          lexeme.raw ≠ endSymbol ∧ 0 < lexeme.size) ∧
        ∀ extra ∈ lexeme.extras, 0 < extra.size := by
  obtain ⟨_, language, _, loaded, _⟩ := pairGrammar_loads
  have filled : "" ∉ pairGrammar.literals := by decide
  have place : Cursor.at? ['a', ' ', 'b'] 1 = some ⟨1, [' ', 'b']⟩ := by decide
  exact ⟨language, loaded, lex_filled loaded filled ['a', ' ', 'b'] place .none .empty⟩

/-! ## Immediate twins -/

namespace FlatDraft

variable {grammar : Grammar} {draft : FlatDraft} {first second : Terminal} {id : SymbolId}

theorem numberedTerminals_inj (sound : draft.Sound grammar)
    (few : draft.terminalCount grammar ≤ 65535)
    (left : (first, id) ∈ draft.numberedTerminals grammar)
    (right : (second, id) ∈ draft.numberedTerminals grammar) : first = second := by
  obtain ⟨⟨terminal, index⟩, member, same⟩ := List.mem_map.mp left
  obtain ⟨⟨other, otherIndex⟩, otherMember, otherSame⟩ := List.mem_map.mp right
  obtain ⟨rfl, rfl⟩ := Prod.mk.inj same
  obtain ⟨rfl, numbers⟩ := Prod.mk.inj otherSame
  have found := List.mk_mem_zipIdx_iff_getElem?.mp member
  have otherFound := List.mk_mem_zipIdx_iff_getElem?.mp otherMember
  obtain ⟨bound, _⟩ := List.getElem?_eq_some_iff.mp found
  obtain ⟨otherBound, _⟩ := List.getElem?_eq_some_iff.mp otherFound
  obtain rfl := terminalId_toUInt16_inj sound few otherBound bound numbers
  exact Option.some.inj (found.symm.trans otherFound)

theorem exists_terminal_of_mem_twins {pair : SymbolId × SymbolId}
    (listed : pair ∈ (draft.lexicalTable grammar).immediateTwins) :
    ∃ terminal base, (terminal, pair.2) ∈ draft.numberedTerminals grammar ∧
      terminal.form = .none ∧ terminal.key = .immediate base := by
  simp only [lexicalTable, List.mem_mergeSort] at listed
  obtain ⟨⟨terminal, id⟩, member, read⟩ := List.mem_filterMap.mp listed
  dsimp only at read
  split at read
  case h_1 base form key =>
      obtain ⟨_, _, rfl⟩ := Option.map_eq_some_iff.mp read
      exact ⟨terminal, base, member, form, key⟩
  case h_2 => cases read

theorem exists_terminal_of_mem_keywords {entry : String × SymbolId}
    (listed : entry ∈ (draft.lexicalTable grammar).keywords) :
    ∃ terminal, (terminal, entry.2) ∈ draft.numberedTerminals grammar ∧
      terminal.form = .keyword := by
  obtain ⟨terminal, _, _, member, form, _⟩ := mem_keywords_iff.mp listed
  exact ⟨terminal, member, form⟩

/-- A terminal that is recognised in some way of its own is no twin. -/
theorem ne_twin_of_form (sound : draft.Sound grammar) (few : draft.terminalCount grammar ≤ 65535)
    {terminal : Terminal} (member : (terminal, id) ∈ draft.numberedTerminals grammar)
    (own : terminal.form ≠ .none) :
    ∀ pair ∈ (draft.lexicalTable grammar).immediateTwins, pair.2 ≠ id := by
  intro pair listed same
  obtain ⟨twin, _, twinMember, form, _⟩ := exists_terminal_of_mem_twins listed
  rw [same] at twinMember
  exact own (numberedTerminals_inj sound few member twinMember ▸ form)

end FlatDraft

/-- What the lexer finds is a terminal with a literal or a pattern of its own. -/
theorem FlatDraft.exists_terminal_of_matchToken? {source : Grammar} {draft : FlatDraft}
    {lexer : Lexer} (compiled : Lexer.compile (draft.lexicalTable source) = .ok lexer)
    {text : List Char} {found : TokenMatch} (matched : lexer.matchToken? text = some found) :
    ∃ terminal, (terminal, found.symbol) ∈ draft.numberedTerminals source ∧
      terminal.form ≠ .none ∧ terminal.form ≠ .keyword := by
  obtain ⟨patterns, compiledPatterns, rest⟩ := exists_of_bind_eq_ok compiled
  have lexer := Except.ok.inj rest
  cases Lexer.matchToken?_cases matched with
  | inl literal =>
      obtain ⟨entry, listed, read⟩ := literal
      obtain ⟨_, _, rfl⟩ := Option.map_eq_some_iff.mp read
      rw [← lexer] at listed
      obtain ⟨origin, known, rfl⟩ := List.mem_map.mp listed
      obtain ⟨terminal, member, form⟩ := mem_literals_iff.mp known
      exact ⟨terminal, member, by simp [form], by simp [form]⟩
  | inr pattern =>
      obtain ⟨entry, listed, read⟩ := pattern
      rw [← lexer] at listed
      obtain ⟨⟨pattern, symbol⟩, known, same⟩ := exists_of_mem_mapM_ok compiledPatterns listed
      obtain ⟨terminal, member, form⟩ := mem_patterns_iff.mp known
      have numbers : entry.2 = symbol := by
        dsimp only at same
        split at same
        case h_1 => rw [← Except.ok.inj same]
        case h_2 => cases same
      have symbols : found.symbol = symbol := by
        unfold Lexer.patternMatch? at read
        split at read
        case h_1 => cases read
        case h_2 =>
            split at read
            case isTrue => cases read
            case isFalse => rw [← Option.some.inj read, numbers]
      exact ⟨terminal, symbols ▸ member, by simp [form], by simp [form]⟩

/-- The keywords that the lexer knows are terminals without a form of their own. -/
theorem FlatDraft.exists_terminal_of_keyword? {source : Grammar} {draft : FlatDraft}
    {lexer : Lexer} (compiled : Lexer.compile (draft.lexicalTable source) = .ok lexer)
    {word : List Char} {symbol : SymbolId} (spelled : lexer.keyword? word = some symbol) :
    ∃ terminal, (terminal, symbol) ∈ draft.numberedTerminals source ∧
      terminal.form = .keyword := by
  obtain ⟨patterns, _, rest⟩ := exists_of_bind_eq_ok compiled
  have listed := mem_of_lookup_eq_some spelled
  rw [← Except.ok.inj rest] at listed
  exact exists_terminal_of_mem_keywords (List.mem_reverse.mp listed)

namespace Lexer

variable {lexer : Lexer}

/-- Nothing that the lexer or the scanner finds is a keyword; words stand for keywords. -/
structure FindsNoKeyword (lexer : Lexer) : Prop where
  found : ∀ {text found word}, lexer.matchToken? text = some found →
    lexer.keyword? word ≠ some found.symbol
  external : ∀ {word symbol}, lexer.keyword? word = some symbol → symbol ∉ lexer.externals

/-- Nothing that the lexer or the scanner finds is a twin. -/
structure FindsNoTwin (lexer : Lexer) : Prop where
  found : ∀ {text found}, lexer.matchToken? text = some found → lexer.isTwin found.symbol = false
  keyword : ∀ {word symbol}, lexer.keyword? word = some symbol → lexer.isTwin symbol = false
  external : ∀ symbol ∈ lexer.externals, lexer.isTwin symbol = false
  atEnd : lexer.isTwin endSymbol = false
  error : lexer.isTwin errorSymbol = false

theorem exists_twin_of_isTwin {symbol : SymbolId} (isTwin : lexer.isTwin symbol = true) :
    ∃ base, (base, symbol) ∈ lexer.immediateTwins ∧ lexer.twin? base = some symbol := by
  obtain ⟨pair, _, found⟩ := List.any_eq_true.mp isTwin
  have twin := eq_of_beq found
  exact ⟨pair.1, mem_of_lookup_eq_some twin, twin⟩

end Lexer

/-- The lexer of a language made for a grammar finds no twin. -/
theorem Language.findsNoTwin_of_ofGrammar {source : Grammar} {scanner : Scanner}
    {language : Language} (loaded : ofGrammar source scanner = .ok language) :
    language.lexer.FindsNoTwin := by
  obtain ⟨_, draft, _, drafted, _, _, few, compiled⟩ := exists_draft_of_ofGrammar loaded
  have sound := FlatDraft.sound_of_ofGrammar drafted
  have recognised := FlatDraft.recognised_of_ofGrammar drafted
  have apart := setsApart_of_ofGrammar loaded
  have knowsNoEnd := knowsNoEnd_of_ofGrammar loaded
  obtain ⟨_, _, rest⟩ := exists_of_bind_eq_ok compiled
  have lexer := Except.ok.inj rest
  have tabled : ∀ pair ∈ language.lexer.immediateTwins,
      pair ∈ (draft.lexicalTable source).immediateTwins := by
    intro pair listed
    rw [← lexer] at listed
    exact List.mem_reverse.mp listed
  -- a twin has no form of its own, unlike the terminals that are found
  have other : ∀ {terminal : Terminal} {id : SymbolId},
      (terminal, id) ∈ draft.numberedTerminals source → terminal.form ≠ .none →
        language.lexer.isTwin id = false := by
    intro terminal id member own
    refine Bool.eq_false_iff.mpr fun isTwin => ?_
    obtain ⟨base, listed, _⟩ := Lexer.exists_twin_of_isTwin isTwin
    exact FlatDraft.ne_twin_of_form sound few member own _ (tabled _ listed) rfl
  constructor
  · intro text found matched
    obtain ⟨terminal, member, form, _⟩ := FlatDraft.exists_terminal_of_matchToken? compiled matched
    exact other member form
  · intro word symbol spelled
    obtain ⟨terminal, member, form⟩ := FlatDraft.exists_terminal_of_keyword? compiled spelled
    exact other member (by simp [form])
  · intro symbol listed
    refine Bool.eq_false_iff.mpr fun isTwin => ?_
    obtain ⟨base, _, found⟩ := Lexer.exists_twin_of_isTwin isTwin
    exact (apart.twin found).2 listed
  · refine Bool.eq_false_iff.mpr fun isTwin => ?_
    obtain ⟨base, listed, _⟩ := Lexer.exists_twin_of_isTwin isTwin
    exact (knowsNoEnd.twins _ listed).2 rfl
  · refine Bool.eq_false_iff.mpr fun isTwin => ?_
    obtain ⟨base, listed, _⟩ := Lexer.exists_twin_of_isTwin isTwin
    obtain ⟨terminal, _, member, _, key⟩ :=
      FlatDraft.exists_terminal_of_mem_twins (tabled _ listed)
    cases FlatDraft.numbered_cases sound recognised few member with
    | inl isEnd => simp [isEnd, Terminal.endOfInput] at key
    | inr token => exact absurd (Nat.lt_of_lt_of_le token.2.2 few) (Nat.lt_irrefl 65535)

/-- The lexer of a language made for a grammar finds no keyword. -/
theorem Language.findsNoKeyword_of_ofGrammar {source : Grammar} {scanner : Scanner}
    {language : Language} (loaded : ofGrammar source scanner = .ok language) :
    language.lexer.FindsNoKeyword := by
  obtain ⟨_, draft, _, drafted, _, _, few, compiled⟩ := exists_draft_of_ofGrammar loaded
  have sound := FlatDraft.sound_of_ofGrammar drafted
  have apart := setsApart_of_ofGrammar loaded
  constructor
  · intro text found word matched spelled
    obtain ⟨terminal, member, _, other⟩ := FlatDraft.exists_terminal_of_matchToken? compiled matched
    obtain ⟨keyword, listed, form⟩ := FlatDraft.exists_terminal_of_keyword? compiled spelled
    exact other (FlatDraft.numberedTerminals_inj sound few member listed ▸ form)
  · intro word symbol spelled
    exact apart.keyword spelled

end Lalr
