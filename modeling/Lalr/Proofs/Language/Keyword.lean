import Lalr.Proofs.FlatGrammar.Repetition
import Lalr.Proofs.Language.External

set_option autoImplicit false

/-!
Keywords among words. Where the word token is found, its text is looked up in lower case: it is the
keyword with such a spelling, if a syntactic rule refers to this keyword, and stays a word otherwise.
Of several definitions of a keyword the first one is looked at.
-/

namespace Lalr

open Lalr.Text

namespace Grammar

/-! ## Spellings -/

/-- A text is a spelling of a keyword that the syntactic rules refer to. -/
def Spells (grammar : Grammar) (name : String) (word : List Char) : Prop :=
  name ∈ grammar.keywordNames ∧ ∃ keyword, grammar.keyword? name = some keyword ∧
    ∃ spelling ∈ keyword.spellings, lowerCase spelling = lowerCase (String.ofList word)

instance (grammar : Grammar) (name : String) (word : List Char) :
    Decidable (grammar.Spells name word) :=
  inferInstanceAs (Decidable (_ ∧ ∃ keyword, _ = some keyword ∧ _))

/-- Spellings that pass the check have one owner for each lower-case form, also together with those
checked before. -/
theorem checkSpellings_ok {owners entries : List (String × String)}
    (success : checkSpellings owners entries = .ok ()) :
    (∀ entry ∈ entries, ∀ owner, owners.lookup (lowerCase entry.1) = some owner →
      owner = entry.2) ∧
    ∀ first ∈ entries, ∀ second ∈ entries,
      lowerCase first.1 = lowerCase second.1 → first.2 = second.2 := by
  induction entries generalizing owners with
  | nil => exact ⟨nofun, nofun⟩
  | cons entry entries ih =>
      obtain ⟨spelling, name⟩ := entry
      rw [checkSpellings] at success
      -- the owners that the remaining spellings are checked against
      have settled (known : List (String × String)) (success : checkSpellings known entries = .ok ())
          (here : known.lookup (lowerCase spelling) = some name)
          (grows : ∀ text owner, owners.lookup text = some owner →
            known.lookup text = some owner) :
          (∀ entry ∈ (spelling, name) :: entries, ∀ owner,
            owners.lookup (lowerCase entry.1) = some owner → owner = entry.2) ∧
          ∀ first ∈ (spelling, name) :: entries, ∀ second ∈ (spelling, name) :: entries,
            lowerCase first.1 = lowerCase second.1 → first.2 = second.2 := by
        obtain ⟨before, among⟩ := ih success
        constructor
        · intro entry member owner found
          rcases List.mem_cons.mp member with rfl | later
          · exact Option.some.inj ((grows _ _ found).symm.trans here)
          · exact before entry later owner (grows _ _ found)
        · intro first firstMember second secondMember same
          rcases List.mem_cons.mp firstMember with rfl | firstLater
          · rcases List.mem_cons.mp secondMember with rfl | secondLater
            · rfl
            · exact before second secondLater name (same ▸ here)
          · rcases List.mem_cons.mp secondMember with rfl | secondLater
            · exact (before first firstLater name (same ▸ here)).symm
            · exact among first firstLater second secondLater same
      split at success
      case h_1 owner found =>
          split at success
          case isTrue own => exact settled owners success (own ▸ found) fun _ _ => id
          case isFalse => cases success
      case h_2 missing =>
          refine settled _ success (List.lookup_cons_self) fun text owner found => ?_
          have other : (text == lowerCase spelling) = false := by
            rw [beq_eq_false_iff_ne]
            rintro rfl
            cases missing.symm.trans found
          simpa only [List.lookup_cons, other] using found

/-- Keywords of an accepted grammar that share a spelling have the same name. -/
theorem name_eq_of_spelling {grammar : Grammar} (checked : grammar.check = .ok ())
    {first second : Keyword} (firstListed : first ∈ grammar.keywords)
    (secondListed : second ∈ grammar.keywords) {spelling other : String}
    (written : spelling ∈ first.spellings) (otherWritten : other ∈ second.spellings)
    (same : lowerCase spelling = lowerCase other) : first.name = second.name := by
  obtain ⟨_, _, checked⟩ := exists_of_bind_eq_ok checked
  obtain ⟨_, _, checked⟩ := exists_of_bind_eq_ok checked
  obtain ⟨_, spellings, _⟩ := exists_of_bind_eq_ok checked
  have entry {keyword : Keyword} (listed : keyword ∈ grammar.keywords) {text : String}
      (written : text ∈ keyword.spellings) : (text, keyword.name) ∈ grammar.keywords.flatMap
        fun keyword => keyword.spellings.map fun spelling => (spelling, keyword.name) :=
    List.mem_flatMap.mpr ⟨keyword, listed, List.mem_map_of_mem written⟩
  exact (checkSpellings_ok spellings).2 _ (entry firstListed written) _
    (entry secondListed otherWritten) same

theorem check_of_ofGrammar {source : Grammar} {grammar : FlatGrammar}
    (flattened : FlatGrammar.ofGrammar source = .ok grammar) : source.check = .ok () := by
  obtain ⟨_, checked, _⟩ := exists_of_bind_eq_ok flattened
  exact eq_ok_of_mapError checked

end Grammar

/-! ## The table of spellings -/

namespace FlatDraft

variable {grammar : Grammar} {draft : FlatDraft} {first second : Terminal} {id other : SymbolId}

theorem id_eq_of_key (sound : draft.Sound grammar)
    (left : (first, id) ∈ draft.numberedTerminals grammar)
    (right : (second, other) ∈ draft.numberedTerminals grammar) (same : first.key = second.key) :
    id = other := by
  obtain ⟨⟨terminal, index⟩, member, written⟩ := List.mem_map.mp left
  obtain ⟨⟨twin, otherIndex⟩, otherMember, otherWritten⟩ := List.mem_map.mp right
  obtain ⟨rfl, rfl⟩ := Prod.mk.inj written
  obtain ⟨rfl, rfl⟩ := Prod.mk.inj otherWritten
  have found := List.mk_mem_zipIdx_iff_getElem?.mp member
  have otherFound := List.mk_mem_zipIdx_iff_getElem?.mp otherMember
  have key : draft.keys[index]? = draft.keys[otherIndex]? := by
    simp only [keys, List.getElem?_map, found, otherFound, Option.map_some, same]
  have bound : index < draft.keys.length := by
    obtain ⟨inside, _⟩ := List.getElem?_eq_some_iff.mp found
    rwa [length_keys]
  rw [(List.getElem?_inj bound sound.keysNodup).mp key]

/-- The number of a terminal with a key is the one that its symbol keeps. -/
theorem terminalNumber?_eq_iff (sound : draft.Sound grammar)
    (few : draft.terminalCount grammar ≤ 65535) {key : TerminalKey} {symbol : SymbolId} :
    draft.terminalNumber? grammar key = some symbol.toNat ↔
      ∃ terminal, (terminal, symbol) ∈ draft.numberedTerminals grammar ∧ terminal.key = key := by
  have kept {index : Nat} (bound : index < draft.terminals.length) :
      (draft.terminalId grammar index).toUInt16.toNat = draft.terminalId grammar index := by
    have bounded := terminalId_lt sound bound
    exact UInt16.toNat_ofNat_of_lt' (by simp only [UInt16.size]; omega)
  rw [terminalNumber?_eq_some_iff sound]
  constructor
  · rintro ⟨index, placed, number⟩
    have bound := lt_length_terminals placed
    refine ⟨draft.terminals[index], List.mem_map.mpr ⟨(draft.terminals[index], index),
      List.mk_mem_zipIdx_iff_getElem?.mpr (List.getElem?_eq_getElem bound), ?_⟩, ?_⟩
    · rw [Prod.mk.injEq, ← UInt16.toNat_inj, kept bound]
      exact ⟨rfl, number⟩
    · simpa [keys, bound] using placed
  · rintro ⟨terminal, member, rfl⟩
    obtain ⟨⟨terminal, index⟩, listed, same⟩ := List.mem_map.mp member
    obtain ⟨rfl, rfl⟩ := Prod.mk.inj same
    have found := List.mk_mem_zipIdx_iff_getElem?.mp listed
    refine ⟨index, by simp [keys, found], (kept ?_).symm⟩
    exact (List.getElem?_eq_some_iff.mp found).1

end FlatDraft

namespace Language

variable {source : Grammar} {scanner : Scanner} {language : Language}

theorem terminalNumber?_of_ofGrammar {draft : FlatDraft}
    (drafted : FlatDraft.ofGrammar source = .ok draft) (key : TerminalKey) :
    source.terminalNumber? key = draft.terminalNumber? source key := by
  rw [Grammar.terminalNumber?, drafted]

/-- The keyword that a word is looked up as is the one with such a spelling. -/
theorem keyword?_eq_some_iff (loaded : Language.ofGrammar source scanner = .ok language)
    {word : List Char} {symbol : SymbolId} :
    language.lexer.keyword? word = some symbol ↔
      ∃ name, source.Spells name word ∧
        source.terminalNumber? (.keyword name) = some symbol.toNat := by
  obtain ⟨grammar, draft, flattened, drafted, _, _, few, compiled⟩ :=
    exists_draft_of_ofGrammar loaded
  have sound := FlatDraft.sound_of_ofGrammar drafted
  have entries : language.lexer.keywords = (draft.lexicalTable source).keywords.reverse := by
    obtain ⟨_, _, rest⟩ := exists_of_bind_eq_ok compiled
    rw [← Except.ok.inj rest]
  -- what is found for a word is an entry of the table, and the table has one entry for each form
  have entered {symbol : SymbolId} (found : language.lexer.keyword? word = some symbol) :
      ∃ terminal name keyword, (terminal, symbol) ∈ draft.numberedTerminals source ∧
        terminal.key = .keyword name ∧ source.keyword? name = some keyword ∧
        ∃ spelling ∈ keyword.spellings, lowerCase spelling = lowerCase (String.ofList word) := by
    have member := mem_of_lookup_eq_some found
    rw [entries, List.mem_reverse] at member
    obtain ⟨terminal, name, keyword, numbered, _, key, defined, spelling, written, same⟩ :=
      FlatDraft.mem_keywords_iff.mp member
    refine ⟨terminal, name, keyword, numbered, key, defined, spelling, written, ?_⟩
    rw [same, lowerCase, String.toList_ofList]
  constructor
  · intro found
    obtain ⟨terminal, name, keyword, numbered, key, defined, spelt⟩ := entered found
    have member := FlatDraft.mem_terminals_of_numbered numbered
    refine ⟨name, ⟨(FlatDraft.keyword_of_key drafted member key).1, keyword, defined, spelt⟩, ?_⟩
    rw [terminalNumber?_of_ofGrammar drafted, FlatDraft.terminalNumber?_eq_iff sound few]
    exact ⟨terminal, numbered, key⟩
  · rintro ⟨name, ⟨_, keyword, defined, spelling, written, same⟩, number⟩
    rw [terminalNumber?_of_ofGrammar drafted, FlatDraft.terminalNumber?_eq_iff sound few] at number
    obtain ⟨terminal, numbered, key⟩ := number
    have form := (FlatDraft.keyword_of_key drafted
      (FlatDraft.mem_terminals_of_numbered numbered) key).2
    have member : (String.ofList (lowerFrom [] word), symbol) ∈ language.lexer.keywords := by
      rw [entries, List.mem_reverse]
      refine FlatDraft.mem_keywords_iff.mpr
        ⟨terminal, name, keyword, numbered, form, key, defined, spelling, written, ?_⟩
      rw [same, lowerCase, String.toList_ofList]
    cases found : language.lexer.keyword? word with
    | none =>
        have absent := List.lookup_eq_none_iff.mp found _ member
        simp at absent
    | some other =>
        obtain ⟨twin, otherName, second, otherNumbered, otherKey, otherDefined, otherSpelling,
          otherWritten, otherSame⟩ := entered found
        have checked := Grammar.check_of_ofGrammar flattened
        have names := Grammar.name_eq_of_spelling checked (List.mem_of_find?_eq_some defined)
          (List.mem_of_find?_eq_some otherDefined) written otherWritten (same.trans otherSame.symm)
        have own : keyword.name = name := by simpa using List.find?_some defined
        have otherOwn : second.name = otherName := by simpa using List.find?_some otherDefined
        have keys : twin.key = terminal.key := by rw [key, otherKey, ← own, ← otherOwn, names]
        rw [FlatDraft.id_eq_of_key sound otherNumbered numbered keys]

/-- The word token of a language is the terminal of the rule that its grammar names. -/
theorem word_of_terminalNumber? (loaded : Language.ofGrammar source scanner = .ok language)
    {name : String} (word : source.word = some name) {symbol : SymbolId}
    (number : source.terminalNumber? (.named name) = some symbol.toNat) :
    language.lexer.word = some symbol := by
  obtain ⟨_, draft, _, drafted, _, _, few, compiled⟩ := exists_draft_of_ofGrammar loaded
  have sound := FlatDraft.sound_of_ofGrammar drafted
  obtain ⟨_, _, rest⟩ := exists_of_bind_eq_ok compiled
  rw [terminalNumber?_of_ofGrammar drafted, FlatDraft.terminalNumber?] at number
  obtain ⟨index, found, same⟩ := Option.map_eq_some_iff.mp number
  rw [← Except.ok.inj rest]
  simp [FlatDraft.lexicalTable, word, found, same]

end Language

/-! ## Lexemes -/

/-- The token that was found in the text: the word, where a keyword was looked up for it. -/
def Lexeme.found (lexeme : Lexeme) : SymbolId :=
  lexeme.word.getD lexeme.raw

/-- Where a lexeme is found in a text, and what it was looked up as. -/
structure Lexeme.FoundBetween (lexeme : Lexeme) (lexer : Lexer) (cursor after : Cursor)
    (passed word : List Char) : Prop where
  text : cursor.rest = passed ++ word ++ after.rest
  start : cursor.offset + utf8Length passed = lexeme.contentStart
  size : utf8Length word = lexeme.size
  keyword : lexer.word = some lexeme.found → lexeme.raw = (lexer.keyword? word).getD lexeme.found

theorem exists_foundBetween_of_lexFrom {language : Language}
    (knowsNoEnd : language.lexer.KnowsNoEnd) {start : Nat} {mode : ValidExternals} {limit : Nat}
    {extras : List Leaf} {examinedEnd : Nat} {cursor after : Cursor} {state : ScannerState}
    {lexeme : Lexeme}
    (read : lexFrom language start mode limit extras examinedEnd cursor state =
      .ok (lexeme, after)) :
    ∃ passed word, lexeme.FoundBetween language.lexer cursor after passed word := by
  induction limit generalizing extras examinedEnd cursor state with
  | zero => cases read
  | succ limit ih =>
      obtain ⟨found, finding, rest⟩ := exists_of_bind_eq_ok read
      obtain ⟨blanks, ahead⟩ : ∃ blanks, cursor.Passes blanks (cursor.skipWhile isBlank) :=
        ⟨_, Cursor.Passes.skipWhile cursor isBlank⟩
      obtain ⟨content, passes, sized⟩ : ∃ content,
          (cursor.skipWhile isBlank).Passes content found.next ∧ utf8Length content = found.size := by
        cases fitsAt_tokenAt knowsNoEnd finding with
        | atEnd _ _ size next => exact ⟨[], next ▸ .refl _, size.symm⟩
        | token _ _ passes size => exact ⟨_, passes, size⟩
      split at rest
      case isTrue =>
          obtain ⟨passed, word, between⟩ := ih rest
          have onward := ahead.trans passes
          refine ⟨blanks ++ content ++ passed, word, ?_, ?_, between.size, between.keyword⟩
          · rw [onward.rest, between.text]
            simp only [List.append_assoc]
          · rw [utf8Length_append, ← Nat.add_assoc, ← onward.offset, between.start]
      case isFalse =>
          obtain ⟨rfl, rfl⟩ := Prod.mk.inj (Except.ok.inj rest)
          refine ⟨blanks, content, (ahead.trans passes).rest, ?_, sized, ?_⟩
          · simp only [Lexeme.contentStart, ahead.offset]
            omega
          · have cut := splitBytes?_eq_some_iff.mpr ⟨passes.rest, sized⟩
            intro isWord
            simp only [Lexeme.found, cut] at isWord ⊢
            split at isWord
            case isTrue here =>
                rw [if_pos here]
                cases language.lexer.keyword? content <;> rfl
            case isFalse other => exact absurd isWord (by simpa using other)

/-- Where the word token is found, the token is the keyword that its text spells and no other one;
where it spells none, it stays the word. -/
theorem raw_of_word {source : Grammar} {scanner : Scanner} {language : Language}
    (loaded : Language.ofGrammar source scanner = .ok language) {cursor after : Cursor}
    {mode : ValidExternals} {state : ScannerState} {lexeme : Lexeme}
    (read : lex language cursor mode state = .ok (lexeme, after)) {name : String}
    (isWord : source.word = some name)
    (found : source.terminalNumber? (.named name) = some lexeme.found.toNat) :
    ∃ passed word, cursor.rest = passed ++ word ++ after.rest ∧
      cursor.offset + utf8Length passed = lexeme.contentStart ∧ utf8Length word = lexeme.size ∧
      (∀ keyword, source.terminalNumber? (.keyword keyword) = some lexeme.raw.toNat ↔
        source.Spells keyword word) ∧
      ((∀ keyword, ¬ source.Spells keyword word) → lexeme.raw = lexeme.found) := by
  obtain ⟨passed, word, between⟩ :=
    exists_foundBetween_of_lexFrom (Language.knowsNoEnd_of_ofGrammar loaded) read
  have raw := between.keyword (Language.word_of_terminalNumber? loaded isWord found)
  obtain ⟨_, draft, flattened, drafted, _, _, few, _⟩ := Language.exists_draft_of_ofGrammar loaded
  have sound := FlatDraft.sound_of_ofGrammar drafted
  have distinct {first second : TerminalKey} {number : Nat}
      (left : source.terminalNumber? first = some number)
      (right : source.terminalNumber? second = some number) : first = second := by
    rw [Language.terminalNumber?_of_ofGrammar drafted] at left right
    exact FlatDraft.terminalNumber?_inj sound left right
  have looked {symbol : SymbolId} := @Language.keyword?_eq_some_iff source scanner language loaded
    word symbol
  refine ⟨passed, word, between.text, between.start, between.size, fun keyword => ?_, fun none_ => ?_⟩
  · cases known : language.lexer.keyword? word with
    | none =>
        rw [known, Option.getD_none] at raw
        constructor
        · intro number
          cases distinct (raw ▸ number) found
        · intro spells
          have entered := (FlatDraft.covers_of_ofGrammar drafted).keywords keyword spells.1
          obtain ⟨terminal, listed, key⟩ := List.mem_map.mp entered
          obtain ⟨symbol, numbered⟩ := FlatDraft.exists_numbered listed
          have number : source.terminalNumber? (.keyword keyword) = some symbol.toNat := by
            rw [Language.terminalNumber?_of_ofGrammar drafted,
              FlatDraft.terminalNumber?_eq_iff sound few]
            exact ⟨terminal, numbered, key⟩
          cases known.symm.trans (looked.mpr ⟨keyword, spells, number⟩)
    | some symbol =>
        rw [known, Option.getD_some] at raw
        obtain ⟨other, spells, number⟩ := looked.mp known
        rw [raw]
        constructor
        · intro same
          cases distinct same number
          exact spells
        · intro spells'
          obtain ⟨_, first, defined, spelling, written, same⟩ := spells
          obtain ⟨_, second, defined', spelling', written', same'⟩ := spells'
          have names := Grammar.name_eq_of_spelling (Grammar.check_of_ofGrammar flattened)
            (List.mem_of_find?_eq_some defined) (List.mem_of_find?_eq_some defined') written
            written' (same.trans same'.symm)
          have own : first.name = other := by simpa using List.find?_some defined
          have own' : second.name = keyword := by simpa using List.find?_some defined'
          rw [← own', ← names, own, number]
  · cases known : language.lexer.keyword? word with
    | none => rw [raw, known, Option.getD_none]
    | some symbol =>
        obtain ⟨other, spells, _⟩ := looked.mp known
        exact absurd spells (none_ other)

/-- A word and a keyword that is defined twice. -/
def twiceGrammar : Grammar :=
  ⟨{ name := "twice"
     rules := [("start", .keyword "if"), ("id", .pattern "[a-z]+")]
     keywords := [⟨"if", ["if"]⟩, ⟨"if", ["fi"]⟩]
     word := some "id" }, by decide⟩

set_option maxRecDepth 10000 in
/-- The spellings of the second definition are words. -/
theorem raw_of_word_twice :
    ∃ language lexeme after, Language.ofGrammar twiceGrammar .noExternals = .ok language ∧
      lex language ⟨0, "fi".toList⟩ .none .empty = .ok (lexeme, after) ∧
      twiceGrammar.terminalNumber? (.named "id") = some lexeme.found.toNat ∧
      lexeme.raw = lexeme.found := by
  have shown : ((Language.ofGrammar twiceGrammar .noExternals).toOption.bind fun language =>
      (lex language ⟨0, "fi".toList⟩ .none .empty).toOption.map fun read =>
        (read.1.found, read.1.contentStart, read.1.size, read.2)) =
        some (1, 0, 2, ⟨2, []⟩) := by cbv
  have number : twiceGrammar.terminalNumber? (.named "id") = some 1 := by cbv
  cases loaded : Language.ofGrammar twiceGrammar .noExternals with
  | error failure => simp [loaded, Except.toOption] at shown
  | ok language =>
      simp only [loaded, Except.toOption, Option.bind_some] at shown
      cases read : lex language ⟨0, "fi".toList⟩ .none .empty with
      | error failure => simp only [read, Option.map_none, reduceCtorEq] at shown
      | ok result =>
          obtain ⟨lexeme, after⟩ := result
          simp only [read, Option.map_some, Option.some.injEq, Prod.mk.injEq] at shown
          obtain ⟨found, start, size, rfl⟩ := shown
          have isId : twiceGrammar.terminalNumber? (.named "id") = some lexeme.found.toNat := by
            rw [number, found]
            rfl
          obtain ⟨passed, word, text, front, _, _, stays⟩ := raw_of_word loaded read rfl isId
          obtain rfl : passed = [] := by
            cases passed with
            | nil => rfl
            | cons c passed =>
                have positive := c.utf8Size_pos
                simp only [start, utf8Length_cons] at front
                omega
          obtain rfl : "fi".toList = word := by simpa using text
          refine ⟨language, lexeme, ⟨2, []⟩, rfl, read, isId, stays fun keyword spells => ?_⟩
          have listed : keyword ∈ ["if"] := spells.1
          obtain rfl := List.mem_singleton.mp listed
          have other : ¬ twiceGrammar.Spells "if" "fi".toList := by decide +kernel
          exact other spells

end Lalr
