import Lalr.Proofs.Automaton.Neighbours
import Lalr.Proofs.Language.Keyword
import Lalr.Proofs.OneScript.Locality
import Lalr.Proofs.Operators.Written

set_option autoImplicit false

/-!
Grammars that keep their tokens apart. What a grammar lets stand in front of a point or of an
immediate twin, and what it lets stand last, can be read off its rules.
-/

namespace Lalr

open Lalr.Text

namespace Grammar

/-! ## What stands in front of a symbol -/

/-- Symbols with those that they end with. Every round adds what the productions of the symbols that
are known end with, until there is nothing to add. -/
def endings (productions : List WrittenProduction) :
    Nat → List WrittenSymbol → List WrittenSymbol
  | 0, known => known
  | rounds + 1, known =>
      let found := productions.filterMap fun production =>
        if known.contains production.lhs then production.symbols.getLast? else none
      let more := (found.filter fun symbol => !known.contains symbol).eraseDups
      if more.isEmpty then known else endings productions rounds (known ++ more)

variable (source : Grammar)

/-- The symbols that stand in front of symbols of a kind, with those that they end with. -/
def inFrontOf (kind : WrittenSymbol → Bool) : List WrittenSymbol :=
  let productions := source.writtenProductions
  let found := (productions.flatMap WrittenProduction.neighbours).filterMap fun pair =>
    if kind pair.2 then some pair.1 else none
  endings productions productions.length found.eraseDups

/-- Whether only known symbols, and what they end with, stand in front of symbols of a kind, with
which nothing begins. -/
def onlyBehind (kind : WrittenSymbol → Bool) (known : List WrittenSymbol) : Bool :=
  !kind (.terminal .endOfInput) && source.writtenProductions.all fun production =>
    production.symbols.head?.all (fun symbol => !kind symbol) &&
      production.neighbours.all (fun pair => !kind pair.2 || known.contains pair.1) &&
      (!known.contains production.lhs || production.symbols.getLast?.all known.contains)

/-- Whether no rule but the first one can stand for nothing, and the first one stands in no
other. -/
def isFilled : Bool :=
  source.startRule?.any fun start =>
    source.writtenProductions.all fun production =>
      (!production.symbols.isEmpty || production.lhs = .rule start) &&
        !production.symbols.contains (.rule start)

variable {source : Grammar} {grammar : FlatGrammar}

theorem exists_getElem?_of_shows {numbers : List Nat} {symbols : List WrittenSymbol}
    (each : List.Forall₂ source.Shows numbers symbols) {place number : Nat}
    (found : numbers[place]? = some number) :
    ∃ symbol, symbols[place]? = some symbol ∧ source.Shows number symbol := by
  induction each generalizing place with
  | nil => cases found
  | cons here _ ih =>
      cases place with
      | zero => exact ⟨_, rfl, Option.some.inj found ▸ here⟩
      | succ place => exact ih found

theorem shows_end (flattened : FlatGrammar.ofGrammar source = .ok grammar) :
    source.Shows endSymbol.toNat (.terminal .endOfInput) := by
  obtain ⟨draft, drafted, _⟩ := FlatGrammar.exists_draft_of_ofGrammar flattened
  have sound := FlatDraft.sound_of_ofGrammar drafted
  refine ⟨draft, drafted, (FlatDraft.shows_terminal_iff sound).mpr
    ((FlatDraft.terminalNumber?_eq_some_iff sound).mpr ⟨0, ?_, rfl⟩)⟩
  rw [← List.head?_eq_getElem?]
  exact sound.endFirst

theorem filled_of_isFilled (flattened : FlatGrammar.ofGrammar source = .ok grammar)
    (filled : source.isFilled = true) : grammar.Filled := by
  simp only [isFilled, Option.any_eq_true, List.all_eq_true, Bool.and_eq_true, Bool.or_eq_true,
    Bool.not_eq_true', decide_eq_true_eq, List.isEmpty_eq_false_iff] at filled
  obtain ⟨start, isStart, all⟩ := filled
  obtain ⟨name, isName, shown⟩ := shows_start flattened
  obtain rfl := Option.some.inj (isStart.symm.trans isName)
  constructor
  · intro production member empty
    obtain ⟨entry, written, left, each, _⟩ := exists_shown_of_mem flattened member
    rw [empty] at each
    have isRule := (all entry written).1.resolve_left (· (List.forall₂_nil_left_iff.mp each))
    rw [isRule] at left
    have settled : ∀ content, WrittenSymbol.rule start ≠ .repetition content := nofun
    have same := (shows_iff settled).mp left
    rw [(shows_iff settled).mp shown] at same
    exact (Option.some.inj same).symm
  · intro production member listed
    obtain ⟨entry, written, _, each, _⟩ := exists_shown_of_mem flattened member
    obtain ⟨symbol, inside, here⟩ := exists_of_mem_forall₂ each.flip listed
    obtain rfl := shown.unique here
    have absent := (all entry written).2
    rw [List.contains_iff_mem.mpr inside] at absent
    cases absent

/-- What cannot stand in front of symbols of a kind is severed from them. -/
theorem severs_of_onlyBehind (flattened : FlatGrammar.ofGrammar source = .ok grammar)
    {kind : WrittenSymbol → Bool} {known : List WrittenSymbol}
    (behind : source.onlyBehind kind known = true) :
    grammar.Severs (fun number => ∀ symbol, source.Shows number symbol → symbol ∉ known)
      (fun number => ∃ symbol, source.Shows number symbol ∧ kind symbol = true) := by
  simp only [onlyBehind, Bool.and_eq_true, Bool.not_eq_true', List.all_eq_true, Bool.or_eq_true,
    Option.all_eq_true] at behind
  obtain ⟨notEnd, all⟩ := behind
  refine ⟨?_, ?_, ?_, ?_⟩
  · intro production member number last other symbol here listed
    obtain ⟨entry, written, left, each, _⟩ := exists_shown_of_mem flattened member
    obtain rfl := here.unique left
    obtain ⟨ending, isLast, shown⟩ := exists_getElem?_of_shows each
      (List.getLast?_eq_getElem? ▸ last)
    rw [each.length_eq, ← List.getLast?_eq_getElem?] at isLast
    rcases (all entry written).2 with absent | inside
    · rw [List.contains_iff_mem.mpr listed] at absent
      cases absent
    · exact other ending shown (List.contains_iff_mem.mp (inside ending isLast))
  · rintro production member number first ⟨symbol, here, isKind⟩
    obtain ⟨entry, written, _, each, _⟩ := exists_shown_of_mem flattened member
    obtain ⟨opening, isFirst, shown⟩ := exists_getElem?_of_shows each
      (List.head?_eq_getElem? ▸ first)
    obtain rfl := here.unique shown
    have absent := (all entry written).1.1 symbol (List.head?_eq_getElem? ▸ isFirst)
    rw [isKind] at absent
    cases absent
  · rintro production member dot first second left right other ⟨symbol, here, isKind⟩
    obtain ⟨entry, written, _, each, _⟩ := exists_shown_of_mem flattened member
    obtain ⟨pair, listed, shown, shown'⟩ := exists_neighbours each left right
    obtain rfl := here.unique shown'
    rcases (all entry written).1.2 pair listed with absent | inside
    · rw [isKind] at absent
      cases absent
    · exact other pair.1 shown (List.contains_iff_mem.mp inside)
  · rintro ⟨symbol, here, isKind⟩
    obtain rfl := here.unique (shows_end flattened)
    rw [isKind] at notEnd
    cases notEnd

end Grammar

namespace OneScript

/-! ## Grammars that keep their tokens apart -/

/-- Whether a symbol is an immediate twin. -/
def isTwin : WrittenSymbol → Bool
  | .terminal (.immediate _) => true
  | _ => false

/-- Whether a symbol is a sign or its twin. -/
def isSign (sign : String) : WrittenSymbol → Bool
  | .terminal (.immediate key) => key = .literal sign
  | .terminal key => key = .literal sign
  | _ => false

/-- Whether a terminal keeps apart: an extra is a comment or a directive, words are identifiers, a
point and a slash are named after their texts, and a number stands in no such place as is given. -/
def keepsApart (source : Grammar) (places : List WrittenSymbol) (terminal : Terminal) : Bool :=
  match terminal.form with
  | .none | .keyword => !terminal.extra
  | .literal text =>
      !terminal.extra && source.word.all (fun word => terminal.key ≠ .named word) &&
        (!(["/", "."].contains text) || terminal.key = .literal text)
  | .pattern text =>
      match patternForms.lookup text with
      | some .identifier => !terminal.extra
      | some .number =>
          !terminal.extra && source.word.all (fun word => terminal.key ≠ .named word) &&
            !places.contains (.terminal terminal.key) &&
            !places.contains (.terminal (.immediate terminal.key))
      | _ => source.word.all fun word => terminal.key ≠ .named word

/-- Whether a grammar keeps its tokens apart: no production ends with a slash, none ends as what
stands in front of a twin does, and no number ends what stands in front of a point. -/
def delimits (source : Grammar) : Bool :=
  match FlatDraft.ofGrammar source with
  | .error _ => false
  | .ok draft =>
      draft.terminals.all (keepsApart source (source.inFrontOf (isSign "."))) &&
        source.isFilled &&
        source.onlyBehind (isSign ".") (source.inFrontOf (isSign ".")) &&
        source.onlyBehind isTwin (source.inFrontOf isTwin) &&
        source.writtenProductions.all fun production =>
          production.symbols.getLast?.all fun symbol =>
            !isSign "/" symbol && !(source.inFrontOf isTwin).contains symbol

theorem grammar_delimits : delimits grammar = true := by decide +kernel

section terminals

variable {source : Grammar} {draft : FlatDraft} {form : TokenForm} {id : SymbolId}

/-- The terminal that a form of tokens comes from. -/
theorem exists_terminal_of_mem_formsOf
    (listed : (form, id) ∈ formsOf (draft.lexicalTable source)) :
    ∃ terminal, (terminal, id) ∈ draft.numberedTerminals source ∧
      ((∃ text, terminal.form = .literal text ∧ form = .literal text.toList) ∨
        ∃ text, terminal.form = .pattern text ∧ patternForms.lookup text = some form) := by
  by_cases literal : ∃ sign, form = .literal sign
  · obtain ⟨sign, rfl⟩ := literal
    obtain ⟨terminal, member, written⟩ := FlatDraft.mem_literals_iff.mp (mem_formsOf_literal listed)
    exact ⟨terminal, member, .inl ⟨_, written, by rw [String.toList_ofList]⟩⟩
  · obtain ⟨text, known, found⟩ :=
      (mem_formsOf_pattern fun sign same => literal ⟨sign, same⟩).mp listed
    obtain ⟨terminal, member, written⟩ := FlatDraft.mem_patterns_iff.mp known
    exact ⟨terminal, member, .inr ⟨text, written, found⟩⟩

theorem shows_of_numbered (drafted : FlatDraft.ofGrammar source = .ok draft)
    (few : draft.terminalCount source ≤ 65535) {terminal : Terminal}
    (member : (terminal, id) ∈ draft.numberedTerminals source) :
    source.Shows id.toNat (.terminal terminal.key) := by
  have sound := FlatDraft.sound_of_ofGrammar drafted
  exact ⟨draft, drafted, (FlatDraft.shows_terminal_iff sound).mpr
    ((FlatDraft.terminalNumber?_eq_iff sound few).mpr ⟨terminal, member, rfl⟩)⟩

theorem exists_numbered_of_terminalIndex? {key : TerminalKey} {index : Nat}
    (placed : terminalIndex? draft.terminals key = some index) :
    ∃ terminal, (terminal, (draft.terminalId source index).toUInt16) ∈
      draft.numberedTerminals source ∧ terminal.key = key := by
  obtain ⟨terminal, here, isKey⟩ :=
    Option.map_eq_some_iff.mp (List.getElem?_map ▸ getElem?_of_terminalIndex? placed)
  exact ⟨terminal, List.mem_map.mpr
    ⟨(terminal, index), List.mk_mem_zipIdx_iff_getElem?.mpr here, rfl⟩, isKey⟩

theorem exists_terminal_of_isExtra {lexer : Lexer}
    (compiled : Lexer.compile (draft.lexicalTable source) = .ok lexer)
    (extra : lexer.isExtra id = true) :
    ∃ terminal, (terminal, id) ∈ draft.numberedTerminals source ∧ terminal.extra = true := by
  obtain ⟨_, _, rest⟩ := exists_of_bind_eq_ok compiled
  have listed := List.contains_iff_mem.mp extra
  rw [← Except.ok.inj rest] at listed
  simp only [FlatDraft.lexicalTable, List.mem_mergeSort, List.mem_map, List.mem_filter] at listed
  obtain ⟨⟨terminal, _⟩, ⟨member, isExtra⟩, rfl⟩ := listed
  exact ⟨terminal, List.mem_map.mpr member, isExtra⟩

theorem exists_terminal_of_word {lexer : Lexer}
    (compiled : Lexer.compile (draft.lexicalTable source) = .ok lexer)
    (isWord : lexer.word = some id) : ∃ terminal word,
      (terminal, id) ∈ draft.numberedTerminals source ∧ source.word = some word ∧
        terminal.key = .named word := by
  obtain ⟨_, _, rest⟩ := exists_of_bind_eq_ok compiled
  rw [← Except.ok.inj rest] at isWord
  obtain ⟨word, named, index, placed, rfl⟩ : ∃ word, source.word = some word ∧ ∃ index,
      terminalIndex? draft.terminals (.named word) = some index ∧
        (draft.terminalId source index).toUInt16 = id := by
    simpa [FlatDraft.lexicalTable, Option.bind_eq_some_iff] using isWord
  obtain ⟨terminal, member, isKey⟩ := exists_numbered_of_terminalIndex? placed
  exact ⟨terminal, word, member, named, isKey⟩

/-- The twin of a terminal is named after it. -/
theorem exists_twin (drafted : FlatDraft.ofGrammar source = .ok draft)
    (few : draft.terminalCount source ≤ 65535) {lexer : Lexer}
    (compiled : Lexer.compile (draft.lexicalTable source) = .ok lexer) {base twin : SymbolId}
    (found : lexer.twin? base = some twin) : ∃ key,
      source.Shows base.toNat (.terminal key) ∧ source.Shows twin.toNat (.terminal (.immediate key)) := by
  have sound := FlatDraft.sound_of_ofGrammar drafted
  obtain ⟨_, _, rest⟩ := exists_of_bind_eq_ok compiled
  have listed := mem_of_lookup_eq_some found
  rw [← Except.ok.inj rest] at listed
  have listed := List.mem_reverse.mp listed
  simp only [FlatDraft.lexicalTable, List.mem_mergeSort] at listed
  obtain ⟨⟨terminal, number⟩, member, read⟩ := List.mem_filterMap.mp listed
  dsimp only at read
  split at read
  case h_2 => cases read
  case h_1 key _ named =>
      obtain ⟨index, placed, same⟩ := Option.map_eq_some_iff.mp read
      obtain ⟨rfl, rfl⟩ := Prod.mk.inj same
      refine ⟨key, ?_, named ▸ shows_of_numbered drafted few member⟩
      obtain ⟨other, here, isKey⟩ := exists_numbered_of_terminalIndex? placed
      have shown := shows_of_numbered drafted few here
      rwa [isKey] at shown

end terminals

/-! ## Languages of such grammars -/

section language

variable {source : Grammar} {draft : FlatDraft} {lexer : Lexer} {form : TokenForm}
  {symbol id : SymbolId} {places : List WrittenSymbol}
  (drafted : FlatDraft.ofGrammar source = .ok draft)
  (few : draft.terminalCount source ≤ 65535)
  (compiled : Lexer.compile (draft.lexicalTable source) = .ok lexer)
  (terminals : ∀ terminal ∈ draft.terminals, keepsApart source places terminal = true)

include drafted few compiled terminals

theorem exists_mark_of_isExtra (listed : (form, id) ∈ formsOf (draft.lexicalTable source))
    (extra : lexer.isExtra id = true) : ∃ mark, form = .line mark := by
  obtain ⟨terminal, member, isExtra⟩ := exists_terminal_of_isExtra compiled extra
  obtain ⟨other, listed, shape⟩ := exists_terminal_of_mem_formsOf listed
  obtain rfl := FlatDraft.numberedTerminals_inj (FlatDraft.sound_of_ofGrammar drafted) few member
    listed
  have apart := terminals terminal (FlatDraft.mem_terminals_of_numbered member)
  unfold keepsApart at apart
  rcases shape with ⟨text, formed, rfl⟩ | ⟨text, formed, found⟩
  · simp [formed, isExtra] at apart
  · simp only [formed, found] at apart
    rcases form_cases found with rfl | rfl | rfl | rfl
    · simp [isExtra] at apart
    · simp [isExtra] at apart
    · exact ⟨_, rfl⟩
    · exact ⟨_, rfl⟩

theorem eq_identifier_of_word (listed : (form, id) ∈ formsOf (draft.lexicalTable source))
    (isWord : lexer.word = some id) : form = .identifier := by
  obtain ⟨terminal, word, member, named, isKey⟩ := exists_terminal_of_word compiled isWord
  obtain ⟨other, listed, shape⟩ := exists_terminal_of_mem_formsOf listed
  obtain rfl := FlatDraft.numberedTerminals_inj (FlatDraft.sound_of_ofGrammar drafted) few member
    listed
  have apart := terminals terminal (FlatDraft.mem_terminals_of_numbered member)
  unfold keepsApart at apart
  rcases shape with ⟨text, formed, rfl⟩ | ⟨text, formed, found⟩
  · simp [formed, named, isKey] at apart
  · simp only [formed, found] at apart
    rcases form_cases found with rfl | rfl | rfl | rfl
    · rfl
    · simp [named, isKey] at apart
    · simp [named, isKey] at apart
    · simp [named, isKey] at apart

/-- A point or a slash is a sign, and so is its twin. -/
theorem exists_sign {sign : String} (plain : sign = "/" ∨ sign = ".")
    (listed : (.literal sign.toList, id) ∈ formsOf (draft.lexicalTable source))
    (either : symbol = id ∨ lexer.twin? id = some symbol) :
    ∃ key, source.Shows symbol.toNat (.terminal key) ∧ isSign sign (.terminal key) = true := by
  obtain ⟨terminal, member, shape⟩ := exists_terminal_of_mem_formsOf listed
  obtain ⟨text, formed, same⟩ : ∃ text, terminal.form = .literal text ∧
      TokenForm.literal sign.toList = .literal text.toList := by
    rcases shape with shape | ⟨text, _, found⟩
    · exact shape
    · rcases form_cases found with wrong | wrong | wrong | wrong <;> cases wrong
  obtain rfl := String.toList_inj.mp (TokenForm.literal.inj same)
  have apart := terminals terminal (FlatDraft.mem_terminals_of_numbered member)
  unfold keepsApart at apart
  have isKey : terminal.key = .literal sign := by
    rcases plain with rfl | rfl <;> simp [formed] at apart <;> exact apart.2
  have shown := shows_of_numbered drafted few member
  rcases either with rfl | isTwin
  · exact ⟨_, shown, by simp [isKey, isSign]⟩
  · obtain ⟨key, base, twin⟩ := exists_twin drafted few compiled isTwin
    obtain rfl := WrittenSymbol.terminal.inj (base.unique shown)
    exact ⟨_, twin, by simp [isKey, isSign]⟩

/-- A number, or its twin, stands in no place that is given. -/
theorem not_mem_places (listed : (.number, id) ∈ formsOf (draft.lexicalTable source))
    (either : symbol = id ∨ lexer.twin? id = some symbol) {written : WrittenSymbol}
    (shown : source.Shows symbol.toNat written) : written ∉ places := by
  obtain ⟨terminal, member, shape⟩ := exists_terminal_of_mem_formsOf listed
  obtain ⟨text, formed, found⟩ : ∃ text, terminal.form = .pattern text ∧
      patternForms.lookup text = some .number := by
    rcases shape with ⟨_, _, same⟩ | shape
    · cases same
    · exact shape
  have apart := terminals terminal (FlatDraft.mem_terminals_of_numbered member)
  simp only [keepsApart, formed, found, Bool.and_eq_true, Bool.not_eq_true'] at apart
  have here := shows_of_numbered drafted few member
  intro inside
  rcases either with rfl | isTwin
  · obtain rfl := here.unique shown
    simp [inside] at apart
  · obtain ⟨key, base, twin⟩ := exists_twin drafted few compiled isTwin
    obtain rfl := WrittenSymbol.terminal.inj (base.unique here)
    obtain rfl := twin.unique shown
    simp [inside] at apart

end language

theorem isExtra_error {source : Grammar} {draft : FlatDraft} {lexer : Lexer}
    (drafted : FlatDraft.ofGrammar source = .ok draft)
    (few : draft.terminalCount source ≤ 65535)
    (compiled : Lexer.compile (draft.lexicalTable source) = .ok lexer) :
    lexer.isExtra errorSymbol = false := by
  refine Bool.eq_false_iff.mpr fun extra => ?_
  obtain ⟨terminal, member, isExtra⟩ := exists_terminal_of_isExtra compiled extra
  rcases FlatDraft.numbered_cases (FlatDraft.sound_of_ofGrammar drafted)
    (FlatDraft.recognised_of_ofGrammar drafted) few member with rfl | ⟨_, _, small⟩
  · cases isExtra
  · exact absurd (Nat.lt_of_lt_of_le small few) (Nat.lt_irrefl 65535)

theorem filled_of_delimits {source : Grammar} {grammar : FlatGrammar}
    (delimited : delimits source = true)
    (flattened : FlatGrammar.ofGrammar source = .ok grammar) : grammar.Filled := by
  unfold delimits at delimited
  split at delimited
  case h_1 => cases delimited
  case h_2 =>
      simp only [Bool.and_eq_true] at delimited
      exact Grammar.filled_of_isFilled flattened delimited.1.1.1.2

/-- A language with the tokens of OneScript whose grammar keeps them apart. -/
theorem tokenizes_of_delimits {source : Grammar} {grammar : FlatGrammar} {language : Language}
    (spoken : speaks source = true) (delimited : delimits source = true)
    (flattened : FlatGrammar.ofGrammar source = .ok grammar)
    (loaded : Language.ofGrammar source OneScript.scanner = .ok language)
    (represents : language.tables.Represents grammar) : ∃ forms, Tokenizes language forms := by
  have filled := filled_of_delimits delimited flattened
  obtain ⟨_, draft, _, drafted, _, _, few, compiled⟩ := Language.exists_draft_of_ofGrammar loaded
  simp only [delimits, drafted, Bool.and_eq_true, List.all_eq_true] at delimited
  obtain ⟨⟨⟨⟨terminals, _⟩, point⟩, twin⟩, last⟩ := delimited
  -- what a state that shifts a symbol reduces ends with that symbol
  have ending {state next : StateId} {symbol follower : SymbolId} {rule : ProductionId}
      (shifted : language.action state symbol = .shift next)
      (reduced : language.action next follower = .reduce rule) : ∃ written,
        source.Shows symbol.toNat written ∧ isSign "/" written = false ∧
          written ∉ source.inFrontOf isTwin := by
    obtain ⟨production, member, ends⟩ := represents.getLast?_of_reduce filled shifted reduced
    obtain ⟨entry, here, _, each, _⟩ := Grammar.exists_shown_of_mem flattened member
    obtain ⟨written, isLast, shown⟩ := Grammar.exists_getElem?_of_shows each
      (List.getLast?_eq_getElem? ▸ ends)
    rw [each.length_eq, ← List.getLast?_eq_getElem?] at isLast
    have alone := last entry here
    simp only [isLast, Option.all_some, Bool.and_eq_true, Bool.not_eq_true'] at alone
    exact ⟨written, shown, alone.1, by simpa using alone.2⟩
  have isTerminal {number : SymbolId} {key : TerminalKey}
      (shown : source.Shows number.toNat (.terminal key)) :
      grammar.isTerminal number.toNat = true := decide_eq_true (shown.lt_terminalCount flattened)
  refine ⟨formsOf (draft.lexicalTable source), spells_formsOf spoken loaded drafted,
    (Language.ofTables_ok (Language.ofGrammar_ok loaded).2).2.2.2.2, ⟨?_, ?_, ?_, ?_, ?_, ?_⟩,
    Language.knowsNoEnd_of_ofGrammar loaded, Language.knowsNoError_of_ofGrammar represents loaded,
    Language.findsNoKeyword_of_ofGrammar loaded, Language.setsApart_of_ofGrammar loaded, ?_⟩
  case refine_1 => exact fun form id => exists_mark_of_isExtra drafted few compiled terminals
  case refine_2 => exact isExtra_error drafted few compiled
  case refine_3 => exact fun form id => eq_identifier_of_word drafted few compiled terminals
  case refine_4 =>
    intro id symbol state next listed either shifted follower rule reduced
    obtain ⟨key, shown, isSlash⟩ :=
      exists_sign drafted few compiled terminals (.inl rfl) listed either
    obtain ⟨written, here, other, _⟩ := ending shifted reduced
    obtain rfl := here.unique shown
    rw [isSlash] at other
    cases other
  case refine_5 =>
    intro number symbol state next listed either shifted id follower isPoint either'
    obtain ⟨key, shown, isPoint⟩ :=
      exists_sign drafted few compiled terminals (.inr rfl) isPoint either'
    exact represents.action_of_severs filled (Grammar.severs_of_onlyBehind flattened point) shifted
      (fun written => not_mem_places drafted few compiled terminals listed either)
      ⟨_, shown, isPoint⟩ (isTerminal shown)
  case refine_6 =>
    intro state symbol next follower rule shifted reduced base other found
    obtain ⟨written, here, _, absent⟩ := ending shifted reduced
    obtain ⟨key, _, shown⟩ := exists_twin drafted few compiled found
    exact represents.action_of_severs filled (Grammar.severs_of_onlyBehind flattened twin) shifted
      (fun symbol shown' => here.unique shown' ▸ absent) ⟨_, shown, rfl⟩ (isTerminal shown)
  case refine_7 =>
    intro state
    refine if_neg fun inside => ?_
    rw [represents.tableSymbolCount_eq] at inside
    exact represents.ne_error inside rfl

end OneScript

end Lalr
