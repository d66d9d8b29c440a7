import Mathlib.Data.List.Nodup
import Lalr.Lexer
import Lalr.Proofs.FlatGrammar.Numbering
import Lalr.Proofs.FlatGrammar.Recognition
import Lalr.Tables.Validate

set_option autoImplicit false

/-!
The lexical table of a grammar. It refers to terminals other than the end of the input only,
lists every declared external token apart from all others, and its patterns compile.
-/

namespace Lalr

/-- The symbols a lexical table refers to are terminals, but not the end of the input. -/
def IsToken (terminalCount : Nat) (symbol : SymbolId) : Prop :=
  0 < symbol.toNat ∧ symbol.toNat < terminalCount

namespace FlatDraft

variable {grammar : Grammar} {draft : FlatDraft}

theorem isToken_terminalId (sound : draft.Sound grammar)
    (few : draft.terminalCount grammar ≤ 65535) {index : Nat} (later : 0 < index)
    (bound : index < draft.terminals.length) :
    IsToken (draft.terminalCount grammar) (draft.terminalId grammar index).toUInt16 := by
  have entered : draft.HasSymbol grammar (.terminal index) := ⟨later, bound⟩
  have positive : 0 < draft.terminalId grammar index := (symbolId_range sound entered).1
  have small : draft.terminalId grammar index < draft.terminalCount grammar :=
    List.idxOf_lt_length_of_mem (mem_terminalOrder sound bound)
  have kept : (draft.terminalId grammar index).toUInt16.toNat = draft.terminalId grammar index :=
    UInt16.toNat_ofNat_of_lt' (by simp only [UInt16.size]; omega)
  rw [IsToken, kept]
  exact ⟨positive, small⟩

theorem isToken_of_terminalIndex? (sound : draft.Sound grammar)
    (few : draft.terminalCount grammar ≤ 65535) {key : TerminalKey} {index : Nat}
    (found : terminalIndex? draft.terminals key = some index) (other : key ≠ .endOfInput) :
    IsToken (draft.terminalCount grammar) (draft.terminalId grammar index).toUInt16 := by
  obtain ⟨later, bound⟩ := hasSymbol_of_terminalIndex? sound found other
  exact isToken_terminalId sound few later bound

/-- The terminals with their numbers. -/
def numberedTerminals (draft : FlatDraft) (grammar : Grammar) : List (Terminal × SymbolId) :=
  draft.terminals.zipIdx.map fun (terminal, index) =>
    (terminal, (draft.terminalId grammar index).toUInt16)

theorem numbered_cases (sound : draft.Sound grammar) {entered : List String}
    (recognised : draft.Recognised entered) (few : draft.terminalCount grammar ≤ 65535)
    {terminal : Terminal} {id : SymbolId}
    (listed : (terminal, id) ∈ draft.numberedTerminals grammar) :
    terminal = .endOfInput ∨
      (terminal.Recognisable ∧ IsToken (draft.terminalCount grammar) id) := by
  obtain ⟨⟨terminal, index⟩, member, same⟩ := List.mem_map.mp listed
  obtain ⟨rfl, rfl⟩ := Prod.mk.inj same
  have found := List.mk_mem_zipIdx_iff_getElem?.mp member
  rcases Nat.eq_zero_or_pos index with rfl | later
  · rw [← List.head?_eq_getElem?, recognised.first] at found
    exact .inl (Option.some.inj found).symm
  · exact .inr ⟨recognised.recognisable found later,
      isToken_terminalId sound few later (List.getElem?_eq_some_iff.mp found).1⟩

/-- Everything the lexical table refers to is a token. -/
theorem isToken_of_mem_lexicalSymbols (sound : draft.Sound grammar) {entered : List String}
    (recognised : draft.Recognised entered) (few : draft.terminalCount grammar ≤ 65535)
    {tables : LanguageTables} (lexical : tables.lexical = draft.lexicalTable grammar)
    {symbol : SymbolId} (listed : symbol ∈ tables.lexicalSymbols) :
    IsToken (draft.terminalCount grammar) symbol := by
  have token : ∀ {terminal : Terminal} {id : SymbolId},
      (terminal, id) ∈ draft.numberedTerminals grammar → terminal ≠ .endOfInput →
        IsToken (draft.terminalCount grammar) id := fun member other =>
    ((numbered_cases sound recognised few member).resolve_left other).2
  simp only [LanguageTables.lexicalSymbols, lexical, lexicalTable, List.mem_append, List.mem_map,
    List.mem_flatMap, List.mem_mergeSort, List.mem_eraseDups, Option.mem_toList] at listed
  rcases listed with
    ((((⟨entry, (literal | pattern) | keyword, rfl⟩ | word) | extra) | external) | twin)
  · obtain ⟨⟨terminal, id⟩, member, read⟩ := List.mem_filterMap.mp literal
    dsimp only at read
    split at read
    case h_1 formed =>
        obtain rfl := Option.some.inj read
        exact token member fun same => by simp [same, Terminal.endOfInput] at formed
    case h_2 => cases read
  · obtain ⟨⟨terminal, id⟩, member, read⟩ := List.mem_filterMap.mp pattern
    dsimp only at read
    split at read
    case h_1 formed =>
        obtain rfl := Option.some.inj read
        exact token member fun same => by simp [same, Terminal.endOfInput] at formed
    case h_2 => cases read
  · obtain ⟨⟨terminal, id⟩, member, read⟩ := keyword
    dsimp only at read
    split at read
    case h_1 formed _ =>
        obtain ⟨spelling, _, rfl⟩ := List.mem_map.mp read
        exact token (List.mem_map.mpr member) fun same => by
          simp [same, Terminal.endOfInput] at formed
    case h_2 => cases read
  · simp only [Option.bind_eq_bind, Option.bind_eq_some_iff, Option.pure_def,
      Option.some.injEq] at word
    obtain ⟨name, _, index, found, rfl⟩ := word
    exact isToken_of_terminalIndex? sound few found fun same => by cases same
  · obtain ⟨⟨terminal, id⟩, member, rfl⟩ := extra
    obtain ⟨member, marked⟩ := List.mem_filter.mp member
    exact token member fun same => by simp [same, Terminal.endOfInput] at marked
  · obtain ⟨name, _, read⟩ := List.mem_filterMap.mp external
    obtain ⟨index, found, rfl⟩ := Option.map_eq_some_iff.mp read
    exact isToken_of_terminalIndex? sound few found fun same => by cases same
  · obtain ⟨⟨base, other⟩, read, either⟩ := twin
    obtain ⟨⟨terminal, id⟩, member, read⟩ := List.mem_filterMap.mp read
    dsimp only at read
    split at read
    case h_2 => cases read
    case h_1 key _ keyed =>
        obtain ⟨index, found, same⟩ := Option.map_eq_some_iff.mp read
        obtain ⟨rfl, rfl⟩ := Prod.mk.inj same
        rcases numbered_cases sound recognised few member with rfl | ⟨recognisable, twinToken⟩
        · cases keyed
        · simp only [List.mem_cons, List.not_mem_nil, or_false] at either
          rcases either with rfl | rfl
          · exact isToken_of_terminalIndex? sound few found (recognisable.base key keyed).1
          · exact twinToken

/-! ## Entries of the table -/

section table

variable {source : Grammar} {draft : FlatDraft} {text : String} {id : SymbolId}

theorem mem_filterMap_form {numbered : List (Terminal × SymbolId)}
    {select : Terminal × SymbolId → Option (String × SymbolId)} {write : String → TerminalForm}
    (selects : ∀ terminal number, select (terminal, number) = some (text, id) ↔
      terminal.form = write text ∧ number = id) :
    (text, id) ∈ numbered.filterMap select ↔
      ∃ terminal, (terminal, id) ∈ numbered ∧ terminal.form = write text := by
  rw [List.mem_filterMap]
  constructor
  · rintro ⟨⟨terminal, number⟩, member, same⟩
    obtain ⟨form, rfl⟩ := (selects terminal number).mp same
    exact ⟨terminal, member, form⟩
  · rintro ⟨terminal, member, form⟩
    exact ⟨(terminal, id), member, (selects terminal id).mpr ⟨form, rfl⟩⟩

theorem mem_literals_iff : (text, id) ∈ (draft.lexicalTable source).literals ↔
    ∃ terminal, (terminal, id) ∈ draft.numberedTerminals source ∧
      terminal.form = .literal text := by
  simp only [lexicalTable, List.mem_mergeSort]
  refine mem_filterMap_form fun terminal number => ?_
  cases form : terminal.form <;> simp

theorem mem_patterns_iff : (text, id) ∈ (draft.lexicalTable source).patterns ↔
    ∃ terminal, (terminal, id) ∈ draft.numberedTerminals source ∧
      terminal.form = .pattern text := by
  simp only [lexicalTable, List.mem_mergeSort]
  refine mem_filterMap_form fun terminal number => ?_
  cases form : terminal.form <;> simp

theorem mem_keywords_iff : (text, id) ∈ (draft.lexicalTable source).keywords ↔
    ∃ terminal name keyword, (terminal, id) ∈ draft.numberedTerminals source ∧
      terminal.form = .keyword ∧ terminal.key = .keyword name ∧
      source.keyword? name = some keyword ∧
      ∃ spelling ∈ keyword.spellings, Text.lowerCase spelling = text := by
  simp only [lexicalTable, List.mem_eraseDups, List.mem_mergeSort, List.mem_flatMap]
  constructor
  · intro listed
    obtain ⟨⟨terminal, number⟩, member, written⟩ := listed
    dsimp only at written
    split at written
    case h_1 name form key =>
        cases defined : source.keyword? name with
        | none =>
            rw [defined] at written
            cases written
        | some keyword =>
            rw [defined] at written
            obtain ⟨spelling, listed, same⟩ := List.mem_map.mp written
            obtain ⟨rfl, rfl⟩ := Prod.mk.inj same
            exact ⟨terminal, name, keyword, member, form, key, defined, spelling, listed, rfl⟩
    case h_2 => cases written
  · intro written
    obtain ⟨terminal, name, keyword, member, form, key, defined, spelling, listed, rfl⟩ := written
    refine ⟨(terminal, id), member, ?_⟩
    rw [form, key]
    dsimp only
    rw [defined]
    exact List.mem_map.mpr ⟨spelling, listed, rfl⟩

theorem mem_extras_of_extra {terminal : Terminal}
    (member : (terminal, id) ∈ draft.numberedTerminals source) (extra : terminal.extra = true) :
    id ∈ (draft.lexicalTable source).extras := by
  simp only [lexicalTable, List.mem_mergeSort, List.mem_map, List.mem_filter]
  exact ⟨(terminal, id), ⟨List.mem_map.mp member, extra⟩, rfl⟩

theorem exists_numbered {terminal : Terminal} (member : terminal ∈ draft.terminals) :
    ∃ id, (terminal, id) ∈ draft.numberedTerminals source := by
  obtain ⟨index, bound, same⟩ := List.mem_iff_getElem.mp member
  exact ⟨_, List.mem_map.mpr ⟨(terminal, index), List.mk_mem_zipIdx_iff_getElem?.mpr
    (List.getElem?_eq_some_iff.mpr ⟨bound, same⟩), rfl⟩⟩

theorem mem_terminals_of_numbered {terminal : Terminal}
    (member : (terminal, id) ∈ draft.numberedTerminals source) : terminal ∈ draft.terminals := by
  obtain ⟨⟨terminal, index⟩, listed, same⟩ := List.mem_map.mp member
  obtain ⟨rfl, _⟩ := Prod.mk.inj same
  exact List.mem_of_getElem? (List.mk_mem_zipIdx_iff_getElem?.mp listed)

end table

/-- Every declared external token is listed once. -/
theorem length_externals {entered : List String} (recognised : draft.Recognised entered)
    (all : entered = grammar.externals) :
    (draft.lexicalTable grammar).externals.length = grammar.externals.length := by
  subst all
  simp only [lexicalTable, List.length_filterMap_eq_countP]
  refine List.countP_eq_length.mpr fun name member => ?_
  cases found : terminalIndex? draft.terminals (.external name) with
  | none => exact absurd (recognised.externals name member) (terminalIndex?_eq_none_iff.mp found)
  | some index => rfl

theorem isSome_compile_of_mem_patterns (sound : draft.Sound grammar) {entered : List String}
    (recognised : draft.Recognised entered) (few : draft.terminalCount grammar ≤ 65535)
    {entry : String × SymbolId} (listed : entry ∈ (draft.lexicalTable grammar).patterns) :
    (Pattern.compile? entry.1).isSome := by
  simp only [lexicalTable, List.mem_mergeSort] at listed
  obtain ⟨⟨terminal, id⟩, member, read⟩ := List.mem_filterMap.mp listed
  dsimp only at read
  split at read
  case h_2 => cases read
  case h_1 text formed =>
      obtain rfl := Option.some.inj read
      rcases numbered_cases sound recognised few member with rfl | ⟨recognisable, _⟩
      · cases formed
      · exact recognisable.compiles text formed

/-! ## External tokens -/

theorem terminalId_toUInt16_inj (sound : draft.Sound grammar)
    (few : draft.terminalCount grammar ≤ 65535) {first second : Nat}
    (firstBound : first < draft.terminals.length) (secondBound : second < draft.terminals.length)
    (same : (draft.terminalId grammar first).toUInt16 = (draft.terminalId grammar second).toUInt16) :
    first = second := by
  have small : ∀ {index : Nat}, index < draft.terminals.length →
      (draft.terminalId grammar index).toUInt16.toNat = draft.terminalId grammar index := by
    intro index bound
    have bounded : draft.terminalId grammar index < draft.terminalCount grammar :=
      List.idxOf_lt_length_of_mem (mem_terminalOrder sound bound)
    exact UInt16.toNat_ofNat_of_lt' (by simp only [UInt16.size]; omega)
  have numbers := congrArg UInt16.toNat same
  rw [small firstBound, small secondBound] at numbers
  exact (List.idxOf_inj (mem_terminalOrder sound firstBound)).mp numbers

/-- The place of an external token in the lexical table is that of its name. -/
theorem mem_externals_iff {symbol : SymbolId} :
    symbol ∈ (draft.lexicalTable grammar).externals ↔ ∃ name ∈ grammar.externals,
      ∃ index, terminalIndex? draft.terminals (.external name) = some index ∧
        (draft.terminalId grammar index).toUInt16 = symbol := by
  simp only [lexicalTable, List.mem_filterMap, Option.map_eq_some_iff]

/-- External tokens keep the order of their declarations where all of them were entered. -/
theorem getElem?_externals
    (entered : ∀ name ∈ grammar.externals,
      (terminalIndex? draft.terminals (.external name)).isSome = true) {index : Nat} :
    (draft.lexicalTable grammar).externals[index]? = (grammar.externals[index]?).bind fun name =>
      (terminalIndex? draft.terminals (.external name)).map fun place =>
        (draft.terminalId grammar place).toUInt16 := by
  simp only [lexicalTable]
  generalize grammar.externals = names at entered
  induction names generalizing index with
  | nil => simp
  | cons name names ih =>
      obtain ⟨place, found⟩ := Option.isSome_iff_exists.mp (entered name List.mem_cons_self)
      rw [List.filterMap_cons, found]
      cases index with
      | zero => simp [found]
      | succ index => exact ih fun other member => entered other (List.mem_cons_of_mem name member)

/-- The number of a terminal that no scanner recognises is not that of an external token. -/
theorem not_mem_externals (sound : draft.Sound grammar)
    (few : draft.terminalCount grammar ≤ 65535) {index : Nat} {key : TerminalKey}
    (placed : draft.keys[index]? = some key) (ordinary : key.isExternal = false) :
    (draft.terminalId grammar index).toUInt16 ∉ (draft.lexicalTable grammar).externals := by
  intro listed
  obtain ⟨name, _, other, found, same⟩ := mem_externals_iff.mp listed
  have otherPlaced := getElem?_of_terminalIndex? found
  have bound := (List.getElem?_eq_some_iff.mp placed).1
  have otherBound := (List.getElem?_eq_some_iff.mp otherPlaced).1
  rw [length_keys] at bound
  rw [List.length_map] at otherBound
  obtain rfl := terminalId_toUInt16_inj sound few otherBound bound same
  obtain rfl := Option.some.inj (placed.symm.trans otherPlaced)
  cases ordinary

theorem not_mem_externals_of_listed (sound : draft.Sound grammar)
    (few : draft.terminalCount grammar ≤ 65535) {terminal : Terminal} {id : SymbolId}
    (listed : (terminal, id) ∈ draft.numberedTerminals grammar)
    (ordinary : terminal.key.isExternal = false) :
    id ∉ (draft.lexicalTable grammar).externals := by
  obtain ⟨⟨terminal, index⟩, member, same⟩ := List.mem_map.mp listed
  obtain ⟨rfl, rfl⟩ := Prod.mk.inj same
  have found := List.mk_mem_zipIdx_iff_getElem?.mp member
  refine not_mem_externals sound few (?_ : _ = some terminal.key) ordinary
  simp [keys, found]

/-- A terminal that the lexer recognises by itself, or that is an extra, is no external token. -/
theorem Recognised.ordinary {entered : List String} (recognised : draft.Recognised entered)
    {terminal : Terminal} (listed : terminal ∈ draft.terminals)
    (own : terminal.form ≠ .none ∨ terminal.extra = true) : terminal.key.isExternal = false := by
  cases key : terminal.key with
  | external name =>
      obtain ⟨index, found⟩ := List.getElem?_of_mem listed
      rcases Nat.eq_zero_or_pos index with rfl | later
      · rw [← List.head?_eq_getElem?, recognised.first] at found
        obtain rfl := Option.some.inj found
        cases key
      · have made := (recognised.recognisable found later).external name key
        rw [made] at own
        simp [Terminal.ofExternal] at own
  | endOfInput => rfl
  | literal text => rfl
  | pattern text => rfl
  | named rule => rfl
  | keyword name => rfl
  | immediate base => rfl

theorem nodup_externals (sound : draft.Sound grammar) (few : draft.terminalCount grammar ≤ 65535)
    (distinct : grammar.externals.Nodup) : (draft.lexicalTable grammar).externals.Nodup := by
  simp only [lexicalTable]
  refine List.Nodup.filterMap ?_ distinct
  rintro first second symbol left right
  obtain ⟨index, found, rfl⟩ := Option.map_eq_some_iff.mp left
  obtain ⟨other, otherFound, same⟩ := Option.map_eq_some_iff.mp right
  have bound := (List.findIdx?_eq_some_iff_getElem.mp found).1
  have otherBound := (List.findIdx?_eq_some_iff_getElem.mp otherFound).1
  obtain rfl := terminalId_toUInt16_inj sound few otherBound bound same
  have keyed := (getElem?_of_terminalIndex? found).symm.trans (getElem?_of_terminalIndex? otherFound)
  exact TerminalKey.external.inj (Option.some.inj keyed)

end FlatDraft

/-- Nothing that a lexer recognises by itself is an external token, and neither is an extra or a
twin. -/
structure LexicalTable.SetsApart (table : LexicalTable) : Prop where
  literals : ∀ entry ∈ table.literals, entry.2 ∉ table.externals
  patterns : ∀ entry ∈ table.patterns, entry.2 ∉ table.externals
  keywords : ∀ entry ∈ table.keywords, entry.2 ∉ table.externals
  word : ∀ symbol ∈ table.word, symbol ∉ table.externals
  extras : ∀ symbol ∈ table.extras, symbol ∉ table.externals
  twins : ∀ pair ∈ table.immediateTwins, pair.1 ∉ table.externals ∧ pair.2 ∉ table.externals

/-- The lexical table of a grammar sets its external tokens apart. -/
theorem FlatDraft.setsApart {grammar : Grammar} {draft : FlatDraft} (sound : draft.Sound grammar)
    {entered : List String} (recognised : draft.Recognised entered)
    (few : draft.terminalCount grammar ≤ 65535) : (draft.lexicalTable grammar).SetsApart := by
  have apart : ∀ {terminal : Terminal} {id : SymbolId},
      (terminal, id) ∈ draft.numberedTerminals grammar →
      terminal.form ≠ .none ∨ terminal.extra = true ∨ terminal.key.isExternal = false →
      id ∉ (draft.lexicalTable grammar).externals := by
    intro terminal id listed own
    refine not_mem_externals_of_listed sound few listed ?_
    obtain ⟨⟨origin, index⟩, member, same⟩ := List.mem_map.mp listed
    obtain ⟨rfl, rfl⟩ := Prod.mk.inj same
    have known := List.mem_of_getElem? (List.mk_mem_zipIdx_iff_getElem?.mp member)
    rcases own with formed | extra | ordinary
    · exact recognised.ordinary known (.inl formed)
    · exact recognised.ordinary known (.inr extra)
    · exact ordinary
  constructor
  · intro entry listed
    simp only [lexicalTable, List.mem_mergeSort] at listed
    obtain ⟨⟨terminal, id⟩, member, read⟩ := List.mem_filterMap.mp listed
    dsimp only at read
    split at read
    case h_1 text formed =>
        obtain rfl := Option.some.inj read
        exact apart member (.inl (by simp [formed]))
    case h_2 => cases read
  · intro entry listed
    simp only [lexicalTable, List.mem_mergeSort] at listed
    obtain ⟨⟨terminal, id⟩, member, read⟩ := List.mem_filterMap.mp listed
    dsimp only at read
    split at read
    case h_1 text formed =>
        obtain rfl := Option.some.inj read
        exact apart member (.inl (by simp [formed]))
    case h_2 => cases read
  · intro entry listed
    simp only [lexicalTable, List.mem_eraseDups, List.mem_mergeSort, List.mem_flatMap] at listed
    obtain ⟨⟨terminal, id⟩, member, read⟩ := listed
    dsimp only at read
    split at read
    case h_1 name formed _ =>
        obtain ⟨spelling, _, rfl⟩ := List.mem_map.mp read
        exact apart member (.inl (by simp [formed]))
    case h_2 => cases read
  · intro symbol listed
    simp only [lexicalTable, Option.bind_eq_bind, Option.mem_def, Option.bind_eq_some_iff,
      Option.pure_def, Option.some.injEq] at listed
    obtain ⟨name, _, index, found, rfl⟩ := listed
    exact not_mem_externals sound few (getElem?_of_terminalIndex? found) rfl
  · intro symbol listed
    simp only [lexicalTable, List.mem_mergeSort, List.mem_map, List.mem_filter] at listed
    obtain ⟨⟨terminal, id⟩, ⟨member, marked⟩, rfl⟩ := listed
    exact apart (List.mem_map.mpr member) (.inr (.inl marked))
  · intro pair listed
    simp only [lexicalTable, List.mem_mergeSort] at listed
    obtain ⟨⟨terminal, id⟩, member, read⟩ := List.mem_filterMap.mp listed
    dsimp only at read
    split at read
    case h_2 => cases read
    case h_1 key _ keyed =>
        obtain ⟨index, found, rfl⟩ := Option.map_eq_some_iff.mp read
        refine ⟨?_, apart member (.inr (.inr (by simp [keyed, TerminalKey.isExternal])))⟩
        rcases numbered_cases sound recognised few member with rfl | ⟨recognisable, _⟩
        · cases keyed
        · exact not_mem_externals sound few (getElem?_of_terminalIndex? found)
            (recognisable.base key keyed).2

/-- The lexer of a table whose patterns compile can be prepared. -/
theorem Lexer.exists_compile {table : LexicalTable}
    (compiles : ∀ entry ∈ table.patterns, (Pattern.compile? entry.1).isSome) :
    ∃ lexer, compile table = .ok lexer := by
  refine exists_bind_ok (exists_mapM_ok fun (text, symbol) member => ?_) fun _ => ⟨_, rfl⟩
  obtain ⟨program, compiled⟩ := Option.isSome_iff_exists.mp (compiles (text, symbol) member)
  exact ⟨(program, symbol), by simp only [compiled]; rfl⟩

end Lalr
