import Lalr.Proofs.FlatGrammar.Language
import Lalr.Proofs.FlatGrammar.Recognition
import Lalr.Proofs.Language.Generated
import Lalr.Proofs.Parser.Lexing

set_option autoImplicit false

/-!
External tokens of a loaded language. What its lexer recognises by itself is never an external
token, and external tokens do not stand for anything else.
-/

namespace Lalr

/-- Nothing that a lexer recognises by itself is an external token, and neither is the end of the
input, an unrecognised character, an extra or a twin. -/
structure Lexer.SetsApart (lexer : Lexer) : Prop where
  found : ∀ {text found}, lexer.matchToken? text = some found → found.symbol ∉ lexer.externals
  keyword : ∀ {word symbol}, lexer.keyword? word = some symbol → symbol ∉ lexer.externals
  word : ∀ {symbol}, lexer.word = some symbol → symbol ∉ lexer.externals
  extra : ∀ {symbol}, lexer.isExtra symbol = true → symbol ∉ lexer.externals
  twin : ∀ {symbol twin}, lexer.twin? symbol = some twin →
    symbol ∉ lexer.externals ∧ twin ∉ lexer.externals
  atEnd : endSymbol ∉ lexer.externals
  error : errorSymbol ∉ lexer.externals

theorem Lexer.setsApart_of_compile {table : LexicalTable} {lexer : Lexer}
    (compiled : Lexer.compile table = .ok lexer) (apart : table.SetsApart)
    (tokens : ∀ symbol ∈ table.externals, symbol ≠ endSymbol ∧ symbol ≠ errorSymbol) :
    lexer.SetsApart := by
  obtain ⟨patterns, listed, rest⟩ := exists_of_bind_eq_ok compiled
  obtain rfl := Except.ok.inj rest
  refine ⟨?_, ?_, ?_, ?_, ?_, fun member => (tokens _ member).1 rfl,
    fun member => (tokens _ member).2 rfl⟩
  · intro text found matched
    rcases matchToken?_cases matched with ⟨entry, member, literal⟩ | ⟨entry, member, pattern⟩
    · obtain ⟨_, _, rfl⟩ := Option.map_eq_some_iff.mp literal
      obtain ⟨origin, known, rfl⟩ := List.mem_map.mp member
      exact apart.literals origin known
    · obtain ⟨⟨source, symbol⟩, known, same⟩ := exists_of_mem_mapM_ok listed member
      dsimp only at same
      split at same
      case h_2 => cases same
      case h_1 program _ =>
          obtain rfl := Except.ok.inj same
          unfold patternMatch? at pattern
          split at pattern
          case h_1 => cases pattern
          case h_2 =>
              split at pattern
              case isTrue => cases pattern
              case isFalse =>
                  obtain rfl := Option.some.inj pattern
                  exact apart.patterns (source, symbol) known
  · intro word symbol found
    exact apart.keywords _ (List.mem_reverse.mp (mem_of_lookup_eq_some found))
  · intro symbol found
    exact apart.word symbol found
  · intro symbol found
    exact apart.extras symbol (List.contains_iff_mem.mp found)
  · intro symbol twin found
    exact apart.twins (symbol, twin) (List.mem_reverse.mp (mem_of_lookup_eq_some found))

namespace Language

variable {source : Grammar} {scanner : Scanner} {language : Language}

/-- The draft behind the tables of a loaded language, whose lexical table its lexer was prepared
for. -/
theorem exists_draft_of_ofGrammar (loaded : ofGrammar source scanner = .ok language) :
    ∃ grammar draft, FlatGrammar.ofGrammar source = .ok grammar ∧
      FlatDraft.ofGrammar source = .ok draft ∧ draft.number source = .ok grammar ∧
      language.tables.symbols = grammar.symbols ∧ draft.terminalCount source ≤ 65535 ∧
      Lexer.compile (draft.lexicalTable source) = .ok language.lexer := by
  obtain ⟨generated, made⟩ := ofGrammar_ok loaded
  obtain ⟨valid, _, compiled, _⟩ := ofTables_ok made
  have few := (LanguageTables.validate_ok valid).1
  obtain ⟨grammar, flattened, actions, _, assembled⟩ := LanguageTables.generate_ok generated
  obtain ⟨draft, drafted, numbered⟩ := FlatGrammar.exists_draft_of_ofGrammar flattened
  have numbering := FlatDraft.numberedAs_of_number numbered
  have ranges := FlatGrammar.wellNumbered_of_ofGrammar flattened
  have symbols : language.tables.symbols = grammar.symbols := by rw [assembled]; rfl
  have lexical : language.tables.lexical = draft.lexicalTable source := by
    rw [assembled, ← numbering.lexical]
    rfl
  refine ⟨grammar, draft, flattened, drafted, numbered, symbols, ?_, lexical ▸ compiled⟩
  have start := ranges.start_range
  have bound := ranges.symbols_le
  rw [symbols] at few
  rw [← numbering.terminalCount]
  omega

/-- The lexer of a language made for a grammar sets the external tokens apart. -/
theorem setsApart_of_ofGrammar (loaded : ofGrammar source scanner = .ok language) :
    language.lexer.SetsApart := by
  obtain ⟨_, draft, _, drafted, _, _, few, compiled⟩ := exists_draft_of_ofGrammar loaded
  have sound := FlatDraft.sound_of_ofGrammar drafted
  have recognised := FlatDraft.recognised_of_ofGrammar drafted
  refine Lexer.setsApart_of_compile compiled (FlatDraft.setsApart sound recognised few) ?_
  intro symbol listed
  obtain ⟨name, _, index, found, rfl⟩ := FlatDraft.mem_externals_iff.mp listed
  obtain ⟨positive, small⟩ := FlatDraft.isToken_of_terminalIndex? sound few found nofun
  refine ⟨?_, ?_⟩
  · rintro same
    rw [same] at positive
    exact absurd positive (Nat.lt_irrefl 0)
  · rintro same
    rw [same] at small
    exact absurd (Nat.lt_of_lt_of_le small few) (Nat.lt_irrefl 65535)

/-- A scanner is only attached to a language with as many external tokens, and these are all
different if they have different names. -/
theorem externals_of_ofGrammar (loaded : ofGrammar source scanner = .ok language)
    (distinct : source.externals.Nodup) :
    language.lexer.externals.length = scanner.tokenCount ∧ language.lexer.externals.Nodup := by
  obtain ⟨_, draft, _, drafted, _, _, few, compiled⟩ := exists_draft_of_ofGrammar loaded
  obtain ⟨_, listed, rest⟩ := exists_of_bind_eq_ok compiled
  have externals : language.lexer.externals = (draft.lexicalTable source).externals := by
    rw [← Except.ok.inj rest]
  have sound := FlatDraft.sound_of_ofGrammar drafted
  refine ⟨?_, externals ▸ FlatDraft.nodup_externals sound few distinct⟩
  obtain ⟨_, made⟩ := ofGrammar_ok loaded
  obtain ⟨_, _, made⟩ := exists_of_bind_eq_ok made
  obtain ⟨_, counted, made⟩ := exists_of_bind_eq_ok made
  obtain ⟨lexer, compiled, made⟩ := exists_of_bind_eq_ok made
  split at made
  case h_1 => cases made
  case h_2 start _ =>
      obtain ⟨_, _, rest⟩ := exists_of_bind_eq_ok compiled
      rw [← Except.ok.inj made, ← Except.ok.inj rest]
      exact (beq_iff_eq.mp (require_eq_ok counted)).symm

/-- The scanner's token with a number is the terminal that was declared in this place. -/
theorem external_iff (loaded : ofGrammar source scanner = .ok language) {index : Nat}
    {name : String} (declared : source.externals[index]? = some name) (symbol : SymbolId) :
    language.lexer.externals[index]? = some symbol ↔
      source.terminalNumber? (.external name) = some symbol.toNat := by
  obtain ⟨_, draft, _, drafted, _, _, few, compiled⟩ := exists_draft_of_ofGrammar loaded
  obtain ⟨_, _, rest⟩ := exists_of_bind_eq_ok compiled
  have sound := FlatDraft.sound_of_ofGrammar drafted
  have recognised := FlatDraft.recognised_of_ofGrammar drafted
  have entered : ∀ declared ∈ source.externals,
      (terminalIndex? draft.terminals (.external declared)).isSome = true := by
    intro declared member
    refine Option.isSome_iff_ne_none.mpr fun missing => ?_
    exact terminalIndex?_eq_none_iff.mp missing (recognised.externals declared member)
  have externals : language.lexer.externals[index]? =
      (terminalIndex? draft.terminals (.external name)).map fun place =>
        (draft.terminalId source place).toUInt16 := by
    rw [← Except.ok.inj rest, FlatDraft.getElem?_externals entered, declared]
    rfl
  rw [externals, Grammar.terminalNumber?, drafted]
  simp only [FlatDraft.terminalNumber?, Option.map_eq_some_iff]
  refine exists_congr fun place => and_congr_right fun found => ?_
  have bound := FlatDraft.terminalId_lt sound
    (FlatDraft.lt_length_terminals (getElem?_of_terminalIndex? found))
  have exact_ : (draft.terminalId source place).toUInt16.toNat = draft.terminalId source place :=
    UInt16.toNat_ofNat_of_lt' (by simp only [UInt16.size]; omega)
  rw [← UInt16.toNat_inj, exact_]

end Language

end Lalr
