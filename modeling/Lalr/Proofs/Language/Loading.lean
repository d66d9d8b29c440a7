import Mathlib
import Lalr.Language
import Lalr.Proofs.Automaton.Table

set_option autoImplicit false

/-!
What is known of a language that was loaded: its tables passed every check, and those made
for a grammar represent it.
-/

namespace Lalr

theorem require_eq_ok {condition : Bool} {defect : TableDefect}
    (passed : require condition defect = .ok ()) : condition = true := by
  cases condition with
  | false => cases passed
  | true => rfl

/-- Tables that are loaded are few enough in symbols, and the lexer refers to terminals other
than the end of the input. -/
theorem LanguageTables.validate_ok {tables : LanguageTables} (valid : tables.validate = .ok ()) :
    tables.symbols.size ≤ 65535 ∧
      ∀ symbol ∈ tables.lexicalSymbols, tables.isTerminal symbol = true ∧ symbol ≠ endSymbol := by
  unfold validate at valid
  dsimp only at valid
  split at valid
  · cases valid
  · obtain ⟨_, symbols, valid⟩ := exists_of_bind_eq_ok valid
    obtain ⟨_, _, valid⟩ := exists_of_bind_eq_ok valid
    obtain ⟨_, _, valid⟩ := exists_of_bind_eq_ok valid
    obtain ⟨_, _, valid⟩ := exists_of_bind_eq_ok valid
    obtain ⟨_, _, valid⟩ := exists_of_bind_eq_ok valid
    obtain ⟨_, _, valid⟩ := exists_of_bind_eq_ok valid
    obtain ⟨_, _, lexical⟩ := exists_of_bind_eq_ok valid
    refine ⟨of_decide_eq_true (require_eq_ok symbols), fun symbol member => ?_⟩
    simpa using require_eq_ok (forM_eq_ok lexical symbol member)

namespace Language

variable {language : Language}

/-- A language made of tables keeps them, with the lexer prepared for them. -/
theorem ofTables_ok {tables : LanguageTables} {scanner : Scanner}
    (loaded : ofTables tables scanner = .ok language) :
    tables.validate = .ok () ∧ language.tables = tables ∧
      Lexer.compile tables.lexical = .ok language.lexer ∧
      tables.startSymbol? = some language.startSymbol ∧ language.scanner = scanner := by
  obtain ⟨_, valid, loaded⟩ := exists_of_bind_eq_ok loaded
  obtain ⟨_, _, loaded⟩ := exists_of_bind_eq_ok loaded
  obtain ⟨lexer, compiled, loaded⟩ := exists_of_bind_eq_ok loaded
  split at loaded
  case h_1 => cases loaded
  case h_2 start found =>
      obtain rfl := Except.ok.inj loaded
      exact ⟨valid, rfl, compiled, found, rfl⟩

theorem ofGrammar_ok {source : Grammar} {scanner : Scanner}
    (loaded : ofGrammar source scanner = .ok language) :
    LanguageTables.generate source = .ok language.tables ∧
      ofTables language.tables scanner = .ok language := by
  obtain ⟨tables, generated, loaded⟩ := exists_of_bind_eq_ok loaded
  have made := eq_ok_of_mapError loaded
  obtain rfl := (ofTables_ok made).2.1
  exact ⟨eq_ok_of_mapError generated, made⟩

/-- The tables of a language made for a grammar represent its flat form. -/
theorem represents_of_ofGrammar {source : Grammar} {scanner : Scanner} {grammar : FlatGrammar}
    (loaded : ofGrammar source scanner = .ok language)
    (flattened : FlatGrammar.ofGrammar source = .ok grammar)
    (numbered : language.tables.Numbered) : language.tables.Represents grammar := by
  obtain ⟨generated, made⟩ := ofGrammar_ok loaded
  have few := (LanguageTables.validate_ok (ofTables_ok made).1).1
  exact LanguageTables.represents_of_generate generated flattened few numbered

end Language

/-- The grammar of an `a` with a `b` behind it. -/
def pairGrammar : Grammar :=
  ⟨{ name := "pair", rules := [("start", .seq [.literal "a", .literal "b"])] }, by decide⟩

set_option maxRecDepth 10000 in
theorem pairGrammar_loads :
    ∃ grammar language, FlatGrammar.ofGrammar pairGrammar = .ok grammar ∧
      Language.ofGrammar pairGrammar .noExternals = .ok language ∧ language.tables.Numbered := by
  have measured : ((Language.ofGrammar pairGrammar .noExternals).toOption.map fun language =>
      (language.tables.lexModes.size, language.tables.productions.size)) = some (4, 1) := by cbv
  cases loaded : Language.ofGrammar pairGrammar .noExternals with
  | error failure => simp [loaded, Except.toOption] at measured
  | ok language =>
      simp only [loaded, Except.toOption, Option.map_some, Option.some.injEq,
        Prod.mk.injEq] at measured
      obtain ⟨grammar, flattened, _⟩ :=
        LanguageTables.generate_ok (Language.ofGrammar_ok loaded).1
      exact ⟨grammar, language, flattened, rfl, by simp [measured, UInt32.size],
        by simp [measured, UInt32.size]⟩

end Lalr
