import Lalr.Proofs.Language.External
import Lalr.Proofs.Parser.Leaves

set_option autoImplicit false

/-!
The symbol that a token stands for in a state. A token that a state accepts is never refused
because of it, with one exception: a keyword that only its twin makes acceptable is read as a
word, since twins are left out where the keywords of a state are looked for.
-/

namespace Lalr

open Lalr.Text

/-- Whether a state accepts a token as a symbol. Right behind another token it may do so as the
twin of the symbol. -/
def Lexeme.AcceptedAs (language : Language) (state : StateId) (lexeme : Lexeme)
    (symbol : SymbolId) : Prop :=
  language.action state symbol ≠ .error ∨
    lexeme.isAdjacent = true ∧
      ∃ twin, language.lexer.twin? symbol = some twin ∧ language.action state twin ≠ .error

namespace Lexer

variable {lexer : Lexer}

theorem mem_keywordSymbols_of_keyword? {word : List Char} {symbol : SymbolId}
    (spelled : lexer.keyword? word = some symbol) : symbol ∈ lexer.keywordSymbols :=
  List.mem_map_of_mem (mem_of_lookup_eq_some spelled)

end Lexer

namespace Lexeme

variable {language : Language} {state : StateId} {lexeme : Lexeme}

theorem action_twinOr_iff (symbol : SymbolId) :
    language.action state (twinOr language state symbol) ≠ .error ↔
      language.action state symbol ≠ .error ∨
        ∃ twin, language.lexer.twin? symbol = some twin ∧
          language.action state twin ≠ .error := by
  unfold twinOr
  cases known : language.lexer.twin? symbol with
  | none => simp
  | some twin =>
      by_cases refused : language.action state twin = .error
      · simp [refused]
      · simp [refused]

/-- A token is accepted exactly if the symbol that it is read as is. -/
theorem action_resolveSymbol_iff_readAs :
    language.action state (resolveSymbol language state lexeme) ≠ .error ↔
      lexeme.AcceptedAs language state (lexeme.readAs language state) := by
  rw [resolveSymbol_eq, AcceptedAs]
  cases lexeme.isAdjacent with
  | true => simpa using action_twinOr_iff (lexeme.readAs language state)
  | false => simp

theorem acceptsKeywords_of_action {keyword : SymbolId}
    (listed : keyword ∈ language.lexer.keywordSymbols)
    (accepted : language.action state keyword ≠ .error) :
    language.acceptsKeywords state = true :=
  List.any_eq_true.mpr ⟨keyword, listed, bne_iff_ne.mpr accepted⟩

/-- A token that can be read as a word is a keyword. -/
theorem mem_keywordSymbols_of_lexFrom {start : Nat} {mode : ValidExternals} {limit : Nat}
    {extras : List Leaf} {examinedEnd : Nat} {cursor after : Cursor} {scanner : ScannerState}
    (read : lexFrom language start mode limit extras examinedEnd cursor scanner =
      .ok (lexeme, after)) {word : SymbolId} (isWord : lexeme.word = some word) :
    lexeme.raw ∈ language.lexer.keywordSymbols := by
  induction limit generalizing extras examinedEnd cursor scanner with
  | zero => cases read
  | succ limit ih =>
      obtain ⟨found, _, rest⟩ := exists_of_bind_eq_ok read
      split at rest
      case isTrue => exact ih rest
      case isFalse =>
          obtain ⟨rfl, rfl⟩ := Prod.mk.inj (Except.ok.inj rest)
          obtain ⟨keyword, looked, rfl⟩ := Option.map_eq_some_iff.mp isWord
          simp only [looked, Option.getD_some]
          split at looked
          case isFalse => cases looked
          case isTrue =>
              split at looked
              case h_1 => exact Lexer.mem_keywordSymbols_of_keyword? looked
              case h_2 => cases looked

/-- What becomes of a token that a state accepts as it was read. If the state has an action for
it, so it has for the symbol it stands for; if the state accepts it only as a twin, then it is
refused exactly if it is a keyword where no keyword is acceptable, and the state does not accept
it as a word either. -/
theorem action_resolveSymbol {cursor after : Cursor} {mode : ValidExternals}
    {scanner : ScannerState} (read : lex language cursor mode scanner = .ok (lexeme, after))
    (state : StateId) :
    (language.action state lexeme.raw ≠ .error →
        language.action state (resolveSymbol language state lexeme) ≠ .error) ∧
      (lexeme.AcceptedAs language state lexeme.raw →
        (language.action state (resolveSymbol language state lexeme) = .error ↔
          ∃ word, lexeme.word = some word ∧ language.acceptsKeywords state = false ∧
            ¬ lexeme.AcceptedAs language state word)) := by
  have keyword := fun word isWord => @mem_keywordSymbols_of_lexFrom language lexeme _ _ _ _ _ _ _ _
    read word isWord
  constructor
  · intro accepted
    rw [action_resolveSymbol_iff_readAs, readAs]
    cases isWord : lexeme.word with
    | none => exact .inl accepted
    | some word =>
        have keywords := acceptsKeywords_of_action (keyword word isWord) accepted
        simp only [keywords, if_true]
        exact .inl accepted
  · intro accepted
    rw [← not_iff_not, ← ne_eq, action_resolveSymbol_iff_readAs, readAs]
    cases isWord : lexeme.word with
    | none => simpa using accepted
    | some word =>
        cases keywords : language.acceptsKeywords state with
        | true => simpa using accepted
        | false => simp

end Lexeme

/-- The grammar of an `&` with the keyword `if` right behind it. -/
def gluedGrammar : Grammar :=
  ⟨{ name := "glued"
     rules := [("start", .seq [.literal "&", .immediate (.keyword "if")]),
       ("identifier", .pattern "[a-z]+")]
     keywords := [⟨"if", ["if"]⟩]
     word := some "identifier" }, by decide⟩

open Lexeme in
set_option maxRecDepth 10000 in
/-- The `if` of `&if` is refused although the state behind the `&` accepts it as a twin. -/
theorem action_resolveSymbol_behind_ampersand :
    ∃ language lexeme after, Language.ofGrammar gluedGrammar .noExternals = .ok language ∧
      lex language ⟨1, "if".toList⟩ .none .empty = .ok (lexeme, after) ∧
      lexeme.AcceptedAs language 1 lexeme.raw ∧
      language.action 1 (resolveSymbol language 1 lexeme) = .error := by
  have shown : ((Language.ofGrammar gluedGrammar .noExternals).toOption.bind fun language =>
      (lex language ⟨1, "if".toList⟩ .none .empty).toOption.map fun read =>
        (read.1.isAdjacent, read.1.word, language.lexer.twin? read.1.raw,
          language.lexer.twin? 1, language.action 1 4, language.action 1 1,
          language.acceptsKeywords 1)) =
        some (true, some 1, some 4, none, .shift 3, .error, false) := by cbv
  cases loaded : Language.ofGrammar gluedGrammar .noExternals with
  | error failure => simp [loaded, Except.toOption] at shown
  | ok language =>
      simp only [loaded, Except.toOption, Option.bind_some] at shown
      cases read : lex language ⟨1, "if".toList⟩ .none .empty with
      | error failure => simp only [read, Option.map_none, reduceCtorEq] at shown
      | ok result =>
          obtain ⟨lexeme, after⟩ := result
          simp only [read, Option.map_some, Option.some.injEq, Prod.mk.injEq] at shown
          obtain ⟨adjacent, word, twin, no_twin, shifts, refuses, keywords⟩ := shown
          have accepted : lexeme.AcceptedAs language 1 lexeme.raw :=
            .inr ⟨adjacent, 4, twin, by simp [shifts]⟩
          refine ⟨language, lexeme, after, rfl, read, accepted,
            ((action_resolveSymbol read 1).2 accepted).mpr ⟨1, word, keywords, ?_⟩⟩
          simp [AcceptedAs, refuses, no_twin]

end Lalr
