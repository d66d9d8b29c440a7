import Lalr.OneScript.Language
import Lalr.Proofs.Language.Generated
import Lalr.Proofs.Operators.Written
import Lalr.Proofs.Parser.Clean

set_option autoImplicit false

/-!
Operators group as the language has them. In every tree without errors an operation binds what
stands beside it as the levels of the operators say.
-/

namespace Lalr

namespace OneScript

/-- The operators of one level. -/
def rung (precedence : Precedence) (operators : List TerminalKey) :
    List (WrittenSymbol × Int32) :=
  operators.map fun operator => (.terminal operator, precedence.level)

/-- The operations of OneScript. -/
def ladder : Ladder WrittenSymbol where
  expression := .rule "_expression"
  binary := .rule "binary_expression"
  unary := .rule "unary_expression"
  binaries :=
    rung .or [.keyword "Or"] ++ rung .and [.keyword "And"] ++
      rung .relational [.literal "=", .literal "<>", .literal "<", .literal "<=", .literal ">",
        .literal ">="] ++
      rung .add [.literal "+", .literal "-"] ++
      rung .multiply [.literal "*", .literal "/", .literal "%"]
  unaries := rung .not [.keyword "Not"] ++ rung .unary [.literal "-", .literal "+"]

theorem grammar_climbs : grammar.Climbs ladder := by decide +kernel

end OneScript

/-- The grammar of OneScript climbs the ladder of its operators; and where the rules of a grammar
climb a ladder, the operations in every tree without errors respect it, in all its parts. -/
theorem operations_respect_ladder {source : Grammar} {ladder : Ladder WrittenSymbol}
    (climbs : source.Climbs ladder) {scanner : Scanner} {grammar : FlatGrammar}
    {language : Language} (flattened : FlatGrammar.ofGrammar source = .ok grammar)
    (loaded : Language.ofGrammar source scanner = .ok language)
    (numbered : language.tables.Numbered) {config : ParseConfig} {text : String} {number : Nat}
    {tree : Tree} {stats : ParseStats}
    (parsed : (Parser.mk config (some ⟨number, language⟩)).parse text none = .ok (tree, stats))
    (clean : tree.rootNode.info.hasError = false) :
    OneScript.grammar.Climbs OneScript.ladder ∧
      ∃ numbers, ladder.NumberedBy source.symbolNumber? numbers ∧
        tree.root.Everywhere fun part => numbers.Respected part.skeleton := by
  refine ⟨OneScript.grammar_climbs, ?_⟩
  obtain ⟨numbers, named⟩ := climbs.exists_numbers flattened
  refine ⟨numbers, named, ?_⟩
  have represents := Language.represents_of_ofGrammar loaded flattened numbered
  have flat := climbs.climbs_of_written flattened named
  obtain ⟨root, ran, rfl⟩ := Parser.parse_ok parsed
  change root.containsError = false at clean
  obtain ⟨extras, read⟩ := @reads_of_no_error grammar ⟨language, text.toList, config, []⟩
    represents (Language.knowsNoEnd_of_ofGrammar loaded) rfl _ _ ran clean
  refine Subtree.everywhere_of_skeleton clean extras numbers.respected_token ?_
  rcases read with ⟨final, reads⟩ | empty
  · exact flat.respected_of_reads represents reads _ List.mem_cons_self
  · have start := represents.eq_start_of_startSymbol?
      (Language.ofTables_ok (Language.ofGrammar_ok loaded).2).2.2.2.1
    obtain ⟨notBinary, notUnary⟩ := climbs.start_ne flattened named
    rw [← start] at notBinary notUnary
    rw [empty]
    exact SymbolTree.everywhere_node (numbers.respected_childless notBinary notUnary) nofun

/-- The grammar of differences whose operands may have a sign. -/
def signGrammar : Grammar :=
  ⟨{ name := "signs"
     rules := [("sum", .choice [.literal "x", .symbol "sign", .symbol "difference"]),
      ("sign", .prec 2 none (.seq [.literal "-", .symbol "sum"])),
      ("difference",
        .prec 1 (some .left) (.seq [.symbol "sum", .literal "-", .symbol "sum"]))] }, by decide⟩

/-- A sign binds more tightly than the same operator between two operands. -/
def signLadder : Ladder WrittenSymbol :=
  ⟨.rule "sum", .rule "difference", .rule "sign", [(.terminal (.literal "-"), 1)],
    [(.terminal (.literal "-"), 2)]⟩

set_option maxRecDepth 100000 in
theorem signGrammar_parses :
    ((Language.ofGrammar signGrammar .noExternals).toOption.bind fun language =>
      ((Parser.mk {} (some ⟨0, language⟩)).parse "-x-x" none).toOption.map fun result =>
        (result.1.rootNode.info.hasError, language.tables.lexModes.size,
          language.tables.productions.size)) = some (false, 9, 5) := by
  generalize flattened : FlatGrammar.ofGrammar signGrammar = flat
  have value := flattened
  cbv at value
  subst value
  rw [Language.ofGrammar, LanguageTables.generate, flattened]
  clear flattened
  simp only [bind, Except.bind, LanguageTables.ofFlatGrammar]
  generalize made : Automaton.ofGrammar _ = automaton
  rw [Automaton.ofGrammar, ItemGrammar.states] at made
  generalize counted : ItemGrammar.itemCount _ = count at made
  cbv at counted
  subst counted
  rw [show Nat.pow 2 15 = 32768 from rfl] at made
  generalize prepared : ItemGrammar.ofGrammar _ = items at made
  cbv at prepared
  subst prepared
  generalize explored : ItemGrammar.explore _ _ _ _ = states at made
  cbv at explored
  subst explored
  -- each pass over the lookaheads holds the one before twice, so this is left to the kernel
  rw [show ItemGrammar.kernelLookaheads _ _ =
    #[[⟨[1]⟩], [⟨[5]⟩], [⟨[5]⟩], [⟨[5]⟩, ⟨[1]⟩], [⟨[5]⟩], [⟨[5]⟩], [⟨[5]⟩, ⟨[5]⟩], [⟨[5]⟩], [⟨[5]⟩, ⟨[5]⟩]] by
      decide +kernel] at made
  cbv at made
  subst made
  cbv

theorem operations_respect_ladder_of_signs :
    ∃ grammar language tree stats, FlatGrammar.ofGrammar signGrammar = .ok grammar ∧
      Language.ofGrammar signGrammar .noExternals = .ok language ∧ language.tables.Numbered ∧
      (Parser.mk {} (some ⟨0, language⟩)).parse "-x-x" none = .ok (tree, stats) ∧
      tree.rootNode.info.hasError = false ∧
      ∃ numbers, signLadder.NumberedBy signGrammar.symbolNumber? numbers ∧
        tree.root.Everywhere fun part => numbers.Respected part.skeleton := by
  have shown := signGrammar_parses
  cases loaded : Language.ofGrammar signGrammar .noExternals with
  | error failure => simp [loaded, Except.toOption] at shown
  | ok language =>
      simp only [loaded, Except.toOption, Option.bind_some] at shown
      cases parsed : (Parser.mk {} (some ⟨0, language⟩)).parse "-x-x" none with
      | error failure => simp [parsed] at shown
      | ok result =>
          obtain ⟨tree, stats⟩ := result
          simp only [parsed, Option.map_some, Option.some.injEq, Prod.mk.injEq] at shown
          obtain ⟨clean, modes, productions⟩ := shown
          have numbered : language.tables.Numbered :=
            ⟨by simp [modes, UInt32.size], by simp [productions, UInt32.size]⟩
          obtain ⟨grammar, flattened, _⟩ :=
            LanguageTables.generate_ok (Language.ofGrammar_ok loaded).1
          exact ⟨grammar, language, tree, stats, flattened, rfl, numbered, parsed, clean,
            (operations_respect_ladder (show signGrammar.Climbs signLadder by decide +kernel)
              flattened loaded numbered parsed clean).2⟩

end Lalr
