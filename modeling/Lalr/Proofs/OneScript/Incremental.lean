import Lalr.Diagnostic
import Lalr.Proofs.OneScript.Delimiters
import Lalr.Proofs.OneScript.Spacing
import Lalr.Proofs.Parser.Renewal

set_option autoImplicit false

/-!
Parsing again after edits. In a language with the tokens of OneScript whose grammar keeps them apart
nobody can tell the tree that is renewed from one that is made anew.
-/

namespace Lalr

open Lalr.Text

/-- Two trees of a text show the same: the same nodes with their kinds, fields, places and flags,
which read the same and give the same diagnostics. -/
structure Tree.ShowsAs (tree other : Tree) (text : List Char) : Prop where
  nodes : tree.rootNode = other.rootNode
  sexp : tree.rootNode.sexp = other.rootNode.sexp
  diagnostics : ∀ file,
    Diagnostic.ofTree tree.rootNode text file = Diagnostic.ofTree other.rootNode text file

theorem Tree.showsAs_of_bare {tree other : Tree} (language : tree.language = other.language)
    (same : tree.root.bare = other.root.bare) (text : List Char) : tree.ShowsAs other text := by
  have nodes := Tree.rootNode_eq_of_bare language same
  exact ⟨nodes, congrArg Node.sexp nodes, fun file => by rw [nodes]⟩

namespace OneScript

variable {source : Grammar} {grammar : FlatGrammar} {language : Language}

theorem composes_of_delimits (spoken : speaks source = true) (delimited : delimits source = true)
    (flattened : FlatGrammar.ofGrammar source = .ok grammar)
    (loaded : Language.ofGrammar source OneScript.scanner = .ok language)
    (numbered : language.tables.Numbered) (number : Nat) :
    Parser.Composes ⟨number, language⟩ grammar := by
  have represents := Language.represents_of_ofGrammar loaded flattened numbered
  obtain ⟨forms, tokenizes⟩ := tokenizes_of_delimits spoken delimited flattened loaded represents
  refine ⟨represents, filled_of_delimits delimited flattened, tokenizes.knowsNoEnd,
    tokenizes.spells.progresses, ?_, ?_, tokenizes.carries⟩
  · change language.scanner.Fits
    rw [tokenizes.scans]
    exact fits_scanner
  · change language.scanner.StaysInside
    rw [tokenizes.scans]
    exact staysInside_scanner

end OneScript

open OneScript in
/-- In every language with the tokens and the scanner of OneScript whose grammar keeps its tokens
apart, a parse with an old tree, on which the edits of its text were recorded, shows what a parse
without one shows, however often this was done before. It returns a tree wherever the latter
does; and what it returns the latter comes to, given enough steps. -/
theorem incremental_parse_shows_as_fresh {source : Grammar} {grammar : FlatGrammar}
    {language : Language} (spoken : speaks source = true) (delimited : delimits source = true)
    (flattened : FlatGrammar.ofGrammar source = .ok grammar)
    (loaded : Language.ofGrammar source OneScript.scanner = .ok language)
    (numbered : language.tables.Numbered) {number : Nat} {old : Tree} {former text : String}
    (renews : Parser.Renews ⟨number, language⟩ old former) {edits : List TextEdit}
    (revises : TextEdit.Revises edits (encodeUtf8 former.toList) (encodeUtf8 text.toList))
    (config : ParseConfig) :
    speaks OneScript.grammar = true ∧ delimits OneScript.grammar = true ∧
    let parser := Parser.mk config (some ⟨number, language⟩)
    (∀ tree stats, parser.parse text none = .ok (tree, stats) → ∃ tree' stats',
      parser.parse text (some (edits.foldl Tree.edit old)) = .ok (tree', stats') ∧
        tree'.ShowsAs tree text.toList) ∧
    ∀ tree' stats', parser.parse text (some (edits.foldl Tree.edit old)) = .ok (tree', stats') →
      ∃ limit root stats, runSteps ⟨language, text.toList, config, []⟩ limit
          (.initial text.toList) = .ok (root, stats) ∧
        tree'.ShowsAs ⟨root, ⟨number, language⟩, []⟩ text.toList := by
  have composes := composes_of_delimits spoken delimited flattened loaded numbered number
  refine ⟨grammar_speaks, grammar_delimits, fun tree stats parsed => ?_, fun tree' stats' parsed => ?_⟩
  · obtain ⟨tree', stats', parsed', named, same⟩ := renews.exists_parse composes revises parsed
    exact ⟨tree', stats', parsed', Tree.showsAs_of_bare named same _⟩
  · obtain ⟨limit, root, stats, ran, named, same⟩ := renews.exists_fresh_run composes revises parsed
    exact ⟨limit, root, stats, ran, Tree.showsAs_of_bare named same _⟩

/-- The grammar of two conditions. -/
def conditionsGrammar : Grammar :=
  ⟨{ name := "conditions"
     externals := OneScript.externals
     extras := [.symbol "directive"]
     keywords := [⟨"If", ["if", "если"]⟩]
     word := some "identifier"
     rules := [("start", .seq [.symbol "condition", .symbol "condition"]),
      ("condition", .seq [.keyword "If", .symbol "identifier"]),
      ("identifier", .pattern "[\\p{L}_][\\p{L}\\p{N}_]*"),
      ("directive", .pattern "#[^\\r\\n]*")] }, by decide⟩

/-- What is found in this grammar. -/
def conditionsDraft : FlatDraft :=
  { terminals := conditionDraft.terminals
    productions :=
      [⟨.rule 0, [{ symbol := .rule 1 }, { symbol := .rule 1 }], 0⟩,
        ⟨.rule 1, [{ symbol := .terminal 7 }, { symbol := .terminal 1 }], 0⟩] }

theorem conditionsGrammar_drafted : conditionsGrammar.check = .ok () ∧
    conditionsGrammar.unreachableRules = [] ∧
      FlatDraft.ofGrammar conditionsGrammar = .ok conditionsDraft := by
  decide +kernel

theorem conditionsGrammar_delimits :
    OneScript.speaks conditionsGrammar = true ∧ OneScript.delimits conditionsGrammar = true := by
  rw [OneScript.speaks, OneScript.delimits, conditionsGrammar_drafted.2.2]
  decide +kernel

/-- The second of two conditions is taken over after an edit of the first one. -/
theorem conditionsGrammar_reads :
    ((Language.ofGrammar conditionsGrammar OneScript.scanner).toOption.bind fun language =>
      let parser := Parser.mk {} (some ⟨0, language⟩)
      (parser.parse "if a if b" none).toOption.bind fun (old, _) =>
        (parser.parse "if xy if b" none).toOption.bind fun _ =>
          (parser.parse "if xy if b" (some (old.edit ⟨3, 4, 5⟩))).toOption.map fun (_, stats) =>
            (language.tables.lexModes.size, language.tables.productions.size, stats.reusedNodes)) =
      some (6, 2, 1) := by
  have flattened : FlatGrammar.ofGrammar conditionsGrammar =
      (conditionsDraft.number conditionsGrammar).mapError .grammar := by
    obtain ⟨checked, reached, drafted⟩ := conditionsGrammar_drafted
    simp only [FlatGrammar.ofGrammar, checked, reached, drafted]
    rfl
  rw [Language.ofGrammar, LanguageTables.generate, flattened]
  clear flattened
  -- the kernel does not unfold the recursions that make the automaton, but it can read the result
  generalize made : (conditionsDraft.number conditionsGrammar).mapError GenerateError.grammar =
    flat
  cbv at made
  subst made
  simp only [bind, Except.bind, LanguageTables.ofFlatGrammar]
  generalize made : Automaton.ofGrammar _ = automaton
  rw [Automaton.ofGrammar, ItemGrammar.states] at made
  generalize counted : ItemGrammar.itemCount _ = count at made
  cbv at counted
  subst counted
  rw [show Nat.pow 2 8 = 256 from rfl] at made
  generalize prepared : ItemGrammar.ofGrammar _ = items at made
  cbv at prepared
  subst prepared
  generalize explored : ItemGrammar.explore _ _ _ _ = states at made
  cbv at explored
  subst explored
  -- each pass over the lookaheads holds the one before twice
  rw [show ItemGrammar.kernelLookaheads _ _ =
    #[[⟨[1]⟩], [⟨[9]⟩], [⟨[1]⟩], [⟨[1]⟩], [⟨[9]⟩], [⟨[1]⟩]] by decide +kernel] at made
  cbv at made
  subst made
  decide +kernel

theorem exists_conditions : ∃ grammar language old stats tree stats' tree' stats'',
    FlatGrammar.ofGrammar conditionsGrammar = .ok grammar ∧
      Language.ofGrammar conditionsGrammar OneScript.scanner = .ok language ∧
      language.tables.Numbered ∧
      let parser := Parser.mk {} (some ⟨0, language⟩)
      parser.parse "if a if b" none = .ok (old, stats) ∧
      parser.parse "if xy if b" none = .ok (tree, stats') ∧
      parser.parse "if xy if b" (some (old.edit ⟨3, 4, 5⟩)) = .ok (tree', stats'') ∧
      stats''.reusedNodes = 1 := by
  have ok {ε α : Type} {result : Except ε α} {value : α}
      (known : result.toOption = some value) : result = .ok value := by
    cases result with
    | error => cases known
    | ok => exact congrArg Except.ok (Option.some.inj known)
  have shown := conditionsGrammar_reads
  obtain ⟨language, loaded, shown⟩ := Option.bind_eq_some_iff.mp shown
  obtain ⟨⟨old, stats⟩, first, shown⟩ := Option.bind_eq_some_iff.mp shown
  obtain ⟨⟨tree, stats'⟩, fresh, shown⟩ := Option.bind_eq_some_iff.mp shown
  obtain ⟨⟨tree', stats''⟩, again, shown⟩ := Option.map_eq_some_iff.mp shown
  obtain ⟨modes, rest⟩ := Prod.mk.inj shown
  obtain ⟨productions, reused⟩ := Prod.mk.inj rest
  have loaded := ok loaded
  obtain ⟨grammar, flattened, _⟩ := LanguageTables.generate_ok (Language.ofGrammar_ok loaded).1
  exact ⟨grammar, language, old, stats, tree, stats', tree', stats'', flattened, loaded,
    ⟨by simp [modes, UInt32.size], by simp [productions, UInt32.size]⟩,
    ok first, ok fresh,
    ok again, reused⟩

/-- After an edit of the first of two conditions the second one is taken over, and nobody can
tell. -/
theorem incremental_parse_of_conditions :
    ∃ grammar language old tree stats tree' stats',
      FlatGrammar.ofGrammar conditionsGrammar = .ok grammar ∧
      Language.ofGrammar conditionsGrammar OneScript.scanner = .ok language ∧
      language.tables.Numbered ∧
      Parser.Renews ⟨0, language⟩ old "if a if b" ∧
      TextEdit.Revises [⟨3, 4, 5⟩] (encodeUtf8 "if a if b".toList)
        (encodeUtf8 "if xy if b".toList) ∧
      let parser := Parser.mk {} (some ⟨0, language⟩)
      parser.parse "if xy if b" none = .ok (tree, stats) ∧
      parser.parse "if xy if b" (some (old.edit ⟨3, 4, 5⟩)) = .ok (tree', stats') ∧
      stats'.reusedNodes = 1 ∧ tree'.ShowsAs tree "if xy if b".toList := by
  obtain ⟨grammar, language, old, _, tree, stats, tree', stats', flattened, loaded, numbered, first,
    fresh, again, reused⟩ := exists_conditions
  have renews : Parser.Renews ⟨0, language⟩ old "if a if b" :=
    .first (show utf8Length _ < 2 ^ 63 by decide) first
  have revises : TextEdit.Revises [⟨3, 4, 5⟩] (encodeUtf8 "if a if b".toList)
      (encodeUtf8 "if xy if b".toList) :=
    @TextEdit.Revises.cons _ _ _ (encodeUtf8 ['x', 'y']) _
      ⟨by decide, by decide, by decide⟩ rfl (by decide) (.nil _)
  obtain ⟨spoken, delimited⟩ := conditionsGrammar_delimits
  obtain ⟨_, _, same, _⟩ := incremental_parse_shows_as_fresh spoken delimited flattened loaded
    numbered renews revises {}
  obtain ⟨tree'', stats'', again', shows_⟩ := same tree stats fresh
  obtain ⟨rfl, rfl⟩ := Prod.mk.inj (Except.ok.inj (again.symm.trans again'))
  exact ⟨grammar, language, old, tree, stats, tree', stats', flattened, loaded, numbered, renews,
    revises, fresh, again, reused, shows_⟩

end Lalr
