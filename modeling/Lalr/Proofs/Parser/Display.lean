import Lalr.Parser.Document
import Lalr.Proofs.Parser.Parts
import Lalr.Proofs.Parser.Termination
import Lalr.Proofs.Tree.Report

set_option autoImplicit false

/-!
What a parse puts into its tree is shown there, if the language hides no token and no empty rule:
every leaf is, and so is something in every node that recovery makes. Then the reports of a tree
are complete.
-/

namespace Lalr

open Lalr.Text

/-! ## What can be read -/

namespace Lexer

/-- The symbols of the tokens that a lexer knows. -/
def tokens (lexer : Lexer) : List SymbolId :=
  lexer.literals.map Prod.snd ++ lexer.patterns.map Prod.snd ++ lexer.keywords.map Prod.snd ++
    lexer.externals

variable {lexer : Lexer}

theorem mem_tokens_of_matchToken? {text : List Char} {found : TokenMatch}
    (matched : lexer.matchToken? text = some found) : found.symbol ∈ lexer.tokens := by
  simp only [tokens, List.mem_append, List.mem_map]
  rcases matchToken?_cases matched with ⟨entry, member, literal⟩ | ⟨entry, member, pattern⟩
  · obtain ⟨_, _, rfl⟩ := Option.map_eq_some_iff.mp literal
    exact .inl (.inl (.inl ⟨entry, member, rfl⟩))
  · unfold patternMatch? at pattern
    split at pattern
    case h_1 => cases pattern
    case h_2 =>
        split at pattern
        case isTrue => cases pattern
        case isFalse =>
            obtain rfl := Option.some.inj pattern
            exact .inl (.inl (.inr ⟨entry, member, rfl⟩))

theorem mem_tokens_of_keyword? {word : List Char} {symbol : SymbolId}
    (found : lexer.keyword? word = some symbol) : symbol ∈ lexer.tokens := by
  obtain ⟨before, after, shape, _⟩ := List.lookup_eq_some_iff.mp found
  simp [tokens, shape]

theorem mem_tokens_of_lookup {symbol keyword : SymbolId} {size : Nat} {text : List Char}
    (found : (if lexer.word = some symbol then
        match splitBytes? size text with
        | some (word, _) => lexer.keyword? word
        | none => none
      else none) = some keyword) : keyword ∈ lexer.tokens := by
  split at found
  case isFalse => cases found
  case isTrue =>
      split at found
      case h_1 => exact mem_tokens_of_keyword? found
      case h_2 => cases found

theorem mem_lexicalSymbols_of_compile {tables : LanguageTables}
    (compiled : Lexer.compile tables.lexical = .ok lexer) {symbol : SymbolId}
    (listed : symbol ∈ lexer.tokens) : symbol ∈ tables.lexicalSymbols := by
  obtain ⟨patterns, mapped, rest⟩ := exists_of_bind_eq_ok compiled
  obtain rfl := Except.ok.inj rest
  have sources : ∀ entry ∈ patterns, ∃ source ∈ tables.lexical.patterns, source.2 = entry.2 := by
    intro entry member
    obtain ⟨⟨text, symbol⟩, known, same⟩ := exists_of_mem_mapM_ok mapped member
    dsimp only at same
    split at same
    case h_2 => cases same
    case h_1 =>
        obtain rfl := Except.ok.inj same
        exact ⟨_, known, rfl⟩
  simp only [tokens, LanguageTables.lexicalSymbols, List.mem_append, List.mem_map] at listed ⊢
  rcases listed with ((⟨_, member, rfl⟩ | ⟨entry, member, rfl⟩) | ⟨entry, member, rfl⟩) | external
  · obtain ⟨source, known, rfl⟩ := member
    exact .inl (.inl (.inl (.inl ⟨source, .inl (.inl known), rfl⟩)))
  · obtain ⟨source, known, same⟩ := sources entry member
    exact .inl (.inl (.inl (.inl ⟨source, .inl (.inr known), same⟩)))
  · exact .inl (.inl (.inl (.inl ⟨entry, .inr (List.mem_reverse.mp member), rfl⟩)))
  · exact .inl (.inr external)

end Lexer

section lexing

variable {language : Language}

theorem mem_tokens_of_tokenAt {place : Cursor} {mode : ValidExternals} {examinedEnd : Nat}
    {state : ScannerState} {found : FoundToken}
    (read : tokenAt language place mode examinedEnd state = .ok found)
    (ordinary : found.symbol ≠ endSymbol) :
    found.symbol = errorSymbol ∨ found.symbol ∈ language.lexer.tokens := by
  rcases tokenAt_cases read with ⟨_, rfl⟩ | ⟨_, examined, rfl⟩ |
    ⟨_, index, _, _, _, _, _, _, declared, _, rfl⟩
  · exact absurd rfl ordinary
  · unfold regularToken
    split
    case h_1 found matched => exact .inr (Lexer.mem_tokens_of_matchToken? matched)
    case h_2 => split <;> exact .inl rfl
  · exact .inr (by simp [Lexer.tokens, List.mem_of_getElem? declared])

end lexing

/-! ## What a language shows -/

/-- A language shows every token but the end of the input, and every rule that can be empty by
itself. -/
structure Language.ShowsText (language : Language) : Prop where
  terminals : ∀ symbol, symbol ≠ endSymbol → language.tables.isTerminal symbol = true →
    (language.symbolInfo? symbol).any SymbolInfo.visible = true
  productions : ∀ id production, language.production? id = some production →
    production.rhs = [] → (language.symbolInfo? production.lhs).any SymbolInfo.visible = true

/-- A token is shown if it becomes a leaf with the symbol that was read, and so are the extras
before it. The end of the input becomes none. -/
structure Lexeme.Shown (language : Language) (lexeme : Lexeme) : Prop where
  extras : ∀ leaf ∈ lexeme.extras, language.Displays (.leaf leaf)
  token : lexeme.raw ≠ endSymbol → ∀ top, language.Displays (.leaf (lexeme.toLeaf lexeme.raw top))

theorem Lexeme.Shown.yields {language : Language} {lexeme : Lexeme}
    (shown : lexeme.Shown language) {symbol : SymbolId}
    (token : ∀ top, language.Displays (.leaf (lexeme.toLeaf symbol top))) :
    lexeme.Yields language.Displays symbol := by
  intro top leaf member
  rcases List.mem_append.mp member with extra | own
  · exact shown.extras leaf extra
  · exact List.mem_singleton.mp own ▸ token top

theorem displays_leaf {language : Language} (shows : language.ShowsText) {leaf : Leaf}
    (known : leaf.raw = errorSymbol ∨
      (language.tables.isTerminal leaf.symbol = true ∧ leaf.symbol ≠ endSymbol)) :
    language.Displays (.leaf leaf) := by
  simp only [Language.Displays, Language.shows, Subtree.isError, Subtree.symbol,
    Bool.or_eq_true, beq_iff_eq]
  exact known.imp .inl fun ordinary => shows.terminals _ ordinary.2 ordinary.1

section shown

variable {language : Language} (shows : language.ShowsText)
  (lexical : ∀ symbol ∈ language.lexer.tokens,
    language.tables.isTerminal symbol = true ∧ symbol ≠ endSymbol)

include shows lexical

theorem shown_of_lexFrom {start : Nat} {mode : ValidExternals} {limit : Nat} {extras : List Leaf}
    {examinedEnd : Nat} {cursor after : Cursor} {state : ScannerState} {lexeme : Lexeme}
    (passed : ∀ leaf ∈ extras, language.Displays (.leaf leaf))
    (read : lexFrom language start mode limit extras examinedEnd cursor state =
      .ok (lexeme, after)) : lexeme.Shown language := by
  induction limit generalizing extras examinedEnd cursor state with
  | zero => cases read
  | succ limit ih =>
      obtain ⟨found, foundHere, rest⟩ := exists_of_bind_eq_ok read
      split at rest
      case isTrue extra =>
          simp only [Bool.and_eq_true, bne_iff_ne, ne_eq] at extra
          refine ih (fun leaf member => ?_) rest
          rcases List.mem_cons.mp member with rfl | before
          · exact displays_leaf shows ((mem_tokens_of_tokenAt foundHere extra.1).imp_right
              (lexical _))
          · exact passed leaf before
      case isFalse =>
          obtain ⟨rfl, _⟩ := Prod.mk.inj (Except.ok.inj rest)
          refine ⟨fun leaf member => passed leaf (List.mem_reverse.mp member), ?_⟩
          intro ordinary top
          refine displays_leaf shows (Or.imp_right (lexical _) ?_)
          dsimp only [Lexeme.toLeaf] at ordinary ⊢
          generalize known : (if language.lexer.word = some found.symbol then
            (_ : Option SymbolId) else none) = keyword at ordinary ⊢
          cases keyword with
          | none => exact mem_tokens_of_tokenAt foundHere ordinary
          | some keyword => exact .inr (Lexer.mem_tokens_of_lookup known)

theorem shown_of_lex {cursor after : Cursor} {mode : ValidExternals} {state : ScannerState}
    {lexeme : Lexeme} (read : lex language cursor mode state = .ok (lexeme, after)) :
    lexeme.Shown language :=
  shown_of_lexFrom shows lexical (by simp) read

theorem ReadInTurn.shown {cursor last : Cursor} {state final : ScannerState}
    {lexemes : List Lexeme} (inTurn : ReadInTurn language cursor state lexemes last final) :
    ∀ lexeme ∈ lexemes, lexeme.Shown language := by
  induction inTurn with
  | nil => simp
  | cons read _ ih =>
      intro lexeme member
      rcases List.mem_cons.mp member with rfl | later
      · exact shown_of_lex shows lexical read
      · exact ih lexeme later

end shown

/-! ## The parse -/

namespace ParseState

open Subtree

variable {grammar : FlatGrammar} {input : ParseInput} {state : ParseState} {token : Lexeme}

/-- Everything on the stack and the tokens at hand are shown. -/
structure Displayed (input : ParseInput) (state : ParseState) : Prop where
  queue : ∀ lexeme ∈ state.queue, lexeme.Shown input.language
  stack : state.Holds input.language.Displays

theorem displayed_initial (input : ParseInput) : (initial input.text).Displayed input :=
  ⟨by simp [queue, initial], by simp [Holds, initial]⟩

/-- A node of recovery holds the token at hand or something that was on the stack, which is
shown. -/
theorem admits_displays (stack : state.Holds input.language.Displays)
    (shown : token.Shown input.language) : state.Admits input.language.Displays token := by
  rintro children child member (⟨ordinary, top, rfl⟩ | ⟨entry, listed, rfl⟩) _
  · exact ⟨_, member, (shown.token ordinary top).visibleNodes_ne_nil⟩
  · exact ⟨_, member, (stack entry listed).here.visibleNodes_ne_nil⟩

/-- The node of a production is visible, or holds a symbol. -/
theorem displays_of_matches {language : Language} (shows : language.ShowsText)
    (few : language.tables.symbols.size ≤ 65535) {head : NodeHead} {children : List Subtree}
    {id : ProductionId} (matched : Matches language id head.symbol children)
    (below : ∀ child ∈ children, child.Everywhere language.Displays) :
    language.Displays (.node head children) := by
  intro needed
  obtain ⟨production, found, lhs, rhs⟩ := matched
  have hidden : ¬ (language.symbolInfo? head.symbol).any SymbolInfo.visible = true := by
    rcases needed with error | hidden
    · have beyond : language.symbolInfo? head.symbol = none := by
        rw [error]
        exact Array.getElem?_eq_none few
      simp [beyond]
    · simp only [Language.shows, Bool.or_eq_false_iff] at hidden
      simpa [Subtree.symbol] using hidden.2
  have filled : structuralSymbols children ≠ [] := by
    rw [rhs]
    exact fun empty => hidden (lhs ▸ shows.productions id production found empty)
  obtain ⟨symbol, listed⟩ := List.exists_mem_of_ne_nil _ filled
  obtain ⟨child, member, _⟩ := List.mem_map.mp listed
  have inside := (List.mem_filter.mp member).1
  exact ⟨child, inside, (below child inside).here.visibleNodes_ne_nil⟩

/-- A reduction puts a node on the stack that is visible or holds a symbol. -/
theorem displays_reduce (shows : input.language.ShowsText)
    (few : input.language.tables.symbols.size ≤ 65535)
    (stack : state.Holds input.language.Displays) (id : ProductionId)
    (production : ProductionInfo)
    (sound : StackSound input.language grammar (state.reduce input id production token).stack) :
    (state.reduce input id production token).Holds input.language.Displays := by
  obtain ⟨trailing, taken, below, shape, _, _, reduced⟩ := reduce_eq input state id production token
  refine stack.reduce shape reduced ?_
  rw [reduced] at sound
  have derivation := (derivation_of_pushAll sound rfl).1
  simp only [StackEntry.ofEntries, IsDerivation] at derivation
  obtain ⟨⟨_, _, matched⟩, _⟩ := derivation
  refine displays_of_matches shows few matched fun child member => ?_
  obtain ⟨entry, listed, rfl⟩ := List.mem_map.mp member
  exact stack entry (shape ▸ List.mem_append_right _
    (List.mem_append_left _ (List.mem_reverse.mp listed)))

namespace Displayed

variable (shows : input.language.ShowsText)
  (lexical : ∀ symbol ∈ input.language.lexer.tokens,
    input.language.tables.isTerminal symbol = true ∧ symbol ≠ endSymbol)

include shows lexical

theorem current (displayed : state.Displayed input) {middle : ParseState}
    (taken : state.current input = .ok (token, middle)) :
    ∀ lexeme ∈ token :: middle.pending, lexeme.Shown input.language := by
  obtain ⟨_, _, whole, inTurn⟩ := current_ok taken
  rw [whole]
  intro lexeme member
  exact (List.mem_append.mp member).elim (displayed.queue lexeme)
    (inTurn.shown shows lexical lexeme)

theorem step (represents : input.language.tables.Represents grammar)
    (knowsNoEnd : input.language.lexer.KnowsNoEnd)
    (few : input.language.tables.symbols.size ≤ 65535) (fresh : input.reuse = [])
    (displayed : state.Displayed input) (reaches : Reaches input state) {after : ParseState}
    (stepped : state.step input = .ok (.next after)) : after.Displayed input := by
  obtain ⟨log, faithful⟩ := reaches.faithful represents knowsNoEnd fresh
  obtain ⟨token, middle, taken, effect⟩ := effect_of_step fresh stepped
  obtain ⟨stack, idle, _, _⟩ := current_ok taken
  have shown := displayed.current shows lexical taken
  have atHand : ({ token with symbol := some (state.symbolOf input token) } : Lexeme).Shown
      input.language :=
    ⟨(shown token List.mem_cons_self).extras, (shown token List.mem_cons_self).token⟩
  have held := displayed.stack.of_stack stack
  have endsLast := (faithful.current knowsNoEnd taken).endsLast.tail
  have ahead : ∀ read later, ReadsAhead input middle read later →
      ∀ lexeme ∈ read, lexeme.readAhead.Shown input.language := by
    intro read later reads lexeme member
    have shown := reads.inTurn.shown shows lexical lexeme member
    exact ⟨shown.extras, shown.token⟩
  constructor
  · refine forall_queue_of_effect idle ?_ (fun _ shown => ⟨shown.extras, shown.token⟩) ?_ ahead
      effect
    · intro lexeme member
      rcases List.mem_cons.mp member with rfl | waits
      · exact atHand
      · exact shown lexeme (List.mem_cons_of_mem _ waits)
    · intro missing inserted
      obtain ⟨some_, inside⟩ := insertion?_bounds represents.terminalCount_le inserted
      refine ⟨nofun, fun ordinary top => displays_leaf shows (.inr ⟨?_, ordinary⟩)⟩
      exact decide_eq_true inside
  · refine held.effect (admits_displays held atHand) atHand.extras ?_ ?_ ?_ ?_ effect
    · intro next action
      obtain ⟨terminal, _⟩ := represents.edge_of_shift action
      rw [← represents.isTerminal_eq] at terminal
      exact atHand.yields fun top => displays_leaf shows
        (.inr ⟨terminal, represents.ne_end_of_shift action⟩)
    · exact fun ordinary => atHand.yields (atHand.token ordinary)
    · intro read later reads lexeme member
      have known := reads.forall_pending (fun other waits => shown other
        (List.mem_cons_of_mem _ waits)) (ahead read later reads) lexeme
          (List.mem_of_mem_dropLast member)
      exact known.yields (known.token (reads.endsLast endsLast lexeme member))
    · intro id production action found
      obtain ⟨_, middleSound, _⟩ := (reaches.sound represents rfl fresh).current taken
      have top : middle.topState = state.topState := by simp only [topState, stack]
      rw [← top] at action
      exact displays_reduce shows few held id production
        (middleSound.reduce represents _ rfl action found).stack

theorem of_reaches (represents : input.language.tables.Represents grammar)
    (knowsNoEnd : input.language.lexer.KnowsNoEnd)
    (few : input.language.tables.symbols.size ≤ 65535) (fresh : input.reuse = [])
    (reaches : Reaches input state) : state.Displayed input := by
  induction reaches with
  | initial => exact displayed_initial input
  | step reaches stepped ih =>
      exact ih.step shows lexical represents knowsNoEnd few fresh reaches stepped

/-- Everything below the root of the tree is shown. -/
theorem done (displayed : state.Displayed input) {root : Subtree} {stats : ParseStats}
    (stepped : state.step input = .ok (.done root stats)) :
    ∀ child ∈ root.children, child.Everywhere input.language.Displays := by
  obtain ⟨token, middle, taken, ended⟩ := done_cases stepped
  obtain ⟨stack, _⟩ := current_ok taken
  have held := displayed.stack.of_stack stack
  have shown := displayed.current shows lexical taken token List.mem_cons_self
  rcases ended with ⟨_, rfl⟩ | ⟨_, _, _, rfl⟩
  · exact held.accept_children shown.extras
  · exact held.wrapAll_children (admits_displays held ⟨shown.extras, shown.token⟩) shown.extras

end Displayed

theorem exists_node_of_done {root : Subtree} {stats : ParseStats}
    (stepped : state.step input = .ok (.done root stats)) :
    ∃ head children, root = .node head children := by
  obtain ⟨token, middle, _, ⟨_, rfl⟩ | ⟨_, _, _, rfl⟩⟩ := done_cases stepped
  · unfold ParseState.accept
    split <;> exact ⟨_, _, rfl⟩
  · exact ⟨_, _, rfl⟩

/-- The root of a tree is no error. -/
theorem symbol_ne_error_of_done (represents : input.language.tables.Represents grammar)
    (known : input.language.tables.startSymbol? = some input.language.startSymbol)
    (fresh : input.reuse = []) (reaches : Reaches input state) {root : Subtree}
    {stats : ParseStats} (stepped : state.step input = .ok (.done root stats)) :
    root.symbol ≠ errorSymbol := by
  have bound := represents.symbols_le
  have inside : ∀ symbol : SymbolId, symbol.toNat < grammar.tableSymbolCount →
      symbol ≠ errorSymbol := by
    rintro _ less rfl
    simp only [errorSymbol, UInt16.reduceToNat] at less
    omega
  obtain ⟨token, middle, taken, ended⟩ := done_cases stepped
  obtain ⟨onlyExtras, middleSound, stack⟩ := (reaches.sound represents rfl fresh).current taken
  have top : middle.topState = state.topState := by simp only [topState, stack]
  rcases ended with ⟨action, rfl⟩ | ⟨_, _, _, rfl⟩
  · rw [← top] at action
    have named : ({ token with symbol := some (state.symbolOf input token) } : Lexeme).OnlyExtras :=
      onlyExtras
    have isStart := (middleSound.accept input represents named action).2.2
    exact inside _ (isStart ▸ represents.numbered.start_range.2)
  · obtain ⟨place, listed, same⟩ := List.mem_map.mp (List.mem_of_find?_eq_some known)
    have small : place < grammar.tableSymbolCount := by
      rw [represents.tableSymbolCount_eq, represents.terminalCount_eq] at listed
      have range := represents.numbered.start_range
      have within := (List.mem_range'_1.mp listed).2
      omega
    refine inside input.language.startSymbol ?_
    rw [← same]
    exact (represents.symbol_toNat small).symm ▸ small

end ParseState

open ParseState

/-- If a language shows every token and every rule that can be empty by itself, the reports of a
parse without an old tree are complete: there is one if and only if the root has the error flag,
and there is one of a missing token for each missing leaf and one of an unexpected character for
each leaf that is an unrecognised character, at the same places, and no other of these. -/
theorem reports_of_fresh_parse {source : Grammar} {scanner : Scanner} {grammar : FlatGrammar}
    {language : Language} (flattened : FlatGrammar.ofGrammar source = .ok grammar)
    (loaded : Language.ofGrammar source scanner = .ok language)
    (numbered : language.tables.Numbered) (shows : language.ShowsText) {config : ParseConfig}
    {text : String} {number : Nat} {tree : Tree} {stats : ParseStats}
    (parsed : (Parser.mk config (some ⟨number, language⟩)).parse text none = .ok (tree, stats))
    (file : Option String) :
    (Diagnostic.ofTree tree.rootNode text.toList file ≠ [] ↔
        tree.rootNode.info.hasError = true) ∧
      (placesOf .missingToken (Diagnostic.ofTree tree.rootNode text.toList file)).Perm
        (askedFor text.toList .missingToken 0 tree.root.leaves) ∧
      (placesOf .unexpectedCharacter (Diagnostic.ofTree tree.rootNode text.toList file)).Perm
        (askedFor text.toList .unexpectedCharacter 0 tree.root.leaves) := by
  have represents := Language.represents_of_ofGrammar loaded flattened numbered
  have knowsNoEnd := Language.knowsNoEnd_of_ofGrammar loaded
  obtain ⟨valid, _, compiled, start, _⟩ := Language.ofTables_ok (Language.ofGrammar_ok loaded).2
  obtain ⟨few, known⟩ := LanguageTables.validate_ok valid
  have lexical := fun symbol listed =>
    known symbol (Lexer.mem_lexicalSymbols_of_compile compiled listed)
  obtain ⟨root, ran, rfl⟩ := Parser.parse_ok parsed
  obtain ⟨last, reaches, stepped⟩ := exists_last_of_runParse ran
  have displayed := Displayed.of_reaches shows lexical represents knowsNoEnd few rfl reaches
  have below := displayed.done shows lexical stepped
  have ordinary := symbol_ne_error_of_done represents start rfl reaches stepped
  obtain ⟨head, children, rfl⟩ := exists_node_of_done stepped
  obtain ⟨flagged, reported⟩ := language.ofTree_topNode text.toList ordinary below file
  rw [Tree.rootNode, Language.topNodeByVisit_eq]
  exact ⟨flagged, reported .missingToken (by decide), reported .unexpectedCharacter (by decide)⟩

set_option maxRecDepth 10000 in
theorem reports_of_pair :
    ∃ grammar language tree stats, FlatGrammar.ofGrammar pairGrammar = .ok grammar ∧
      Language.ofGrammar pairGrammar .noExternals = .ok language ∧ language.tables.Numbered ∧
      language.ShowsText ∧
      (Parser.mk {} (some ⟨0, language⟩)).parse "b" none = .ok (tree, stats) ∧
      (Diagnostic.ofTree tree.rootNode "b".toList none ≠ [] ↔
        tree.rootNode.info.hasError = true) ∧
      (placesOf .missingToken (Diagnostic.ofTree tree.rootNode "b".toList none)).Perm
        (askedFor "b".toList .missingToken 0 tree.root.leaves) ∧
      (placesOf .unexpectedCharacter (Diagnostic.ofTree tree.rootNode "b".toList none)).Perm
        (askedFor "b".toList .unexpectedCharacter 0 tree.root.leaves) := by
  obtain ⟨grammar, language, flattened, loaded, numbered⟩ := pairGrammar_loads
  have listed : ((Language.ofGrammar pairGrammar .noExternals).toOption.map fun language =>
      (language.tables.terminalCount.toNat, language.tables.symbols.toList.map SymbolInfo.visible,
        language.tables.productions.toList.map ProductionInfo.rhs)) =
          some (3, [false, true, true, true], [[1, 2]]) := by cbv
  have ran : ((Language.ofGrammar pairGrammar .noExternals).toOption.map fun language =>
      ((Parser.mk {} (some ⟨0, language⟩)).parse "b" none).toOption.isSome) = some true := by cbv
  rw [loaded] at listed ran
  simp only [Except.toOption, Option.map_some, Option.some.injEq, Prod.mk.injEq] at listed ran
  obtain ⟨count, visible, productions⟩ := listed
  have shows : language.ShowsText := by
    constructor
    · intro symbol ordinary terminal
      have small : symbol.toNat < 3 := by
        have less : symbol.toNat < language.tables.terminalCount.toNat := of_decide_eq_true terminal
        rwa [count] at less
      have positive : symbol.toNat ≠ 0 := fun none => ordinary (UInt16.toNat_inj.mp none)
      have seen : (language.tables.symbols[symbol.toNat]?).map SymbolInfo.visible = some true := by
        rw [← Array.getElem?_toList, ← List.getElem?_map, visible]
        obtain one | two : symbol.toNat = 1 ∨ symbol.toNat = 2 := by omega
        · rw [one]
          rfl
        · rw [two]
          rfl
      obtain ⟨info, found, shown⟩ := Option.map_eq_some_iff.mp seen
      simp [Language.symbolInfo?, found, shown]
    · intro id production found empty
      have member : production ∈ language.tables.productions.toList :=
        List.mem_of_getElem? ((Array.getElem?_toList).trans found)
      have listed := List.mem_map_of_mem (f := ProductionInfo.rhs) member
      rw [productions, empty] at listed
      simp at listed
  cases parsed : (Parser.mk {} (some ⟨0, language⟩)).parse "b" none with
  | error message => simp [parsed] at ran
  | ok result =>
      obtain ⟨tree, stats⟩ := result
      exact ⟨grammar, language, tree, stats, flattened, loaded, numbered, shows, parsed,
        reports_of_fresh_parse flattened loaded numbered shows parsed none⟩

end Lalr
