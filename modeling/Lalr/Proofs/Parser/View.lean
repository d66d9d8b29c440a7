import Lalr.Proofs.FlatGrammar.Recognition
import Lalr.Proofs.Parser.Display
import Lalr.Proofs.Parser.Result
import Lalr.Proofs.Tree.View

set_option autoImplicit false

/-!
The nodes of the trees that a parse returns. Errors never stand for a symbol of a production: what
recovery makes is an extra, and an unrecognised character is accepted as nothing else. So the
fields of a production go to its symbols, and the nodes of a tree are just the parts of it that are
shown.
-/

namespace Lalr

open Lalr.Text

/-! ## Unrecognised characters -/

namespace Lexer

variable {lexer : Lexer}

/-- A lexer has no token and no twin for what it does not recognise. -/
structure KnowsNoError (lexer : Lexer) : Prop where
  tokens : errorSymbol ∉ lexer.tokens
  twin : lexer.twin? errorSymbol = none

theorem mem_lexicalSymbols_of_twin? {tables : LanguageTables}
    (compiled : Lexer.compile tables.lexical = .ok lexer) {symbol twin : SymbolId}
    (found : lexer.twin? symbol = some twin) : symbol ∈ tables.lexicalSymbols := by
  obtain ⟨patterns, _, rest⟩ := exists_of_bind_eq_ok compiled
  obtain rfl := Except.ok.inj rest
  have listed := List.mem_reverse.mp (mem_of_lookup_eq_some found)
  exact List.mem_append_right _ (List.mem_flatMap.mpr ⟨_, listed, List.mem_cons_self⟩)

end Lexer

theorem LanguageTables.Represents.ne_error {tables : LanguageTables} {grammar : FlatGrammar}
    (represents : tables.Represents grammar) {symbol : SymbolId}
    (inside : symbol.toNat < grammar.tableSymbolCount) : symbol ≠ errorSymbol := by
  rintro rfl
  have bound := represents.symbols_le
  simp only [errorSymbol, UInt16.reduceToNat] at inside
  omega

theorem Language.knowsNoError_of_ofGrammar {source : Grammar} {scanner : Scanner}
    {language : Language} {grammar : FlatGrammar}
    (represents : language.tables.Represents grammar)
    (loaded : Language.ofGrammar source scanner = .ok language) :
    language.lexer.KnowsNoError := by
  obtain ⟨valid, _, compiled, _⟩ := ofTables_ok (ofGrammar_ok loaded).2
  have other : errorSymbol ∉ language.tables.lexicalSymbols := by
    intro listed
    have terminal := ((LanguageTables.validate_ok valid).2 _ listed).1
    rw [represents.isTerminal_eq] at terminal
    have less := of_decide_eq_true terminal
    have range := represents.numbered.start_range
    exact represents.ne_error (by omega) rfl
  refine ⟨fun listed => other (Lexer.mem_lexicalSymbols_of_compile compiled listed), ?_⟩
  exact Option.eq_none_iff_forall_ne_some.mpr fun twin found =>
    other (Lexer.mem_lexicalSymbols_of_twin? compiled found)

/-- What holds of a token while it waits: an unrecognised character is no word and stands for
nothing else. -/
structure Lexeme.KeepsError (lexeme : Lexeme) : Prop where
  extras : lexeme.OnlyExtras
  word : lexeme.raw = errorSymbol → lexeme.word = none
  symbol : lexeme.raw = errorSymbol → ∀ symbol, lexeme.symbol = some symbol →
    symbol = errorSymbol

namespace Lexeme.KeepsError

variable {lexeme : Lexeme}

theorem forget (keeps : lexeme.KeepsError) :
    ({ lexeme with symbol := none } : Lexeme).KeepsError :=
  ⟨keeps.extras, keeps.word, nofun⟩

theorem readAhead (keeps : lexeme.KeepsError) : lexeme.readAhead.KeepsError :=
  ⟨keeps.extras, keeps.word, keeps.symbol⟩

theorem ofMissing (symbol : SymbolId) (position : Nat) (mode : ValidExternals) :
    (Lexeme.ofMissing symbol position mode).KeepsError :=
  ⟨nofun, fun _ => rfl, fun error _ same => Option.some.inj same ▸ error⟩

theorem named {input : ParseInput} {state : ParseState} (keeps : lexeme.KeepsError)
    (knowsNoError : input.language.lexer.KnowsNoError) :
    ({ lexeme with symbol := some (state.symbolOf input lexeme) } : Lexeme).KeepsError := by
  refine ⟨keeps.extras, keeps.word, fun error symbol same => ?_⟩
  obtain rfl := Option.some.inj same
  change lexeme.raw = errorSymbol at error
  unfold ParseState.symbolOf
  cases known : lexeme.symbol with
  | some symbol => exact keeps.symbol error symbol known
  | none =>
      have unread : lexeme.readAs input.language state.topState = errorSymbol := by
        simp [readAs, keeps.word error, error]
      simp [resolveSymbol_eq, unread, twinOr, knowsNoError.twin]

end Lexeme.KeepsError

section lexing

variable {language : Language} (knowsNoError : language.lexer.KnowsNoError)

include knowsNoError

theorem keepsError_of_lexFrom {start : Nat} {mode : ValidExternals} {limit : Nat}
    {extras : List Leaf} {examinedEnd : Nat} {cursor after : Cursor} {state : ScannerState}
    {lexeme : Lexeme} (passed : ∀ leaf ∈ extras, leaf.extra = true)
    (read : lexFrom language start mode limit extras examinedEnd cursor state =
      .ok (lexeme, after)) : lexeme.KeepsError := by
  have onlyExtras := onlyExtras_of_lexFrom passed read
  induction limit generalizing extras examinedEnd cursor state with
  | zero => cases read
  | succ limit ih =>
      obtain ⟨found, _, rest⟩ := exists_of_bind_eq_ok read
      split at rest
      case isTrue =>
          refine ih (fun leaf member => ?_) rest
          rcases List.mem_cons.mp member with rfl | before
          · rfl
          · exact passed leaf before
      case isFalse =>
          obtain ⟨rfl, _⟩ := Prod.mk.inj (Except.ok.inj rest)
          refine ⟨onlyExtras, ?_, nofun⟩
          dsimp only
          generalize known : (if language.lexer.word = some found.symbol then
            (_ : Option SymbolId) else none) = keyword
          intro error
          cases keyword with
          | none => rfl
          | some keyword =>
              obtain rfl : keyword = errorSymbol := error
              exact absurd (Lexer.mem_tokens_of_lookup known) knowsNoError.tokens

theorem ReadInTurn.keepsError {cursor last : Cursor} {state final : ScannerState}
    {lexemes : List Lexeme} (inTurn : ReadInTurn language cursor state lexemes last final) :
    ∀ lexeme ∈ lexemes, lexeme.KeepsError := by
  induction inTurn with
  | nil => simp
  | cons read _ ih =>
      intro lexeme member
      rcases List.mem_cons.mp member with rfl | later
      · exact keepsError_of_lexFrom knowsNoError (by simp) read
      · exact ih lexeme later

end lexing

/-! ## What a parse puts together -/

/-- What a parse makes: leaves of unrecognised characters that stand for nothing else, errors
without a production, and nodes of productions that are no extras. -/
def Subtree.Made : Subtree → Prop
  | .leaf token => token.raw = errorSymbol → token.extra = true ∨ token.symbol = errorSymbol
  | .node head _ =>
      head.symbol = errorSymbol ∧ head.production = none ∨
        head.extra = false ∧ head.production.isSome = true

namespace Lexeme.KeepsError

variable {lexeme : Lexeme}

theorem yields (keeps : lexeme.KeepsError) {symbol : SymbolId}
    (stands : lexeme.raw = errorSymbol → symbol = errorSymbol) :
    lexeme.Yields Subtree.Made symbol := by
  intro top leaf member error
  rcases List.mem_append.mp member with extra | own
  · exact .inl (keeps.extras leaf extra)
  · obtain rfl := List.mem_singleton.mp own
    exact .inr (stands error)

end Lexeme.KeepsError

namespace ParseState

open Subtree

variable {grammar : FlatGrammar} {input : ParseInput} {state : ParseState} {token : Lexeme}

/-- Errors on the stack and among the tokens at hand stand for nothing else. -/
structure KeepsErrors (state : ParseState) : Prop where
  queue : ∀ lexeme ∈ state.queue, lexeme.KeepsError
  stack : state.Holds Made

theorem keepsErrors_initial (text : List Char) : (initial text).KeepsErrors :=
  ⟨by simp [queue, initial], by simp [Holds, initial]⟩

theorem admits_made : state.Admits Made token :=
  fun _ _ _ _ => .inl ⟨rfl, rfl⟩

/-- A reduction makes a node of its production. -/
theorem made_reduce (stack : state.Holds Made) (input : ParseInput) (id : ProductionId)
    (production : ProductionInfo) (token : Lexeme) :
    (state.reduce input id production token).Holds Made := by
  obtain ⟨trailing, taken, below, shape, _, _, reduced⟩ := reduce_eq input state id production token
  exact stack.reduce shape reduced (.inr ⟨rfl, rfl⟩)

namespace KeepsErrors

variable (knowsNoError : input.language.lexer.KnowsNoError)

include knowsNoError

theorem current (keeps : state.KeepsErrors) {middle : ParseState}
    (taken : state.current input = .ok (token, middle)) :
    ∀ lexeme ∈ token :: middle.pending, lexeme.KeepsError := by
  obtain ⟨_, _, whole, inTurn⟩ := current_ok taken
  rw [whole]
  intro lexeme member
  exact (List.mem_append.mp member).elim (keeps.queue lexeme)
    (inTurn.keepsError knowsNoError lexeme)

theorem step (fresh : input.reuse = []) (keeps : state.KeepsErrors) {after : ParseState}
    (stepped : state.step input = .ok (.next after)) : after.KeepsErrors := by
  obtain ⟨token, middle, taken, effect⟩ := effect_of_step fresh stepped
  obtain ⟨stack, idle, _, _⟩ := current_ok taken
  have known := keeps.current knowsNoError taken
  have atHand : ({ token with symbol := some (state.symbolOf input token) } : Lexeme).KeepsError :=
    (known token List.mem_cons_self).named knowsNoError
  have ahead : ∀ read later, ReadsAhead input middle read later →
      ∀ lexeme ∈ read, lexeme.readAhead.KeepsError := fun read later reads lexeme member =>
    (reads.inTurn.keepsError knowsNoError lexeme member).readAhead
  constructor
  · refine forall_queue_of_effect idle ?_ (fun _ => .forget)
      (fun missing _ => .ofMissing missing _ _) ahead effect
    intro lexeme member
    rcases List.mem_cons.mp member with rfl | waits
    · exact atHand
    · exact known lexeme (List.mem_cons_of_mem _ waits)
  · refine (keeps.stack.of_stack stack).effect admits_made
      (fun leaf listed _ => .inl (atHand.extras leaf listed)) ?_ ?_ ?_ ?_ effect
    · exact fun _ _ => atHand.yields fun error => atHand.symbol error _ rfl
    · exact fun _ => atHand.yields id
    · intro read later reads lexeme member
      have kept := reads.forall_pending (fun other waits => known other
        (List.mem_cons_of_mem _ waits)) (ahead read later reads) lexeme
          (List.mem_of_mem_dropLast member)
      exact kept.yields id
    · exact fun id production _ _ =>
        made_reduce (keeps.stack.of_stack stack) input id production _

theorem of_reaches (fresh : input.reuse = []) (reaches : Reaches input state) :
    state.KeepsErrors := by
  induction reaches with
  | initial => exact keepsErrors_initial input.text
  | step _ stepped ih => exact ih.step knowsNoError fresh stepped

/-- Everything below the root of the tree was made by the parse. -/
theorem done (keeps : state.KeepsErrors) {root : Subtree} {stats : ParseStats}
    (stepped : state.step input = .ok (.done root stats)) :
    ∀ child ∈ root.children, child.Everywhere Made := by
  obtain ⟨token, middle, taken, ended⟩ := done_cases stepped
  have held := keeps.stack.of_stack (current_ok taken).1
  have extras : ∀ leaf ∈ token.extras, Made (.leaf leaf) := fun leaf listed _ =>
    .inl ((keeps.current knowsNoError taken token List.mem_cons_self).extras leaf listed)
  rcases ended with ⟨_, rfl⟩ | ⟨_, _, _, rfl⟩
  · exact held.accept_children extras
  · exact held.wrapAll_children admits_made extras

end KeepsErrors

end ParseState

/-! ## Regular trees -/

namespace Subtree

variable {language : Language}

/-- The parts of a tree that follows the productions follow them. -/
theorem LiesAt.followsProductions {part whole : Subtree} {offset : Nat}
    (lies : part.LiesAt offset whole) (follows : whole.FollowsProductions language) :
    part.FollowsProductions language := by
  induction lies with
  | whole => exact follows
  | inside _ ih => exact ih (allFollowProductions_iff.mp follows.2 _ (by simp))

/-- Errors among the children of a production are extras, since no production has a symbol for
them. -/
theorem isExtra_of_isError {grammar : FlatGrammar}
    (represents : language.tables.Represents grammar) {id : ProductionId} {symbol : SymbolId}
    {children : List Subtree} (matched : Matches language id symbol children) {child : Subtree}
    (member : child ∈ children) (made : child.Made) (error : child.isError = true) :
    child.isExtra = true := by
  by_contra structural
  have named : child.symbol = errorSymbol := by
    cases child with
    | leaf token => exact (made (eq_of_beq error)).resolve_left structural
    | node head below => exact eq_of_beq error
  obtain ⟨production, found, _, rhs⟩ := matched
  have listed : errorSymbol ∈ production.rhs := by
    rw [← rhs, ← named]
    exact List.mem_map_of_mem (List.mem_filter.mpr ⟨member, by simpa using structural⟩)
  obtain ⟨origin, stored, _, symbols⟩ := represents.production_of_stored found
  exact represents.ne_error (represents.numbered.rhs_range origin (Array.mem_of_getElem? stored)
    errorSymbol.toNat (symbols ▸ List.mem_map_of_mem listed)).2 rfl

/-- What was made and follows the productions is regular. -/
theorem everywhere_regular {grammar : FlatGrammar}
    (represents : language.tables.Represents grammar) {subtree : Subtree}
    (made : subtree.Everywhere Made) (follows : subtree.FollowsProductions language) :
    subtree.Everywhere Regular := by
  intro part offset lies
  have partMade := made.part lies
  have partFollows := lies.followsProductions follows
  cases part with
  | leaf token => trivial
  | node head children =>
      obtain ⟨here, below⟩ := everywhere_node.mp partMade
      refine here.imp_right fun ⟨structural, built⟩ => ⟨structural, fun child member => ?_⟩
      obtain ⟨id, production⟩ := Option.isSome_iff_exists.mp built
      exact isExtra_of_isError represents (partFollows.1 id production) member
        (below child member).here

end Subtree

open ParseState in
/-- The nodes of the tree of a parse without an old tree are the root and the parts of the tree
that are shown, leaves included, each once and in the order of the text. Each node lists the
topmost parts below it that are shown; they lie within it, one behind the other, and have the
innermost field on the way to them, extras and errors none. -/
theorem view_of_fresh_parse {source : Grammar} {scanner : Scanner} {grammar : FlatGrammar}
    {language : Language} (flattened : FlatGrammar.ofGrammar source = .ok grammar)
    (loaded : Language.ofGrammar source scanner = .ok language)
    (numbered : language.tables.Numbered) {config : ParseConfig} {text : String} {number : Nat}
    {tree : Tree} {stats : ParseStats}
    (parsed : (Parser.mk config (some ⟨number, language⟩)).parse text none = .ok (tree, stats)) :
    language.Portrays tree.root tree.rootNode := by
  have represents := Language.represents_of_ofGrammar loaded flattened numbered
  have knowsNoError := Language.knowsNoError_of_ofGrammar represents loaded
  obtain ⟨root, ran, rfl⟩ := Parser.parse_ok parsed
  obtain ⟨last, reaches, stepped⟩ := exists_last_of_runParse ran
  have follows := reaches.followsProductions represents rfl rfl stepped
  have made := (KeepsErrors.of_reaches knowsNoError rfl reaches).done knowsNoError stepped
  obtain ⟨head, children, rfl⟩ := exists_node_of_done stepped
  rw [Tree.rootNode, Language.topNodeByVisit_eq]
  refine language.portrays_topNode _ (fun child member => ?_) ?_
  · exact Subtree.everywhere_regular represents (made child member)
      (Subtree.allFollowProductions_iff.mp follows.2 child member)
  · cases production : head.production with
    | none => exact .inl production
    | some id =>
        exact .inr fun child member => Subtree.isExtra_of_isError represents
          (follows.1 id production) member (made child member).here

/-- The grammar of a hidden pair, which has a field, and an `x` behind it. -/
def hiddenPairGrammar : Grammar :=
  ⟨{ name := "hiddenPair"
     rules :=
      [("start", .seq [.field "pair" (.symbol "_pair"), .literal "x"]),
        ("_pair", .seq [.literal "a", .literal "b"])] }, by decide⟩

set_option maxRecDepth 10000 in
/-- In `a?b x` both tokens of the hidden pair have its field, and the error between them has
none. -/
theorem view_of_hidden_pair :
    ∃ grammar language tree stats, FlatGrammar.ofGrammar hiddenPairGrammar = .ok grammar ∧
      Language.ofGrammar hiddenPairGrammar .noExternals = .ok language ∧
      language.tables.Numbered ∧
      (Parser.mk {} (some ⟨0, language⟩)).parse "a?b x" none = .ok (tree, stats) ∧
      tree.rootNode.children.map (fun node => (node.info.kind, node.info.field)) =
        [("a", some "pair"), ("ERROR", none), ("b", some "pair"), ("x", none)] ∧
      language.Portrays tree.root tree.rootNode := by
  have shown : ((Language.ofGrammar hiddenPairGrammar .noExternals).toOption.bind fun language =>
      ((Parser.mk {} (some ⟨0, language⟩)).parse "a?b x" none).toOption.map fun result =>
        (result.1.rootNode.children.map (fun node => (node.info.kind, node.info.field)),
          language.tables.lexModes.size, language.tables.productions.size)) =
      some ([("a", some "pair"), ("ERROR", none), ("b", some "pair"), ("x", none)], 6, 2) := by
    cbv
  cases loaded : Language.ofGrammar hiddenPairGrammar .noExternals with
  | error failure => simp [loaded, Except.toOption] at shown
  | ok language =>
      simp only [loaded, Except.toOption, Option.bind_some] at shown
      cases parsed : (Parser.mk {} (some ⟨0, language⟩)).parse "a?b x" none with
      | error failure => simp [parsed] at shown
      | ok result =>
          obtain ⟨tree, stats⟩ := result
          simp only [parsed, Option.map_some, Option.some.injEq, Prod.mk.injEq] at shown
          obtain ⟨fields, modes, productions⟩ := shown
          obtain ⟨grammar, flattened, _⟩ :=
            LanguageTables.generate_ok (Language.ofGrammar_ok loaded).1
          have numbered : language.tables.Numbered :=
            ⟨by simp [modes, UInt32.size], by simp [productions, UInt32.size]⟩
          exact ⟨grammar, language, tree, stats, flattened, rfl, numbered, parsed, fields,
            view_of_fresh_parse flattened loaded numbered parsed⟩

end Lalr
