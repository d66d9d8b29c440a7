import Lalr.Parser.Document
import Lalr.Proofs.FlatGrammar.Derivation
import Lalr.Proofs.Parser.Leaves
import Lalr.Proofs.Parser.Result

set_option autoImplicit false

/-!
Sentences. A tree of terminals and productions spells a word that its symbol derives. A parse
that raises no error flag returns such a tree of the start symbol, unless the text ends at
once where it must not.
-/

namespace Lalr

namespace Subtree

mutual

/-- The symbols of the tokens of a tree, those of extras left out. -/
def sentence : Subtree → List SymbolId
  | .leaf token => [token.symbol]
  | .node _ children => sentenceOf children

/-- The symbols of the tokens of several subtrees, those of extras left out. -/
def sentenceOf : List Subtree → List SymbolId
  | [] => []
  | child :: children => (if child.isExtra then [] else child.sentence) ++ sentenceOf children

end

variable {language : Language} {grammar : FlatGrammar}

mutual

/-- A tree of terminals and productions spells what its symbol yields. -/
theorem yields_of_isDerivation (represents : language.tables.Represents grammar)
    (subtree : Subtree) (derivation : subtree.IsDerivation language) :
    grammar.Yields [subtree.symbol.toNat] (subtree.sentence.map UInt16.toNat) := by
  cases subtree with
  | leaf token =>
      simp only [IsDerivation, represents.isTerminal_eq] at derivation
      exact .terminal derivation .nil
  | node head children =>
      simp only [IsDerivation] at derivation
      obtain ⟨⟨id, _, info, known, lhs, symbols⟩, derivations⟩ := derivation
      obtain ⟨production, found, sameLhs, sameRhs⟩ := represents.production_of_stored known
      have inner := yieldsOf_of_allDerivations represents children derivations
      rw [symbols, sameRhs] at inner
      simp only [symbol, sentence, ← lhs, sameLhs]
      have whole := FlatGrammar.Yields.production (Array.mem_of_getElem? found) inner .nil
      rwa [List.append_nil] at whole

/-- Several trees spell what their symbols yield. -/
theorem yieldsOf_of_allDerivations (represents : language.tables.Represents grammar)
    (children : List Subtree) (derivations : AllDerivations language children) :
    grammar.Yields ((structuralSymbols children).map UInt16.toNat)
      ((sentenceOf children).map UInt16.toNat) := by
  cases children with
  | nil => exact .nil
  | cons child children =>
      simp only [AllDerivations] at derivations
      have rest := yieldsOf_of_allDerivations represents children derivations.2
      cases extra : child.isExtra with
      | true => simpa [structuralSymbols, sentenceOf, extra] using rest
      | false =>
          have derivation : child.IsDerivation language := by simpa [extra] using derivations.1
          have first := yields_of_isDerivation represents child derivation
          simpa [structuralSymbols, sentenceOf, extra] using first.append rest

end

end Subtree

/-! ## The end of the input -/

namespace ParseState

variable {language : Language} {grammar : FlatGrammar} {input : ParseInput} {state : ParseState}

/-- The text holds nothing but blank space and extras, and the first state has neither an
action for the end of the input nor a token to put in before it. -/
def RefusesEnd (input : ParseInput) : Prop :=
  ∃ token after, (initial input.text).current input = .ok (token, after) ∧
    token.raw = endSymbol ∧ input.language.action 0 endSymbol = .error ∧
    after.insertion? input { token with symbol := some endSymbol } = none

/-- A token read at the start of the text, if it is the end of the input, is known as such. -/
theorem symbolOf_end (knowsNoEnd : input.language.lexer.KnowsNoEnd) {token : Lexeme}
    {after : ParseState} (taken : (initial input.text).current input = .ok (token, after))
    (atEnd : token.raw = endSymbol) :
    (initial input.text).symbolOf input token = endSymbol ∧ after.stack = [] := by
  obtain ⟨⟨lexed, cursor⟩, lexing, rest⟩ := exists_of_bind_eq_ok taken
  obtain ⟨rfl, rfl⟩ := Prod.mk.inj (Except.ok.inj rest)
  have read := readFrom_of_lex knowsNoEnd lexing
  refine ⟨?_, rfl⟩
  rw [symbolOf, read.symbol]
  exact (read.wellKept.resolveSymbol_eq_end_iff knowsNoEnd _).mpr atEnd

/-- With nothing on the stack recovery has nothing to wrap at the end of the input. -/
theorem recover_at_end {token : Lexeme} (atEnd : token.raw = endSymbol) (empty : state.stack = [])
    (noInsertion : state.insertion? input token = none) :
    state.recover input token =
      .ok (.done (.root input.language.startSymbol none (token.extras.map .leaf)) state.stats) := by
  have unskipped : state.skipTokens input token = .ok (false, state) := by
    simp [skipTokens, atEnd, pure, Except.pure]
  have unpopped : state.popEntries input token = (false, state) := by
    simp [popEntries, popDepth?, structuralStates, empty]
  have wrapped : state.wrapAll input token =
      .root input.language.startSymbol none (token.extras.map .leaf) := by
    simp [wrapAll, empty]
  rw [recover_eq, noInsertion, ← wrapped]
  simp [unskipped, unpopped, atEnd, bind, Except.bind, pure, Except.pure]

/-- Where the end of the input is refused, the first step is the last. -/
theorem step_of_refusesEnd (knowsNoEnd : input.language.lexer.KnowsNoEnd)
    (refuses : RefusesEnd input) :
    ∃ children stats, (initial input.text).step input =
      .ok (.done (.root input.language.startSymbol none children) stats) := by
  obtain ⟨token, after, taken, atEnd, action, noInsertion⟩ := refuses
  obtain ⟨symbol, empty⟩ := symbolOf_end knowsNoEnd taken atEnd
  have top : (initial input.text).topState = 0 := rfl
  refine ⟨token.extras.map .leaf, after.stats, ?_⟩
  rw [step_eq, taken]
  simp only [bind, Except.bind, symbol, top, act, action]
  have named : ({ token with symbol := some endSymbol } : Lexeme).raw = endSymbol := atEnd
  exact recover_at_end named empty noInsertion

/-! ## Parses that have begun -/

/-- After the first step something is on the stack, or a missing token waits to be dealt
with, which is never the end of the input. -/
def Begun (state : ParseState) : Prop :=
  state.stack ≠ [] ∨ ∃ token, state.lookahead = some token ∧ token.raw ≠ endSymbol

theorem pushAll_ne_nil (next : StateId) (subtrees : List Subtree) (kept : state.stack ≠ []) :
    (state.pushAll next subtrees).stack ≠ [] := by
  induction subtrees generalizing state with
  | nil => exact kept
  | cons subtree subtrees hypothesis => exact hypothesis (List.cons_ne_nil _ _)

/-- A missing token is a terminal other than the end of the input. -/
theorem insertion?_bounds {token : Lexeme} {symbol : SymbolId}
    (few : input.language.tables.terminalCount.toNat ≤ 65535)
    (found : state.insertion? input token = some symbol) :
    0 < symbol.toNat ∧ symbol.toNat < input.language.tables.terminalCount.toNat := by
  obtain ⟨place, member, rfl⟩ := List.mem_map.mp (insertion?_eq_some found).1
  obtain ⟨index, inside, same⟩ := List.getElem_of_mem member
  simp only [List.getElem_drop, List.getElem_range] at same
  simp only [List.length_drop, List.length_range] at inside
  rw [UInt16.toNat_ofNat_of_lt' (by simp only [UInt16.size]; omega)]
  omega

theorem missingSymbol?_ne_end {token : Lexeme} {symbol : SymbolId}
    (few : input.language.tables.terminalCount.toNat ≤ 65535)
    (found : state.insertion? input token = some symbol) : symbol ≠ endSymbol := by
  rintro rfl
  exact absurd (insertion?_bounds few found).1 (Nat.lt_irrefl 0)

theorem begun_of_step (few : input.language.tables.terminalCount.toNat ≤ 65535)
    (fresh : input.reuse = []) {after : ParseState}
    (stepped : state.step input = .ok (.next after)) : after.Begun := by
  obtain ⟨token, middle, _, effect⟩ := effect_of_step fresh stepped
  cases effect with
  | shift => exact .inl (List.cons_ne_nil _ _)
  | reduce => exact .inl (pushAll_ne_nil _ _ (List.cons_ne_nil _ _))
  | insert _ inserted => exact .inr ⟨_, rfl, missingSymbol?_ne_end few inserted⟩
  | skip => exact .inl (List.cons_ne_nil _ _)
  | pop _ _ _ depth =>
      simp only [popEntries, depth]
      exact .inl (List.cons_ne_nil _ _)
  | wrap => exact .inl (List.cons_ne_nil _ _)

theorem Reaches.begun (reaches : Reaches input state)
    (few : input.language.tables.terminalCount.toNat ≤ 65535) (fresh : input.reuse = []) :
    state = .initial input.text ∨ state.Begun := by
  cases reaches with
  | initial => exact .inl rfl
  | step _ stepped => exact .inr (begun_of_step few fresh stepped)

/-- What is wrapped at the end of the input raises the error flag, if anything is. -/
theorem containsError_wrapAll {token : Lexeme} (filled : state.stack ≠ []) :
    (state.wrapAll input token).containsError = true := by
  simp [wrapAll, filled, Subtree.root, Subtree.ofError, Subtree.containsError,
    Subtree.anyContainsError]

/-- Where the end of the input is refused at once, no other state is reached. -/
theorem Reaches.eq_initial (reaches : Reaches input state) {root : Subtree} {stats : ParseStats}
    (ended : (ParseState.initial input.text).step input = .ok (.done root stats)) :
    state = .initial input.text := by
  induction reaches with
  | initial => rfl
  | step _ stepped same =>
      rw [same, ended] at stepped
      cases stepped

/-- A parse whose last step wraps an empty stack was refused the end of the input at once. -/
theorem refusesEnd_of_wrapAll (represents : language.tables.Represents grammar)
    (same : input.language = language) (knowsNoEnd : input.language.lexer.KnowsNoEnd)
    (fresh : input.reuse = []) (reaches : Reaches input state) {token : Lexeme}
    {after : ParseState} (taken : state.current input = .ok (token, after))
    (lacks : LacksAction input.language state.topState (state.symbolOf input token))
    (atEnd : token.raw = endSymbol)
    (noInsertion : after.insertion? input
      { token with symbol := some (state.symbolOf input token) } = none)
    (empty : after.stack = []) : RefusesEnd input := by
  subst same
  have few := represents.terminalCount_le
  rcases reaches.begun few fresh with rfl | filled | ⟨waiting, found, notEnd⟩
  · obtain ⟨symbol, _⟩ := symbolOf_end knowsNoEnd taken atEnd
    rw [symbol] at lacks noInsertion
    have terminal : grammar.isTerminal endSymbol.toNat = true := by
      simpa [FlatGrammar.isTerminal, endSymbol] using represents.numbered.terminals_pos
    exact ⟨token, after, taken, atEnd, lacks.eq_error represents terminal, noInsertion⟩
  · have stack := ((reaches.sound represents rfl fresh).current taken).2.2
    exact absurd (stack.symm.trans empty) filled
  · simp only [current, found] at taken
    obtain ⟨rfl, _⟩ := Prod.mk.inj (Except.ok.inj taken)
    exact absurd atEnd notEnd

end ParseState

/-! ## Error flags -/

/-- A tree of the start symbol: its root carries a production of it, and it spells a word of
the language. -/
def Subtree.IsSentence (language : Language) (grammar : FlatGrammar) (root : Subtree) : Prop :=
  (∃ id production, root.production = some id ∧ language.production? id = some production ∧
      production.lhs.toNat = grammar.start) ∧
    root.IsDerivation language ∧ grammar.Generates (root.sentence.map UInt16.toNat)

theorem Subtree.isSentence_of_isDerivation {language : Language} {grammar : FlatGrammar}
    (represents : language.tables.Represents grammar) {root : Subtree}
    (derivation : root.IsDerivation language) (isStart : root.symbol.toNat = grammar.start) :
    root.IsSentence language grammar := by
  refine ⟨?_, derivation, FlatGrammar.generates_iff_yields.mpr ?_⟩
  · cases root with
    | leaf token =>
        simp only [IsDerivation, represents.isTerminal_eq, FlatGrammar.isTerminal,
          decide_eq_true_eq] at derivation
        have range := represents.numbered.start_range.1
        simp only [Subtree.symbol] at isStart
        omega
    | node head children =>
        simp only [IsDerivation] at derivation
        obtain ⟨⟨id, built, production, known, lhs, _⟩, _⟩ := derivation
        exact ⟨id, production, built, known, by rw [lhs]; exact isStart⟩
  · have yields := Subtree.yields_of_isDerivation represents root derivation
    rwa [isStart] at yields

open ParseState

/-- A parse without an old tree that raises no error flag returns a sentence, unless the text
ends at once in a first state that has no action for it: then there is nothing to wrap, and
the root has neither a production nor an error flag. -/
theorem isSentence_iff_of_no_error {source : Grammar} {scanner : Scanner}
    {grammar : FlatGrammar} {language : Language}
    (flattened : FlatGrammar.ofGrammar source = .ok grammar)
    (loaded : Language.ofGrammar source scanner = .ok language)
    (numbered : language.tables.Numbered) {config : ParseConfig} {text : String} {number : Nat}
    {tree : Tree} {stats : ParseStats}
    (parsed : (Parser.mk config (some ⟨number, language⟩)).parse text none = .ok (tree, stats))
    (clean : tree.rootNode.info.hasError = false) :
    tree.root.IsSentence language grammar ↔
      ¬ RefusesEnd ⟨language, text.toList, config, []⟩ := by
  have represents := Language.represents_of_ofGrammar loaded flattened numbered
  have knowsNoEnd := Language.knowsNoEnd_of_ofGrammar loaded
  obtain ⟨root, ran, rfl⟩ := Parser.parse_ok parsed
  obtain ⟨last, reaches, stepped⟩ := exists_last_of_runParse ran
  change root.containsError = false at clean
  constructor
  · rintro ⟨⟨id, production, built, _⟩, _⟩ refuses
    obtain ⟨children, stats, ended⟩ := step_of_refusesEnd knowsNoEnd refuses
    rw [reaches.eq_initial ended, ended] at stepped
    obtain ⟨rfl, _⟩ := ParseStep.done.inj (Except.ok.inj stepped)
    cases built
  · intro accepted
    have sound := reaches.sound represents rfl rfl
    obtain ⟨token, middle, taken, ended⟩ := done_cases stepped
    obtain ⟨onlyExtras, middleSound, stack⟩ := sound.current taken
    rcases ended with ⟨action, rfl⟩ | ⟨lacks, atEnd, noInsertion, rfl⟩
    · have top : middle.topState = last.topState := by simp only [topState, stack]
      rw [← top] at action
      have named : ({ token with
          symbol := some (last.symbolOf ⟨language, text.toList, config, []⟩ token) } :
            Lexeme).OnlyExtras := onlyExtras
      obtain ⟨_, derivation, isStart⟩ := middleSound.accept _ represents named action
      exact Subtree.isSentence_of_isDerivation represents derivation isStart
    · refine absurd ?_ accepted
      refine refusesEnd_of_wrapAll represents rfl knowsNoEnd rfl reaches taken lacks atEnd
        noInsertion ?_
      by_contra filled
      exact absurd clean (by simp [containsError_wrapAll filled])

set_option maxRecDepth 10000 in
theorem isSentence_iff_of_empty_pair :
    ∃ grammar language tree stats, FlatGrammar.ofGrammar pairGrammar = .ok grammar ∧
      Language.ofGrammar pairGrammar .noExternals = .ok language ∧ language.tables.Numbered ∧
      (Parser.mk {} (some ⟨0, language⟩)).parse "" none = .ok (tree, stats) ∧
      tree.rootNode.info.hasError = false ∧
      (tree.root.IsSentence language grammar ↔
        ¬ RefusesEnd ⟨language, "".toList, {}, []⟩) := by
  obtain ⟨grammar, language, flattened, loaded, numbered⟩ := pairGrammar_loads
  have shown : ((Language.ofGrammar pairGrammar .noExternals).toOption.bind fun language =>
      ((Parser.mk {} (some ⟨0, language⟩)).parse "" none).toOption.map fun result =>
        result.1.rootNode.info.hasError) = some false := by cbv
  simp only [loaded, Except.toOption, Option.bind_some] at shown
  cases parsed : (Parser.mk {} (some ⟨0, language⟩)).parse "" none with
  | error failure => simp [parsed] at shown
  | ok result =>
      obtain ⟨tree, stats⟩ := result
      have clean : tree.rootNode.info.hasError = false := by simpa [parsed] using shown
      exact ⟨grammar, language, tree, stats, flattened, loaded, numbered, parsed, clean,
        isSentence_iff_of_no_error flattened loaded numbered parsed clean⟩

end Lalr
