import Lalr.Proofs.Parser.Run

set_option autoImplicit false

/-!
The tree that a parse without an old tree returns. An accepted text has a root built by a
production of the start symbol; otherwise everything on the stack is wrapped.
-/

namespace Lalr

section parsing

variable {config : ParseConfig} {instance_ : LanguageInstance} {text : String} {tree : Tree}
  {stats : ParseStats}

theorem Parser.exists_run_of_parse {old : Option Tree}
    (parsed : (Parser.mk config (some instance_)).parse text old = .ok (tree, stats)) :
    ∃ root, runParse ⟨instance_.language, text.toList, config, reuseIndex instance_ old⟩ =
      .ok (root, stats) ∧ tree = ⟨root, instance_, []⟩ := by
  simp only [Parser.parse] at parsed
  split at parsed
  case h_1 => cases parsed
  case h_2 root found ran =>
      obtain ⟨rfl, rfl⟩ := Prod.mk.inj (Except.ok.inj parsed)
      exact ⟨root, ran, rfl⟩

/-- A parser without an old tree runs with nothing to take over. -/
theorem Parser.parse_ok
    (parsed : (Parser.mk config (some instance_)).parse text none = .ok (tree, stats)) :
    ∃ root, runParse ⟨instance_.language, text.toList, config, []⟩ = .ok (root, stats) ∧
      tree = ⟨root, instance_, []⟩ :=
  Parser.exists_run_of_parse parsed

end parsing

namespace ParseState

variable {language : Language} {grammar : FlatGrammar} {input : ParseInput} {state : ParseState}

/-! ## The last step -/

/-- The children of the root of an accepted text: those of the accepted node, among extras. -/
theorem flatMap_accepted {above below : List StackEntry} {entry : StackEntry}
    (aboveExtras : ∀ other ∈ above, other.isExtra = true)
    (belowExtras : ∀ other ∈ below, other.isExtra = true)
    (isStructural : entry.isExtra = false) :
    (above ++ entry :: below).reverse.flatMap (fun entry =>
      if entry.isExtra then [entry.subtree] else entry.subtree.children) =
        below.reverse.map StackEntry.subtree ++ entry.subtree.children ++
          above.reverse.map StackEntry.subtree := by
  have all : ∀ entries : List StackEntry, (∀ other ∈ entries, other.isExtra = true) →
      entries.flatMap (fun entry =>
        if entry.isExtra then [entry.subtree] else entry.subtree.children) =
          entries.map StackEntry.subtree := by
    intro entries extras
    induction entries with
    | nil => rfl
    | cons other entries hypothesis =>
        simp only [List.flatMap_cons, extras other List.mem_cons_self, if_true, List.map_cons,
          hypothesis fun later inside => extras later (List.mem_cons_of_mem _ inside)]
        rfl
  simp only [List.reverse_append, List.reverse_cons, List.append_assoc, List.flatMap_append,
    List.flatMap_singleton, isStructural]
  rw [all below.reverse fun other inside => belowExtras other (List.mem_reverse.mp inside),
    all above.reverse fun other inside => aboveExtras other (List.mem_reverse.mp inside)]
  simp

/-- An accepted text leaves one entry that is no extra, which is the start symbol. Its
children become those of the root, with extras around them. -/
theorem Sound.accept_shape (sound : state.Sound language grammar) (input : ParseInput)
    (represents : language.tables.Represents grammar) {token : Lexeme}
    (onlyExtras : token.OnlyExtras) {symbol : SymbolId}
    (action : language.action state.topState symbol = .accept) :
    ∃ (subtree : Subtree) (before after : List Subtree),
      subtree.IsDerivation language ∧ subtree.FollowsProductions language ∧
      subtree.symbol.toNat = grammar.start ∧
      (∀ child ∈ before ++ after, child.isExtra = true ∧ child.FollowsProductions language) ∧
      state.accept input token =
        .root subtree.symbol subtree.production (before ++ subtree.children ++ after) := by
  rw [sound.topState_eq] at action
  obtain ⟨entry, alone, isStart⟩ := acceptance_spec represents sound.stack action
  obtain ⟨above, below, shape, aboveExtras, isStructural, belowRest⟩ :=
    List.filter_eq_cons_iff.mp alone
  have aboveAll : ∀ other ∈ above, other.isExtra = true := by simpa using aboveExtras
  have belowAll : ∀ other ∈ below, other.isExtra = true := by simpa using belowRest
  have structuralEntry : entry.isExtra = false := by simpa using isStructural
  have member : entry ∈ state.stack := shape ▸ by simp
  have found : state.stack.find? (fun entry => !entry.isExtra) = some entry := by
    rw [← List.head?_filter]
    exact congrArg List.head? alone
  refine ⟨entry.subtree, below.reverse.map StackEntry.subtree,
    above.reverse.map StackEntry.subtree ++ token.extras.map Subtree.leaf,
    sound.stack.derivations entry member structuralEntry, sound.stack.follow entry member,
    isStart, ?_, ?_⟩
  · intro child inside
    simp only [List.mem_append, List.mem_map, List.mem_reverse] at inside
    rcases inside with ⟨other, listed, rfl⟩ | ⟨other, listed, rfl⟩ | ⟨leaf, listed, rfl⟩
    · exact ⟨belowAll other listed, sound.stack.follow other (shape ▸ by simp [listed])⟩
    · exact ⟨aboveAll other listed, sound.stack.follow other (shape ▸ by simp [listed])⟩
    · exact ⟨onlyExtras leaf listed, Subtree.followsProductions_leaf leaf⟩
  · simp only [ParseState.accept, found]
    rw [shape, flatMap_accepted aboveAll belowAll structuralEntry, List.append_assoc]

/-- The root of an accepted text is a tree of the start symbol. -/
theorem Sound.accept (sound : state.Sound language grammar) (input : ParseInput)
    (represents : language.tables.Represents grammar) {token : Lexeme}
    (onlyExtras : token.OnlyExtras) {symbol : SymbolId}
    (action : language.action state.topState symbol = .accept) :
    (state.accept input token).FollowsProductions language ∧
      (state.accept input token).IsDerivation language ∧
      (state.accept input token).symbol.toNat = grammar.start := by
  obtain ⟨subtree, before, after, derivation, follows, isStart, around, shape⟩ :=
    sound.accept_shape input represents onlyExtras action
  rw [shape]
  cases subtree with
  | leaf leaf =>
      -- The start symbol is no terminal.
      simp only [Subtree.IsDerivation, represents.isTerminal_eq, FlatGrammar.isTerminal,
        decide_eq_true_eq] at derivation
      have range := represents.numbered.start_range.1
      simp only [Subtree.symbol] at isStart
      omega
  | node head children =>
      exact ⟨Subtree.followsProductions_root_of_extras follows fun child inside =>
          around child inside,
        Subtree.isDerivation_root_of_extras derivation fun child inside =>
          (around child inside).1, isStart⟩

/-- What is wrapped follows the productions; the wrapping itself has none. -/
theorem Sound.wrapAll (sound : state.Sound language grammar) {token : Lexeme} :
    (state.wrapAll input token).FollowsProductions language := by
  simp only [ParseState.wrapAll, Subtree.root, Subtree.FollowsProductions]
  refine ⟨by simp, Subtree.allFollowProductions_iff.mpr fun child inside => ?_⟩
  rcases List.mem_append.mp inside with wrapped | extra
  · split at wrapped
    · exact absurd wrapped List.not_mem_nil
    · obtain rfl := List.mem_singleton.mp wrapped
      refine Subtree.followsProductions_ofError fun other listed => ?_
      obtain ⟨entry, member, rfl⟩ := List.mem_map.mp listed
      exact sound.stack.follow entry (List.mem_reverse.mp member)
  · obtain ⟨leaf, _, rfl⟩ := List.mem_map.mp extra
    exact Subtree.followsProductions_leaf leaf

/-- The tree of a parse without an old tree follows the productions, however it ended. -/
theorem Reaches.followsProductions (reaches : Reaches input state)
    (represents : language.tables.Represents grammar) (same : input.language = language)
    (fresh : input.reuse = []) {root : Subtree} {stats : ParseStats}
    (stepped : state.step input = .ok (.done root stats)) :
    root.FollowsProductions language := by
  have sound := reaches.sound represents same fresh
  obtain ⟨token, middle, taken, ended⟩ := done_cases stepped
  obtain ⟨onlyExtras, middleSound, stack⟩ := sound.current taken
  have top : middle.topState = state.topState := by simp only [topState, stack]
  rcases ended with ⟨action, rfl⟩ | ⟨_, _, _, rfl⟩
  · rw [← top, same] at action
    have named : ({ token with symbol := some (state.symbolOf input token) } :
      Lexeme).OnlyExtras := onlyExtras
    exact (middleSound.accept input represents named action).1
  · exact middleSound.wrapAll

/-- A reduction finds on the stack as many entries as its production has symbols, with just
these symbols, and below them a state that leads on over the left-hand side. -/
def CanReduce (language : Language) (state : ParseState) (id : ProductionId) : Prop :=
  ∃ production, language.production? id = some production ∧
    let cut := popStructural [] production.rhs.length (takeTrailing [] state.stack).2
    Subtree.structuralSymbols (cut.1.map StackEntry.subtree) = production.rhs ∧
      (language.goto? ({ state with stack := cut.2 } : ParseState).topState
        production.lhs).isSome = true

/-- A table made for a grammar lacks an action for a terminal only where it has an error. -/
theorem LacksAction.eq_error (represents : language.tables.Represents grammar) {top : StateId}
    {symbol : SymbolId} (lacks : LacksAction language top symbol)
    (terminal : grammar.isTerminal symbol.toNat = true) :
    language.action top symbol = .error := by
  rcases lacks with error | ⟨next, goto⟩ | ⟨id, reduce, unknown⟩
  · exact error
  · have leads : language.tables.goto? top symbol = some next := by
      rw [LanguageTables.goto?, show language.tables.action top symbol = .goto next from goto]
    have nonterminal := (represents.goto?_eq_some_iff.mp leads).1
    exact absurd terminal (by simp [nonterminal])
  · obtain ⟨production, found, _⟩ := represents.hasItem_of_reduce reduce
    obtain ⟨info, stored, _⟩ := represents.exists_production found
    exact absurd (stored.symm.trans unknown) (by simp)

theorem Sound.canReduce (sound : state.Sound language grammar)
    (represents : language.tables.Represents grammar) {symbol : SymbolId} {id : ProductionId}
    (action : language.action state.topState symbol = .reduce id) :
    state.CanReduce language id := by
  rw [sound.topState_eq] at action
  obtain ⟨production, trailing, taken, below, next, known, shape, taking, _, popping, symbols,
    leads⟩ := reduction_spec represents sound.stack action
  have all := sound.stack.onPath
  rw [shape, List.append_assoc] at all
  refine ⟨production, known, ?_⟩
  simp only [taking, popping]
  refine ⟨symbols, ?_⟩
  rw [topState, all.suffix.suffix.top_eq, leads]
  rfl

end ParseState

open ParseState

/-- Throughout a parse without an old tree the stack spells a path of the automaton, so no
reduction lacks an entry or a state to go to, and the tree follows the productions. -/
theorem stack_on_path_of_fresh_parse {source : Grammar} {scanner : Scanner}
    {grammar : FlatGrammar} {language : Language}
    (flattened : FlatGrammar.ofGrammar source = .ok grammar)
    (loaded : Language.ofGrammar source scanner = .ok language)
    (numbered : language.tables.Numbered) (config : ParseConfig) (text : String) :
    (∀ state, Reaches ⟨language, text.toList, config, []⟩ state →
      OnPath grammar.automaton state.stack ∧
        ∀ symbol id, language.action state.topState symbol = .reduce id →
          state.CanReduce language id) ∧
    ∀ number tree stats,
      (Parser.mk config (some ⟨number, language⟩)).parse text none = .ok (tree, stats) →
        tree.root.FollowsProductions language := by
  have represents := Language.represents_of_ofGrammar loaded flattened numbered
  refine ⟨fun state reaches => ?_, fun number tree stats parsed => ?_⟩
  · have sound := reaches.sound represents rfl rfl
    exact ⟨sound.stack.onPath, fun symbol id action => sound.canReduce represents action⟩
  · obtain ⟨root, ran, rfl⟩ := Parser.parse_ok parsed
    obtain ⟨last, reaches, stepped⟩ := exists_last_of_runParse ran
    exact reaches.followsProductions represents rfl rfl stepped

theorem stack_on_path_of_pair :
    ∃ grammar language, FlatGrammar.ofGrammar pairGrammar = .ok grammar ∧
      Language.ofGrammar pairGrammar .noExternals = .ok language ∧ language.tables.Numbered ∧
      (∀ state, Reaches ⟨language, "a b".toList, {}, []⟩ state →
        OnPath grammar.automaton state.stack ∧
          ∀ symbol id, language.action state.topState symbol = .reduce id →
            state.CanReduce language id) ∧
      ∀ number tree stats,
        (Parser.mk {} (some ⟨number, language⟩)).parse "a b" none = .ok (tree, stats) →
          tree.root.FollowsProductions language := by
  obtain ⟨grammar, language, flattened, loaded, numbered⟩ := pairGrammar_loads
  exact ⟨grammar, language, flattened, loaded, numbered,
    stack_on_path_of_fresh_parse flattened loaded numbered {} "a b"⟩

end Lalr
