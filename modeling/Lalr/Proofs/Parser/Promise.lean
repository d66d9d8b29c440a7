import Lalr.Proofs.Parser.Reduction
import Lalr.Proofs.Parser.Sentence

set_option autoImplicit false

/-!
What recovery tries out on a bare stack of states is what the parse does next. Unless it wraps a
token, recovery goes on from a state in which the tokens it reckoned with are accepted one after
the other, after nothing but reductions, and with the stacks it reckoned with.
-/

namespace Lalr

namespace ParseState

variable {input : ParseInput} {grammar : FlatGrammar} {state middle : ParseState}
  {token : Lexeme}

/-! ## What is tried out -/

theorem current_of_lookahead (waits : state.lookahead = some token) :
    state.current input = .ok (token, { state with lookahead := none }) := by
  simp [current, waits, pure, Except.pure]

theorem current_of_pending {pending : List Lexeme} (idle : state.lookahead = none)
    (waits : state.pending = token :: pending) :
    state.current input = .ok (token, { state with pending := pending }) := by
  simp [current, idle, nextLexeme, waits]

theorem Sound.head?_structuralStates (sound : state.Sound input.language grammar) :
    state.structuralStates.head? = some state.topState := by
  rw [sound.topState_eq, ParseState.head?_structuralStates]

theorem structural_pushExtras (onlyExtras : token.OnlyExtras) (next : StateId) :
    structural (state.pushExtras next token).stack = structural state.stack := by
  refine structural_pushAll _ fun subtree member => ?_
  obtain ⟨leaf, listed, rfl⟩ := List.mem_map.mp member
  exact onlyExtras leaf listed

theorem structuralStates_shift (onlyExtras : token.OnlyExtras) (next : StateId)
    (symbol : SymbolId) :
    (state.shift next symbol token).structuralStates = next :: state.structuralStates := by
  have kept : structural (state.pushExtras state.topState token).stack = structural state.stack :=
    structural_pushExtras onlyExtras _
  rw [structuralStates_eq, structuralStates_eq, ← kept]
  rfl

theorem structuralStates_skipTo (state : ParseState) (onlyExtras : token.OnlyExtras) (skipped : List Lexeme)
    (next : Lexeme) (pending : List Lexeme) :
    (state.skipTo token skipped next pending).structuralStates = state.structuralStates := by
  have kept : structural (state.pushExtras state.topState token).stack = structural state.stack :=
    structural_pushExtras onlyExtras _
  rw [structuralStates_eq, structuralStates_eq, ← kept]
  rfl

theorem structuralStates_popEntries {depth : Nat}
    (found : state.popDepth? input token = some depth) :
    (state.popEntries input token).2.structuralStates = state.structuralStates.drop depth := by
  obtain ⟨taken, below, shape, popping, counted⟩ := popStructural_spec [] depth state.stack
  have inside := (popDepth?_bounds found).2
  have whole : state.structuralStates = (structural taken).map StackEntry.state ++
      ((structural below).map StackEntry.state ++ [0]) := by
    rw [structuralStates_eq, shape, structural_append, List.map_append, List.append_assoc]
  have length : ((structural taken).map StackEntry.state).length = depth := by
    rw [List.length_map, counted inside]
  rw [whole, ← length, List.drop_left]
  simp only [popEntries, found, popping]
  rfl

theorem bridges_of_insertion? {missing : SymbolId}
    (inserted : state.insertion? input token = some missing) :
    ∃ between, simulate input.language state.structuralStates missing = some between ∧
      (simulate input.language between
        (resolveSymbol input.language (between.head?.getD 0) token)).isSome = true := by
  have bridged := (insertion?_eq_some inserted).2
  unfold bridges at bridged
  split at bridged
  case h_1 => cases bridged
  case h_2 between accepted => exact ⟨between, accepted, bridged⟩

theorem accepted_of_popDepth? {depth : Nat} (found : state.popDepth? input token = some depth) :
    (simulate input.language (state.structuralStates.drop depth)
      (resolveSymbol input.language ((state.structuralStates.drop depth).head?.getD 0)
        token)).isSome = true := by
  unfold popDepth? at found
  have accepted := List.find?_some found
  exact accepted

/-- An automaton that is tried out goes through the same reductions as a parse. -/
theorem simulateFrom_of_reducesTo {language : Language} {symbol : SymbolId} {limit : Nat}
    {before after : List StateId} (reduces : language.ReducesTo symbol before after) :
    simulateFrom language symbol (limit + 1) before = simulateFrom language symbol limit after := by
  obtain ⟨top, below, id, production, under, rest, next, rfl, action, known, dropped, leads,
    rfl⟩ := reduces
  simp only [simulateFrom, action, known, dropped, leads]

theorem simulateFrom_eq_none_of_lacks {language : Language} {symbol : SymbolId} {limit : Nat}
    {top : StateId} {below : List StateId} (lacks : LacksAction language top symbol) :
    simulateFrom language symbol limit (top :: below) = none := by
  cases limit with
  | zero => rfl
  | succ limit =>
      rcases lacks with action | ⟨next, action⟩ | ⟨id, action, unknown⟩
      · simp only [simulateFrom, action]
      · simp only [simulateFrom, action]
      · simp only [simulateFrom, action, unknown]


/-! ## Steps for an action -/

theorem step_of_shift (fresh : input.reuse = []) {next : StateId}
    (taken : state.current input = .ok (token, middle))
    (action : input.language.action state.topState (state.symbolOf input token) = .shift next) :
    state.step input = .ok (.next (middle.shift next (state.symbolOf input token)
      { token with symbol := some (state.symbolOf input token) })) := by
  rw [step_eq, taken]
  simp only [bind, Except.bind, act, action, reuse?_eq_none fresh]
  rfl

theorem step_of_reduce {id : ProductionId} {production : ProductionInfo}
    (taken : state.current input = .ok (token, middle))
    (action : input.language.action state.topState (state.symbolOf input token) = .reduce id)
    (found : input.language.production? id = some production) :
    state.step input = .ok (.next
      { middle.reduce input id production
          { token with symbol := some (state.symbolOf input token) } with
        lookahead := some { token with symbol := some (state.symbolOf input token) } }) := by
  rw [step_eq, taken]
  simp only [bind, Except.bind, act, action, found]
  rfl

theorem step_of_accept (taken : state.current input = .ok (token, middle))
    (action : input.language.action state.topState (state.symbolOf input token) = .accept) :
    state.step input = .ok (.done
      (middle.accept input { token with symbol := some (state.symbolOf input token) })
      middle.stats) := by
  rw [step_eq, taken]
  simp only [bind, Except.bind, act, action]
  rfl

/-- Where a token has no action, the step of the parse is what recovery makes of it. -/
theorem step_of_lacks (taken : state.current input = .ok (token, middle))
    (lacks : LacksAction input.language state.topState (state.symbolOf input token)) :
    state.step input =
      middle.recover input { token with symbol := some (state.symbolOf input token) } := by
  rw [step_eq, taken]
  rcases lacks with action | ⟨next, action⟩ | ⟨id, action, unknown⟩
  · simp only [bind, Except.bind, act, action]
  · simp only [bind, Except.bind, act, action]
  · simp only [bind, Except.bind, act, action, unknown]

/-! ## Accepting a token -/

/-- The parse accepts a token from a state on: it reduces until it shifts the token or ends with
it, and is then on a stack of states. Recovery has no part in it. -/
inductive Consumes (input : ParseInput) (token : Lexeme) :
    ParseState → ParseStep → List StateId → Prop where
  | shift {state middle after : ParseState} {held : Lexeme} {next : StateId} :
      state.current input = .ok (held, middle) →
      { held with symbol := none } = { token with symbol := none } →
      input.language.action state.topState (state.symbolOf input held) = .shift next →
      state.step input = .ok (.next after) →
      Consumes input token state (.next after) after.structuralStates
  | accept {state middle : ParseState} {held : Lexeme} {root : Subtree} {stats : ParseStats} :
      state.current input = .ok (held, middle) →
      { held with symbol := none } = { token with symbol := none } →
      input.language.action state.topState (state.symbolOf input held) = .accept →
      state.step input = .ok (.done root stats) →
      Consumes input token state (.done root stats) state.structuralStates
  | reduce {state middle after : ParseState} {held : Lexeme} {id : ProductionId}
      {production : ProductionInfo} {outcome : ParseStep} {states : List StateId} :
      state.current input = .ok (held, middle) →
      input.language.action state.topState (state.symbolOf input held) = .reduce id →
      input.language.production? id = some production →
      state.step input = .ok (.next after) →
      Consumes input token after outcome states → Consumes input token state outcome states

/-- The parse accepts some tokens one after the other from a state on, each with its stack of
states. -/
inductive Keeps (input : ParseInput) : ParseState → List (Lexeme × List StateId) → Prop where
  | nil (state : ParseState) : Keeps input state []
  | last {state : ParseState} {token : Lexeme} {root : Subtree} {stats : ParseStats}
      {states : List StateId} : Consumes input token state (.done root stats) states →
      Keeps input state [(token, states)]
  | cons {state after : ParseState} {token : Lexeme} {states : List StateId}
      {promises : List (Lexeme × List StateId)} :
      Consumes input token state (.next after) states → Keeps input after promises →
      Keeps input state ((token, states) :: promises)

/-- What recovery reckons with when it goes on from a token without an action: the tokens that
are accepted then, each with the stack of states that it tried out. -/
inductive Promises (input : ParseInput) (state : ParseState) (token : Lexeme) :
    ParseState → List (Lexeme × List StateId) → Prop where
  | insert {missing : SymbolId} {between final : List StateId} :
      state.insertion? input token = some missing →
      simulate input.language state.structuralStates missing = some between →
      simulate input.language between
        (resolveSymbol input.language (between.head?.getD 0) token) = some final →
      Promises input state token (state.insertMissing input missing token)
        [(.ofMissing missing token.start (input.language.lexMode state.topState), between),
          (token, final)]
  | skip {later : ParseState} {skipped pending : List Lexeme} {next : Lexeme}
      {final : List StateId} :
      state.findAcceptable input input.config.maxSkipTokens 0 =
        .ok (some (skipped.length + 1), later) →
      later.pending = skipped ++ next :: pending →
      simulate input.language later.structuralStates
        (resolveSymbol input.language later.topState next) = some final →
      Promises input state token (later.skipTo token skipped next pending) [(next, final)]
  | pop {later : ParseState} {depth : Nat} {final : List StateId} :
      SearchedInVain input state token later → later.popDepth? input token = some depth →
      simulate input.language (later.structuralStates.drop depth)
        (resolveSymbol input.language ((later.structuralStates.drop depth).head?.getD 0)
          token) = some final →
      Promises input state token (later.popEntries input token).2 [(token, final)]

namespace Consumes

variable {after : ParseState} {states : List StateId}

theorem reaches (consumes : Consumes input token state (.next after) states)
    (reached : Reaches input state) : Reaches input after := by
  generalize shape : ParseStep.next after = outcome at consumes
  induction consumes with
  | shift _ _ _ stepped =>
      obtain rfl := ParseStep.next.inj shape
      exact reached.step stepped
  | accept => cases shape
  | reduce _ _ _ stepped _ ih => exact ih (reached.step stepped) shape

theorem structuralStates_eq (consumes : Consumes input token state (.next after) states) :
    after.structuralStates = states := by
  generalize shape : ParseStep.next after = outcome at consumes
  induction consumes with
  | shift =>
      obtain rfl := ParseStep.next.inj shape
      rfl
  | accept => cases shape
  | reduce _ _ _ _ _ ih => exact ih shape

/-- Nothing is read on the way, and nothing that waits is taken. -/
theorem frame (consumes : Consumes input token state (.next after) states)
    (fresh : input.reuse = []) {held : Lexeme}
    (taken : state.current input = .ok (held, middle)) :
    after.lookahead = none ∧ after.pending = middle.pending ∧ after.cursor = middle.cursor := by
  generalize shape : ParseStep.next after = outcome at consumes
  induction consumes generalizing held middle with
  | @shift state other last known next same _ action stepped =>
      obtain ⟨rfl, rfl⟩ := Prod.mk.inj (Except.ok.inj (taken.symm.trans same))
      rw [step_of_shift fresh taken action] at stepped
      obtain rfl := ParseStep.next.inj (Except.ok.inj stepped)
      obtain rfl := ParseStep.next.inj shape
      have pushed : middle.SameBut (middle.shift next (state.symbolOf input held)
        { held with symbol := some (state.symbolOf input held) }) := sameBut_push_token ..
      exact ⟨pushed.lookahead.trans (current_ok taken).2.1, pushed.pending, pushed.cursor⟩
  | accept => cases shape
  | @reduce state other last known id production _ _ same action found stepped _ ih =>
      obtain ⟨rfl, rfl⟩ := Prod.mk.inj (Except.ok.inj (taken.symm.trans same))
      rw [step_of_reduce taken action found] at stepped
      obtain rfl := ParseStep.next.inj (Except.ok.inj stepped)
      have reduced := middle.sameBut_reduce input id production
        { held with symbol := some (state.symbolOf input held) }
      obtain ⟨idle, pending, cursor⟩ := ih (current_of_lookahead rfl) shape
      exact ⟨idle, pending.trans reduced.pending, cursor.trans reduced.cursor⟩

/-- A token other than the end of the input is shifted. -/
theorem exists_next {outcome : ParseStep} (consumes : Consumes input token state outcome states)
    (represents : input.language.tables.Represents grammar) {held : Lexeme}
    (taken : state.current input = .ok (held, middle))
    (ordinary : state.symbolOf input held ≠ endSymbol) : ∃ after, outcome = .next after := by
  induction consumes generalizing held middle with
  | shift => exact ⟨_, rfl⟩
  | accept same _ action =>
      obtain ⟨rfl, rfl⟩ := Prod.mk.inj (Except.ok.inj (taken.symm.trans same))
      exact absurd (represents.eq_end_of_accept action) ordinary
  | reduce same action found stepped _ ih =>
      obtain ⟨rfl, rfl⟩ := Prod.mk.inj (Except.ok.inj (taken.symm.trans same))
      rw [step_of_reduce taken action found] at stepped
      obtain rfl := ParseStep.next.inj (Except.ok.inj stepped)
      exact ih (current_of_lookahead rfl) ordinary

end Consumes

section running

variable (represents : input.language.tables.Represents grammar) (fresh : input.reuse = [])

include represents fresh

/-- Where the automaton was seen to accept the token at hand, the parse accepts it, and its
stack of states is then the one that was seen. -/
theorem consumes_of_simulateFrom (token : Lexeme) {limit : Nat} {final : List StateId}
    {held : Lexeme} (reaches : Reaches input state) (taken : state.current input = .ok (held, middle))
    (same : { held with symbol := none } = { token with symbol := none })
    (simulated : simulateFrom input.language (state.symbolOf input held) limit
      state.structuralStates = some final) :
    ∃ outcome, Consumes input token state outcome final := by
  induction limit generalizing state held middle with
  | zero => cases simulated
  | succ limit ih =>
      have sound := reaches.sound represents rfl fresh
      obtain ⟨onlyExtras, middleSound, stack⟩ := sound.current taken
      have top : middle.topState = state.topState := by simp only [topState, stack]
      have states : middle.structuralStates = state.structuralStates := by
        simp only [ParseState.structuralStates_eq, stack]
      obtain ⟨below, whole⟩ := List.head?_eq_some_iff.mp sound.head?_structuralStates
      cases action : input.language.action state.topState (state.symbolOf input held) with
      | shift next =>
          rw [whole] at simulated
          simp only [simulateFrom, action] at simulated
          obtain rfl := Option.some.inj simulated
          have shifted := Consumes.shift taken same action (step_of_shift fresh taken action)
          rw [structuralStates_shift (by exact onlyExtras), states, whole] at shifted
          exact ⟨_, shifted⟩
      | accept =>
          rw [whole] at simulated
          simp only [simulateFrom, action] at simulated
          obtain rfl := Option.some.inj simulated
          rw [← whole]
          exact ⟨_, .accept taken same action (step_of_accept taken action)⟩
      | reduce id =>
          cases found : input.language.production? id with
          | none =>
              rw [whole, simulateFrom_eq_none_of_lacks (.inr (.inr ⟨id, action, found⟩))]
                at simulated
              cases simulated
          | some production =>
              have reduces := middleSound.reducesTo represents (top ▸ action) found
                { held with symbol := some (state.symbolOf input held) }
              rw [states] at reduces
              rw [simulateFrom_of_reducesTo reduces] at simulated
              have stepped := step_of_reduce taken action found
              obtain ⟨outcome, consumes⟩ :=
                ih (reaches.step stepped) (current_of_lookahead rfl) same simulated
              exact ⟨outcome, .reduce taken action found stepped consumes⟩
      | error =>
          rw [whole, simulateFrom_eq_none_of_lacks (.inl action)] at simulated
          cases simulated
      | goto next =>
          rw [whole, simulateFrom_eq_none_of_lacks (.inr (.inl ⟨next, action⟩))] at simulated
          cases simulated

theorem keeps_of_insertMissing {missing : SymbolId} {between final : List StateId}
    (reaches : Reaches input (state.insertMissing input missing token))
    (inserted : state.insertion? input token = some missing)
    (bridged : simulate input.language state.structuralStates missing = some between)
    (accepted : simulate input.language between
      (resolveSymbol input.language (between.head?.getD 0) token) = some final) :
    Keeps input (state.insertMissing input missing token)
      [(.ofMissing missing token.start (input.language.lexMode state.topState), between),
        (token, final)] := by
  have first : (state.insertMissing input missing token).current input = .ok _ :=
    current_of_lookahead rfl
  obtain ⟨outcome, consumes⟩ :=
    consumes_of_simulateFrom represents fresh _ reaches first rfl bridged
  -- a missing token is never the end of the input, so the parse goes on behind it
  obtain ⟨second, rfl⟩ := consumes.exists_next represents first
    (missingSymbol?_ne_end represents.terminalCount_le inserted)
  obtain ⟨idle, pending, _⟩ := consumes.frame fresh first
  have reached := consumes.reaches reaches
  have states := consumes.structuralStates_eq
  have taken : second.current input = .ok _ := current_of_pending idle pending
  have head := (reached.sound represents rfl fresh).head?_structuralStates
  rw [states] at head
  have stands : second.symbolOf input { token with symbol := none } =
      resolveSymbol input.language (between.head?.getD 0) token := by
    rw [head]
    rfl
  unfold simulate at accepted
  rw [← stands, ← states] at accepted
  obtain ⟨last, behind⟩ :=
    consumes_of_simulateFrom represents fresh token reached taken rfl accepted
  cases last with
  | next third => exact .cons consumes (.cons behind (.nil third))
  | done root stats => exact .cons consumes (.last behind)

theorem keeps_single {final : List StateId} (reaches : Reaches input state)
    (waits : state.lookahead = some { token with symbol := none })
    (accepted : simulate input.language state.structuralStates
      (resolveSymbol input.language (state.structuralStates.head?.getD 0) token) = some final) :
    Keeps input state [(token, final)] := by
  have head := (reaches.sound represents rfl fresh).head?_structuralStates
  have stands : state.symbolOf input { token with symbol := none } =
      resolveSymbol input.language (state.structuralStates.head?.getD 0) token := by
    rw [head]
    rfl
  rw [← stands] at accepted
  obtain ⟨last, consumes⟩ := consumes_of_simulateFrom represents fresh token reaches
    (current_of_lookahead waits) rfl accepted
  cases last with
  | next after => exact .cons consumes (.nil after)
  | done root stats => exact .last consumes

/-- What recovery reckons with comes about. -/
theorem Promises.keeps {after : ParseState} {promises : List (Lexeme × List StateId)}
    (promised : Promises input state token after promises) (onlyExtras : token.OnlyExtras)
    (reaches : Reaches input after) : Keeps input after promises := by
  have head := (reaches.sound represents rfl fresh).head?_structuralStates
  cases promised with
  | insert inserted bridged accepted =>
      exact keeps_of_insertMissing represents fresh reaches inserted bridged accepted
  | @skip later skipped pending next final _ _ accepted =>
      have states := later.structuralStates_skipTo onlyExtras skipped next pending
      refine keeps_single represents fresh reaches rfl ?_
      rw [head, states]
      exact accepted
  | @pop later depth final _ found accepted =>
      have waits : (later.popEntries input token).2.lookahead =
          some { token with symbol := none } := by
        simp [popEntries, found]
      refine keeps_single represents fresh reaches waits ?_
      rw [structuralStates_popEntries found]
      exact accepted

end running

/-- Recovery goes on with something that it reckoned with, unless nothing is left to it but to
wrap the token. -/
theorem promises_of_recover {after : ParseState} {top : StateId} {symbol : SymbolId}
    (lacks : LacksAction input.language top symbol)
    (recovered : state.recover input token = .ok (.next after)) :
    (∃ promises, Promises input state token after promises) ∨
      (state.insertion? input token = none ∧ ∃ later, SearchedInVain input state token later ∧
        later.popDepth? input token = none ∧ after = later.wrapToken token) := by
  have effect := effect_of_recover lacks recovered
  cases effect with
  | shift action =>
      rcases lacks with other | ⟨_, other⟩ | ⟨_, other, _⟩ <;> cases action.symm.trans other
  | reduce action found =>
      rcases lacks with other | ⟨_, other⟩ | ⟨_, other, unknown⟩
      · cases action.symm.trans other
      · cases action.symm.trans other
      · cases action.symm.trans other
        cases found.symm.trans unknown
  | insert _ inserted =>
      obtain ⟨between, bridged, accepted⟩ := bridges_of_insertion? inserted
      obtain ⟨final, accepted⟩ := Option.isSome_iff_exists.mp accepted
      exact .inl ⟨_, .insert inserted bridged accepted⟩
  | skip _ _ _ _ searched whole accepted =>
      obtain ⟨final, accepted⟩ := Option.isSome_iff_exists.mp accepted
      exact .inl ⟨_, .skip searched whole accepted⟩
  | pop _ _ inVain found =>
      obtain ⟨final, accepted⟩ := Option.isSome_iff_exists.mp (accepted_of_popDepth? found)
      exact .inl ⟨_, .pop inVain found accepted⟩
  | wrap _ notInserted inVain noDepth =>
      exact .inr ⟨notInserted, _, inVain, noDepth, rfl⟩

end ParseState

open ParseState

/-- Whenever recovery goes on in a parse without an old tree, and does not merely wrap the token,
the parse accepts what recovery reckoned with: a missing token and then the token at hand, the
token behind those that were skipped, or the token at hand. Each is accepted after nothing but
reductions, so that recovery is not called again before, and the stack of states is then the one
that was tried out. -/
theorem recovery_keeps_promises {source : Grammar} {scanner : Scanner}
    {grammar : FlatGrammar} {language : Language}
    (flattened : FlatGrammar.ofGrammar source = .ok grammar)
    (loaded : Language.ofGrammar source scanner = .ok language)
    (numbered : language.tables.Numbered) {config : ParseConfig} {text : String}
    {input : ParseInput} (parsing : input = ⟨language, text.toList, config, []⟩)
    {state middle after : ParseState} {token known : Lexeme} (reaches : Reaches input state)
    (taken : state.current input = .ok (token, middle))
    (lacks : LacksAction language state.topState (state.symbolOf input token))
    (named : known = { token with symbol := some (state.symbolOf input token) })
    (recovered : middle.recover input known = .ok (.next after)) :
    state.step input = .ok (.next after) ∧
      ((∃ promises, Promises input middle known after promises ∧ Keeps input after promises) ∨
        ∃ later, SearchedInVain input middle known later ∧
          later.popDepth? input known = none ∧ after = later.wrapToken known) := by
  subst parsing named
  have represents := Language.represents_of_ofGrammar loaded flattened numbered
  have stepped := (step_of_lacks taken lacks).trans recovered
  have onlyExtras := ((reaches.sound represents rfl rfl).current taken).1
  refine ⟨stepped, ?_⟩
  rcases promises_of_recover lacks recovered with ⟨promises, promised⟩ | ⟨_, wrapped⟩
  · exact .inl ⟨promises, promised,
      promised.keeps represents rfl onlyExtras (reaches.step stepped)⟩
  · exact .inr wrapped

set_option maxRecDepth 10000 in
theorem recovery_keeps_promises_of_pair :
    ∃ grammar language state middle after token known,
      FlatGrammar.ofGrammar pairGrammar = .ok grammar ∧
      Language.ofGrammar pairGrammar .noExternals = .ok language ∧ language.tables.Numbered ∧
      Reaches ⟨language, "b".toList, {}, []⟩ state ∧
      state.current ⟨language, "b".toList, {}, []⟩ = .ok (token, middle) ∧
      LacksAction language state.topState
        (state.symbolOf ⟨language, "b".toList, {}, []⟩ token) ∧
      middle.recover ⟨language, "b".toList, {}, []⟩ known = .ok (.next after) ∧
      state.step ⟨language, "b".toList, {}, []⟩ = .ok (.next after) ∧
      ((∃ promises, Promises ⟨language, "b".toList, {}, []⟩ middle known after promises ∧
          Keeps ⟨language, "b".toList, {}, []⟩ after promises) ∨
        ∃ later, SearchedInVain ⟨language, "b".toList, {}, []⟩ middle known later ∧
          later.popDepth? ⟨language, "b".toList, {}, []⟩ known = none ∧
          after = later.wrapToken known) := by
  obtain ⟨grammar, language, flattened, loaded, numbered⟩ := pairGrammar_loads
  have shown : ((Language.ofGrammar pairGrammar .noExternals).toOption.bind fun language =>
      ((initial "b".toList).current ⟨language, "b".toList, {}, []⟩).toOption.map fun taken =>
        (language.action 0 ((initial "b".toList).symbolOf ⟨language, "b".toList, {}, []⟩ taken.1),
          (taken.2.recover ⟨language, "b".toList, {}, []⟩ { taken.1 with
            symbol := some ((initial "b".toList).symbolOf ⟨language, "b".toList, {}, []⟩ taken.1)
          }).toOption.any fun outcome => match outcome with
            | .next _ => true
            | .done _ _ => false)) = some (.error, true) := by cbv
  simp only [loaded, Except.toOption, Option.bind_some] at shown
  cases taken : (initial "b".toList).current ⟨language, "b".toList, {}, []⟩ with
  | error fault =>
      rw [taken] at shown
      cases shown
  | ok result =>
      obtain ⟨token, middle⟩ := result
      rw [taken] at shown
      simp only [Option.map_some, Option.some.injEq, Prod.mk.injEq] at shown
      obtain ⟨action, going⟩ := shown
      split at going
      case h_2 => cases going
      case h_1 outcome recovered =>
          cases outcome with
          | done root stats => cases going
          | next after =>
              exact ⟨grammar, language, _, middle, after, token, _, flattened, loaded, numbered,
                .initial, taken, .inl action, recovered,
                recovery_keeps_promises flattened loaded numbered rfl .initial taken
                  (.inl action) rfl recovered⟩

end Lalr
