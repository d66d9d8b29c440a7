import Lalr.Parser.Run
import Lalr.Proofs.Parser.Lexing

set_option autoImplicit false

/-!
What a step of a parse can do: take the token at hand and then shift, reduce, accept, recover in
one of the four ways, or take over a subtree of the old tree. Everything read on the way is read
where the reading before it ended, or behind the subtree. Everything but the attempt to take over a
subtree fails only of what reading a lexeme fails of.
-/

namespace Lalr

open Lalr.Text

/-- Lexemes that are read in turn, each where the one before it ended. -/
inductive ReadInTurn (language : Language) :
    Cursor → ScannerState → List Lexeme → Cursor → ScannerState → Prop where
  | nil (cursor : Cursor) (scanner : ScannerState) :
      ReadInTurn language cursor scanner [] cursor scanner
  | cons {cursor next last : Cursor} {scanner final : ScannerState} {mode : ValidExternals}
      {lexeme : Lexeme} {lexemes : List Lexeme} :
      lex language cursor mode scanner = .ok (lexeme, next) →
      ReadInTurn language next lexeme.scannerAfter lexemes last final →
        ReadInTurn language cursor scanner (lexeme :: lexemes) last final

theorem ReadInTurn.append {language : Language} {first middle last : Cursor}
    {begin between final : ScannerState} {early late : List Lexeme}
    (left : ReadInTurn language first begin early middle between)
    (right : ReadInTurn language middle between late last final) :
    ReadInTurn language first begin (early ++ late) last final := by
  induction left with
  | nil => exact right
  | cons read _ ih => exact .cons read (ih right)

/-- A lexeme as it was read, whatever became of it since. -/
def Lexeme.asRead (lexeme : Lexeme) : Lexeme :=
  { lexeme with fresh := true, symbol := none }

/-- A lexeme as it waits that was read ahead. -/
def Lexeme.readAhead (lexeme : Lexeme) : Lexeme :=
  { lexeme with fresh := false }

/-- No lexeme but the last one is the end of the input. -/
def EndsLast (lexemes : List Lexeme) : Prop :=
  ∀ lexeme ∈ lexemes.dropLast, lexeme.raw ≠ endSymbol

theorem EndsLast.append_single {lexemes : List Lexeme} (endsLast : EndsLast lexemes)
    (last : ∀ lexeme, lexemes.getLast? = some lexeme → lexeme.raw ≠ endSymbol)
    (lexeme : Lexeme) : EndsLast (lexemes ++ [lexeme]) := by
  intro other member
  rw [List.dropLast_concat] at member
  cases whole : lexemes.getLast? with
  | none =>
      rw [List.getLast?_eq_none_iff.mp whole] at member
      exact absurd member List.not_mem_nil
  | some final =>
      obtain ⟨before, rfl⟩ := List.getLast?_eq_some_iff.mp whole
      rcases List.mem_append.mp member with early | alone
      · exact endsLast other (by rwa [List.dropLast_concat])
      · obtain rfl := List.mem_singleton.mp alone
        exact last other whole

theorem EndsLast.tail {lexeme : Lexeme} {lexemes : List Lexeme}
    (endsLast : EndsLast (lexeme :: lexemes)) : EndsLast lexemes := by
  intro other member
  cases lexemes with
  | nil => exact absurd member List.not_mem_nil
  | cons next lexemes => exact endsLast other (List.mem_cons_of_mem _ member)

namespace ParseState

/-! ## The parts of a step -/

/-- The token at hand: the one put back, or the next one. -/
def current (input : ParseInput) (state : ParseState) : Except Fault (Lexeme × ParseState) :=
  match state.lookahead with
  | some token => pure (token, { state with lookahead := none })
  | none => state.nextLexeme input

/-- What a step does once it is known which symbol the token stands for. -/
def act (input : ParseInput) (symbol : SymbolId) (token : Lexeme) (state : ParseState)
    (top : StateId) : Except Fault ParseStep :=
  match input.language.action top symbol with
  | .shift next => do
      match ← state.reuse? input symbol token with
      | some taken => pure (.next taken)
      | none => pure (.next (state.shift next symbol token))
  | .reduce id =>
      match input.language.production? id with
      | some production =>
          pure (.next { state.reduce input id production token with lookahead := some token })
      | none => state.recover input token
  | .accept => pure (.done (state.accept input token) state.stats)
  | .error => state.recover input token
  | .goto _ => state.recover input token

/-- The symbol a token stands for, which is kept once it is known. -/
def symbolOf (input : ParseInput) (state : ParseState) (token : Lexeme) : SymbolId :=
  token.symbol.getD (resolveSymbol input.language state.topState token)

theorem step_eq (input : ParseInput) (state : ParseState) :
    state.step input = (do
      let (token, after) ← state.current input
      let symbol := state.symbolOf input token
      after.act input symbol { token with symbol := some symbol } state.topState) := by
  unfold step current
  cases state.lookahead with
  | some token => rfl
  | none => cases state.nextLexeme input <;> rfl

variable {input : ParseInput} {state : ParseState}

theorem reuse?_eq_none (fresh : input.reuse = []) (symbol : SymbolId) (token : Lexeme) :
    state.reuse? input symbol token = .ok none := by
  unfold reuse?
  split
  · simp [fresh, ReuseIndex.candidatesAt, takeOverFirst?]
  · rfl

/-- The terminal that recovery puts in before a token, if the configuration allows it. -/
def insertion? (input : ParseInput) (state : ParseState) (token : Lexeme) : Option SymbolId :=
  if input.config.insertMissing then state.missingSymbol? input token else none

theorem insertion?_eq_some {token : Lexeme} {symbol : SymbolId}
    (found : state.insertion? input token = some symbol) :
    symbol ∈ ((List.range input.language.tables.terminalCount.toNat).drop 1).map Nat.toUInt16 ∧
      bridges input state.structuralStates token symbol = true := by
  unfold insertion? missingSymbol? at found
  split at found
  case isFalse => cases found
  case isTrue =>
      split at found
      case isTrue => cases found
      case isFalse =>
          have chosen := List.find?_some found
          exact ⟨List.mem_of_find?_eq_some found, (Bool.and_eq_true_iff.mp chosen).2⟩

theorem recover_eq (input : ParseInput) (state : ParseState) (token : Lexeme) :
    state.recover input token =
      (match state.insertion? input token with
      | some symbol => .ok (.next (state.insertMissing input symbol token))
      | none => do
          let (skipped, state) ← state.skipTokens input token
          if skipped then pure (.next state)
          else
            let (popped, state) := state.popEntries input token
            if popped then pure (.next state)
            else if token.raw = endSymbol then pure (.done (state.wrapAll input token) state.stats)
            else pure (.next (state.wrapToken token))) :=
  rfl

/-- The table says nothing that a parse could do at a symbol. -/
def LacksAction (language : Language) (top : StateId) (symbol : SymbolId) : Prop :=
  language.action top symbol = .error ∨ (∃ next, language.action top symbol = .goto next) ∨
    ∃ id, language.action top symbol = .reduce id ∧ language.production? id = none

/-! ## Reading -/

theorem readLexeme_ok {mode : ValidExternals} {lexeme : Lexeme} {after : ParseState}
    (read : state.readLexeme input mode = .ok (lexeme, after)) :
    ReadInTurn input.language state.cursor state.scannerState [lexeme] after.cursor
        after.scannerState ∧ after.stack = state.stack ∧ after.lookahead = state.lookahead ∧
      after.pending = state.pending ∧ after.missingInsertedAt = state.missingInsertedAt := by
  obtain ⟨⟨lexed, cursor⟩, lexing, rest⟩ := exists_of_bind_eq_ok read
  obtain ⟨rfl, rfl⟩ := Prod.mk.inj (Except.ok.inj rest)
  exact ⟨.cons lexing (.nil _ _), rfl, rfl, rfl, rfl⟩

/-- The lexeme that is read to get at the token at hand, unless one is waiting. -/
def readNow (state : ParseState) (token : Lexeme) : List Lexeme :=
  if state.lookahead.isNone && state.pending.isEmpty then [token] else []

theorem current_ok {token : Lexeme} {after : ParseState}
    (taken : state.current input = .ok (token, after)) :
    after.stack = state.stack ∧ after.lookahead = none ∧
      token :: after.pending = state.lookahead.toList ++ state.pending ++ state.readNow token ∧
      ReadInTurn input.language state.cursor state.scannerState (state.readNow token)
        after.cursor after.scannerState := by
  unfold current at taken
  cases ahead : state.lookahead with
  | some lexeme =>
      rw [ahead] at taken
      obtain ⟨rfl, rfl⟩ := Prod.mk.inj (Except.ok.inj taken)
      simpa [readNow, ahead] using .nil _ _
  | none =>
      rw [ahead] at taken
      dsimp only [nextLexeme] at taken
      cases waiting : state.pending with
      | cons lexeme pending =>
          rw [waiting] at taken
          obtain ⟨rfl, rfl⟩ := Prod.mk.inj (Except.ok.inj taken)
          simpa [readNow, ahead, waiting] using .nil _ _
      | nil =>
          rw [waiting] at taken
          obtain ⟨read, stack, lookahead, pending, _⟩ := readLexeme_ok taken
          simpa [readNow, ahead, waiting, stack, lookahead, pending] using read

/-- A place up to which something may have been read ahead. -/
structure ReadsAhead (input : ParseInput) (state : ParseState) (read : List Lexeme)
    (after : ParseState) : Prop where
  stack : after.stack = state.stack
  lookahead : after.lookahead = state.lookahead
  pending : after.pending = state.pending ++ read.map Lexeme.readAhead
  inTurn : ReadInTurn input.language state.cursor state.scannerState read after.cursor
    after.scannerState
  missingInsertedAt : after.missingInsertedAt = state.missingInsertedAt
  endsLast : EndsLast state.pending → EndsLast after.pending

theorem ReadsAhead.refl (input : ParseInput) (state : ParseState) :
    ReadsAhead input state [] state :=
  ⟨rfl, rfl, by simp, .nil _ _, rfl, id⟩

theorem ReadsAhead.trans {first middle last : ParseState} {early late : List Lexeme}
    (left : ReadsAhead input first early middle) (right : ReadsAhead input middle late last) :
    ReadsAhead input first (early ++ late) last where
  stack := right.stack.trans left.stack
  lookahead := right.lookahead.trans left.lookahead
  pending := by rw [right.pending, left.pending, List.map_append, List.append_assoc]
  inTurn := left.inTurn.append right.inTurn
  missingInsertedAt := right.missingInsertedAt.trans left.missingInsertedAt
  endsLast := right.endsLast ∘ left.endsLast

/-- What holds of the tokens that wait and of those that are read ahead holds of all that wait
then. -/
theorem ReadsAhead.forall_pending {property : Lexeme → Prop} {after : ParseState}
    {read : List Lexeme} (reads : ReadsAhead input state read after)
    (waiting : ∀ lexeme ∈ state.pending, property lexeme)
    (ahead : ∀ lexeme ∈ read, property lexeme.readAhead) :
    ∀ lexeme ∈ after.pending, property lexeme := by
  intro lexeme member
  rw [reads.pending] at member
  rcases List.mem_append.mp member with old | new
  · exact waiting lexeme old
  · obtain ⟨origin, listed, rfl⟩ := List.mem_map.mp new
    exact ahead origin listed

/-- Reads ahead if the token in a place is not read yet and there is more to read. -/
def readUpTo (input : ParseInput) (place : Nat) (state : ParseState) : Except Fault ParseState :=
  if state.pending.length ≤ place &&
      !state.pending.getLast?.any fun lexeme => lexeme.raw == endSymbol then
    state.lexAhead input
  else pure state

theorem findAcceptable_succ (input : ParseInput) (attempts place : Nat) (state : ParseState) :
    findAcceptable input (attempts + 1) place state = (do
      let state ← state.readUpTo input place
      match state.pending[place]? with
      | none => pure (none, state)
      | some candidate =>
          let symbol := resolveSymbol input.language state.topState candidate
          if (simulate input.language state.structuralStates symbol).isSome then
            pure (some (place + 1), state)
          else if candidate.raw = endSymbol then pure (none, state)
          else findAcceptable input attempts (place + 1) state) := by
  rw [findAcceptable, readUpTo]
  split <;> rfl

theorem readsAhead_of_readUpTo {place : Nat} {after : ParseState}
    (reading : state.readUpTo input place = .ok after) :
    ∃ read, ReadsAhead input state read after := by
  unfold readUpTo at reading
  split at reading
  case isFalse =>
      obtain rfl := Except.ok.inj reading
      exact ⟨[], .refl input _⟩
  case isTrue behind =>
      obtain ⟨⟨lexeme, middle⟩, lexing, rest⟩ := exists_of_bind_eq_ok reading
      obtain rfl := Except.ok.inj rest
      obtain ⟨inTurn, stack, lookahead, pending, inserted⟩ := readLexeme_ok lexing
      have open_ : ∀ last, state.pending.getLast? = some last → last.raw ≠ endSymbol := by
        intro last same
        simpa [same] using (Bool.and_eq_true_iff.mp behind).2
      refine ⟨[lexeme], stack, lookahead, by rw [pending]; rfl, inTurn, inserted, ?_⟩
      intro endsLast
      rw [pending]
      exact endsLast.append_single open_ _

/-- Looking for an acceptable token only reads ahead, and the token that is found is one that
the automaton accepts in the present states. -/
theorem findAcceptable_ok {attempts place : Nat} {found : Option Nat} {after : ParseState}
    (searched : state.findAcceptable input attempts place = .ok (found, after)) :
    (∃ read, ReadsAhead input state read after) ∧
      ∀ count, found = some count → ∃ skipped next pending,
        after.pending = skipped ++ next :: pending ∧ count = skipped.length + 1 ∧
          (simulate input.language after.structuralStates
            (resolveSymbol input.language after.topState next)).isSome = true := by
  induction attempts generalizing place state with
  | zero =>
      obtain ⟨rfl, rfl⟩ := Prod.mk.inj (Except.ok.inj searched)
      exact ⟨⟨[], .refl input _⟩, by simp⟩
  | succ attempts ih =>
      rw [findAcceptable_succ] at searched
      obtain ⟨middle, reading, rest⟩ := exists_of_bind_eq_ok searched
      obtain ⟨read, ahead⟩ := readsAhead_of_readUpTo reading
      split at rest
      case h_1 =>
          obtain ⟨rfl, rfl⟩ := Prod.mk.inj (Except.ok.inj rest)
          exact ⟨⟨read, ahead⟩, by simp⟩
      case h_2 candidate waiting =>
          dsimp only at rest
          split at rest
          case isTrue accepted =>
              obtain ⟨rfl, rfl⟩ := Prod.mk.inj (Except.ok.inj rest)
              -- the token found is the last one looked at, those before it are skipped
              refine ⟨⟨read, ahead⟩, ?_⟩
              rintro count same
              obtain rfl := Option.some.inj same
              obtain ⟨inside, rfl⟩ := List.getElem?_eq_some_iff.mp waiting
              refine ⟨middle.pending.take place, _, middle.pending.drop (place + 1), ?_, ?_,
                accepted⟩
              · rw [List.getElem_cons_drop, List.take_append_drop]
              · rw [List.length_take, Nat.min_eq_left (Nat.le_of_lt inside)]
          case isFalse =>
              split at rest
              case isTrue =>
                  obtain ⟨rfl, rfl⟩ := Prod.mk.inj (Except.ok.inj rest)
                  exact ⟨⟨read, ahead⟩, by simp⟩
              case isFalse =>
                  obtain ⟨⟨more, later⟩, accepted⟩ := ih rest
                  exact ⟨⟨_, ahead.trans later⟩, accepted⟩

/-! ## Pushing -/

/-- Two states that differ in the stack only. -/
structure SameBut (state after : ParseState) : Prop where
  lookahead : after.lookahead = state.lookahead
  pending : after.pending = state.pending
  cursor : after.cursor = state.cursor
  scannerState : after.scannerState = state.scannerState
  missingInsertedAt : after.missingInsertedAt = state.missingInsertedAt

theorem sameBut_pushAll (next : StateId) (subtrees : List Subtree) :
    state.SameBut (state.pushAll next subtrees) := by
  induction subtrees generalizing state with
  | nil => exact ⟨rfl, rfl, rfl, rfl, rfl⟩
  | cons subtree subtrees ih =>
      obtain ⟨lookahead, pending, cursor, scanner, inserted⟩ := @ih (state.push next subtree)
      exact ⟨lookahead, pending, cursor, scanner, inserted⟩

theorem sameBut_push_token (token : Lexeme) (next : StateId) (subtree : Subtree) :
    state.SameBut ((state.pushExtras state.topState token).push next subtree) := by
  obtain ⟨lookahead, pending, cursor, scanner, inserted⟩ :=
    state.sameBut_pushAll state.topState (token.extras.map .leaf)
  exact ⟨lookahead, pending, cursor, scanner, inserted⟩

theorem sameBut_reduce (input : ParseInput) (id : ProductionId) (production : ProductionInfo)
    (token : Lexeme) : state.SameBut (state.reduce input id production token) := by
  unfold reduce
  exact ⟨(sameBut_pushAll _ _).lookahead, (sameBut_pushAll _ _).pending,
    (sameBut_pushAll _ _).cursor, (sameBut_pushAll _ _).scannerState,
    (sameBut_pushAll _ _).missingInsertedAt⟩

/-! ## Taking over -/

/-- A candidate that is tried in place of a token: it was built in the present state from the
token at hand, which has just been read, and it leads on to a state. -/
structure Tries (input : ParseInput) (state : ParseState) (symbol : SymbolId) (token : Lexeme)
    (candidate : ReuseCandidate) (lookahead : Lookahead) (last : Leaf) (next : StateId) :
    Prop where
  listed : candidate ∈ input.reuse
  offset : candidate.offset = token.contentStart
  alone : state.pending = []
  fresh : token.fresh = true
  node : ∃ head children, candidate.subtree = .node head children ∧
    head.state = state.topState ∧ head.lookahead = some lookahead ∧
    input.language.goto? state.topState head.symbol = some next
  starts : startsWith candidate.subtree symbol token = true
  last : candidate.subtree.lastLeaf? = some last

/-- The state when a subtree has been taken over in place of a token. -/
def afterTakeOver (state : ParseState) (token : Lexeme) (subtree : Subtree) (next : StateId)
    (following : Lexeme) (cursor : Cursor) : ParseState :=
  { ((state.pushExtras state.topState token).push next subtree).advancePast following cursor with
    lookahead := some following
    stats := ⟨state.stats.reusedNodes + 1, state.stats.reusedBytes + subtree.length⟩ }

/-- What comes of taking over a subtree: the token behind it is read as it was before. -/
inductive TakesOver (input : ParseInput) (state : ParseState) (symbol : SymbolId)
    (token : Lexeme) : ParseState → Prop where
  | behind {candidate : ReuseCandidate} {lookahead : Lookahead} {last : Leaf} {next : StateId}
      {place cursor : Cursor} {following : Lexeme} :
      Tries input state symbol token candidate lookahead last next →
      Cursor.at? input.text (token.tokenStart + candidate.subtree.length) = some place →
      lex input.language place lookahead.mode last.scannerAfter = .ok (following, cursor) →
      following.raw = lookahead.raw →
      TakesOver input state symbol token (state.afterTakeOver token candidate.subtree next
        { following with symbol := some lookahead.symbol } cursor)

/-- Why taking over a subtree cannot be tried: its end is no place in the text, or reading on
behind it fails. -/
def FailsBehind (input : ParseInput) (token : Lexeme) (candidate : ReuseCandidate)
    (lookahead : Lookahead) (last : Leaf) (fault : Fault) : Prop :=
  match Cursor.at? input.text (token.tokenStart + candidate.subtree.length) with
  | none => fault = .outsideText (token.tokenStart + candidate.subtree.length)
  | some place => lex input.language place lookahead.mode last.scannerAfter = .error fault

theorem takeOver?_cases {symbol : SymbolId} {token : Lexeme} {candidate : ReuseCandidate}
    {result : Except Fault (Option ParseState)} (listed : candidate ∈ input.reuse)
    (offset : candidate.offset = token.contentStart) (alone : state.pending = [])
    (fresh : token.fresh = true)
    (tried : state.takeOver? input symbol token candidate.subtree = result) :
    result = .ok none ∨ (∃ after, result = .ok (some after) ∧
        TakesOver input state symbol token after) ∨
      ∃ fault lookahead last next, result = .error fault ∧
        Tries input state symbol token candidate lookahead last next ∧
        FailsBehind input token candidate lookahead last fault := by
  subst tried
  cases shape : candidate.subtree with
  | leaf leaf => exact .inl rfl
  | node head children =>
      rw [takeOver?]
      dsimp only
      split
      case isTrue => exact .inl rfl
      case isFalse same =>
          simp only [Bool.or_eq_true, bne_iff_ne, ne_eq, Bool.not_eq_true', not_or,
            Decidable.not_not, Bool.not_eq_false] at same
          split
          case h_2 => exact .inl rfl
          case h_1 lookahead last next ahead isLast leads =>
              have tries : Tries input state symbol token candidate lookahead last next :=
                ⟨listed, offset, alone, fresh, ⟨head, children, shape, same.1, ahead, leads⟩,
                  shape ▸ same.2, shape ▸ isLast⟩
              rw [← shape]
              cases found : Cursor.at? input.text (token.tokenStart + candidate.subtree.length) with
              | none =>
                  refine .inr (.inr ⟨_, lookahead, last, next, rfl, tries, ?_⟩)
                  simp only [FailsBehind, found]
              | some place =>
                  cases read : lex input.language place lookahead.mode last.scannerAfter with
                  | error fault =>
                      refine .inr (.inr ⟨fault, lookahead, last, next, ?_, tries, ?_⟩)
                      · simp only [read, bind, Except.bind]
                      · simpa only [FailsBehind, found] using read
                  | ok result =>
                      obtain ⟨following, cursor⟩ := result
                      simp only [read, bind, Except.bind]
                      split
                      case isTrue => exact .inl rfl
                      case isFalse alike =>
                          have raw : following.raw = lookahead.raw := by simpa using alike
                          exact .inr (.inl ⟨_, rfl, .behind tries found read raw⟩)

theorem reuse?_cases {symbol : SymbolId} {token : Lexeme}
    {result : Except Fault (Option ParseState)}
    (tried : state.reuse? input symbol token = result) :
    result = .ok none ∨ (∃ after, result = .ok (some after) ∧
        TakesOver input state symbol token after) ∨
      ∃ fault candidate lookahead last next, result = .error fault ∧
        Tries input state symbol token candidate lookahead last next ∧
        FailsBehind input token candidate lookahead last fault := by
  unfold reuse? at tried
  split at tried
  case isFalse => exact .inl tried.symm
  case isTrue idle =>
      simp only [Bool.and_eq_true, List.isEmpty_iff] at idle
      have known : ∀ subtree ∈ input.reuse.candidatesAt token.contentStart,
          ∃ candidate ∈ input.reuse, candidate.offset = token.contentStart ∧
            candidate.subtree = subtree := by
        intro subtree member
        obtain ⟨candidate, kept, rfl⟩ := List.mem_map.mp member
        obtain ⟨listed, here⟩ := List.mem_filter.mp kept
        exact ⟨candidate, listed, by simpa using here, rfl⟩
      -- the candidates are tried one after the other
      generalize input.reuse.candidatesAt token.contentStart = subtrees at tried known
      induction subtrees with
      | nil => exact .inl tried.symm
      | cons subtree subtrees ih =>
          obtain ⟨candidate, listed, offset, rfl⟩ := known subtree List.mem_cons_self
          rw [takeOverFirst?] at tried
          rcases takeOver?_cases listed offset idle.1 idle.2 rfl with
            passed | ⟨after, taken, takes⟩ | ⟨fault, lookahead, last, next, failed, tries, fails⟩
          · rw [passed] at tried
            exact ih tried fun other member => known other (List.mem_cons_of_mem _ member)
          · rw [taken] at tried
            exact .inr (.inl ⟨after, tried.symm, takes⟩)
          · rw [failed] at tried
            exact .inr (.inr ⟨fault, candidate, lookahead, last, next, tried.symm, tries, fails⟩)

/-! ## Effects -/

/-- The state when a token and some of those behind it have been skipped. -/
def skipTo (state : ParseState) (token : Lexeme) (skipped : List Lexeme) (next : Lexeme)
    (pending : List Lexeme) : ParseState :=
  let top := state.topState
  let children := Subtree.leaf (token.toLeaf token.raw top) ::
    skipped.flatMap (skippedSubtrees top)
  { (state.pushExtras top token).push top (.ofError children) with
    lookahead := some { next with symbol := none }
    pending := pending }

/-- A search for a token to skip to that was not made, or that found none. -/
def SearchedInVain (input : ParseInput) (state : ParseState) (token : Lexeme)
    (later : ParseState) : Prop :=
  ((token.raw = endSymbol ∨ input.config.maxSkipTokens = 0) ∧ later = state) ∨
    (token.raw ≠ endSymbol ∧ input.config.maxSkipTokens ≠ 0 ∧
      state.findAcceptable input input.config.maxSkipTokens 0 = .ok (none, later))

theorem SearchedInVain.readsAhead {token : Lexeme} {later : ParseState}
    (inVain : SearchedInVain input state token later) :
    ∃ read, ReadsAhead input state read later := by
  rcases inVain with ⟨_, rfl⟩ | ⟨_, _, searched⟩
  · exact ⟨[], .refl input _⟩
  · exact (findAcceptable_ok searched).1

/-- What comes of a token that stands for a symbol in a state. -/
inductive Effect (input : ParseInput) (state : ParseState) (top : StateId) (symbol : SymbolId)
    (token : Lexeme) : ParseStep → Prop where
  | shift {next : StateId} : input.language.action top symbol = .shift next →
      Effect input state top symbol token (.next (state.shift next symbol token))
  | reduce {id : ProductionId} {production : ProductionInfo} :
      input.language.action top symbol = .reduce id →
      input.language.production? id = some production →
      Effect input state top symbol token
        (.next { state.reduce input id production token with lookahead := some token })
  | accept : input.language.action top symbol = .accept →
      Effect input state top symbol token (.done (state.accept input token) state.stats)
  | insert {missing : SymbolId} : LacksAction input.language top symbol →
      state.insertion? input token = some missing →
      Effect input state top symbol token (.next (state.insertMissing input missing token))
  | skip {later : ParseState} {skipped : List Lexeme} {next : Lexeme} {pending : List Lexeme} :
      LacksAction input.language top symbol → state.insertion? input token = none →
      token.raw ≠ endSymbol → input.config.maxSkipTokens ≠ 0 →
      state.findAcceptable input input.config.maxSkipTokens 0 =
        .ok (some (skipped.length + 1), later) →
      later.pending = skipped ++ next :: pending →
      (simulate input.language later.structuralStates
        (resolveSymbol input.language later.topState next)).isSome = true →
      Effect input state top symbol token (.next (later.skipTo token skipped next pending))
  | pop {later : ParseState} {depth : Nat} : LacksAction input.language top symbol →
      state.insertion? input token = none → SearchedInVain input state token later →
      later.popDepth? input token = some depth →
      Effect input state top symbol token (.next (later.popEntries input token).2)
  | wrap {later : ParseState} : LacksAction input.language top symbol →
      state.insertion? input token = none → SearchedInVain input state token later →
      later.popDepth? input token = none → token.raw ≠ endSymbol →
      Effect input state top symbol token (.next (later.wrapToken token))
  | wrapAll : LacksAction input.language top symbol → state.insertion? input token = none →
      state.popDepth? input token = none → token.raw = endSymbol →
      Effect input state top symbol token (.done (state.wrapAll input token) state.stats)

theorem skipTokens_ok {token : Lexeme} {tried : Bool} {after : ParseState}
    (ran : state.skipTokens input token = .ok (tried, after)) :
    (tried = false ∧ SearchedInVain input state token after) ∨
      (tried = true ∧ token.raw ≠ endSymbol ∧ input.config.maxSkipTokens ≠ 0 ∧
        ∃ later skipped next pending,
          state.findAcceptable input input.config.maxSkipTokens 0 =
            .ok (some (skipped.length + 1), later) ∧
          later.pending = skipped ++ next :: pending ∧
          (simulate input.language later.structuralStates
            (resolveSymbol input.language later.topState next)).isSome = true ∧
          after = later.skipTo token skipped next pending) := by
  unfold skipTokens at ran
  split at ran
  case isTrue idle =>
      obtain ⟨rfl, rfl⟩ := Prod.mk.inj (Except.ok.inj ran)
      exact .inl ⟨rfl, .inl ⟨by simpa using idle, rfl⟩⟩
  case isFalse busy =>
      simp only [Bool.or_eq_true, decide_eq_true_eq, not_or] at busy
      obtain ⟨⟨found, middle⟩, searching, rest⟩ := exists_of_bind_eq_ok ran
      cases found with
      | none =>
          obtain ⟨rfl, rfl⟩ := Prod.mk.inj (Except.ok.inj rest)
          exact .inl ⟨rfl, .inr ⟨busy.1, busy.2, searching⟩⟩
      | some count =>
          obtain ⟨skipped, next, pending, whole, rfl, accepted⟩ :=
            (findAcceptable_ok searching).2 count rfl
          have pushed : ((middle.pushExtras middle.topState token).push middle.topState
              (.ofError (Subtree.leaf (token.toLeaf token.raw middle.topState) ::
                skipped.flatMap (skippedSubtrees middle.topState)))).pending =
              skipped ++ next :: pending := by
            rw [← whole]
            exact (sameBut_pushAll _ _).pending
          simp only [Nat.add_sub_cancel, whole, List.take_left, pushed, List.drop_left] at rest
          obtain ⟨rfl, rfl⟩ := Prod.mk.inj (Except.ok.inj rest)
          exact .inr ⟨rfl, busy.1, busy.2, middle, skipped, next, pending, searching, whole,
            accepted, rfl⟩

theorem popEntries_fst (token : Lexeme) :
    (state.popEntries input token).1 = (state.popDepth? input token).isSome := by
  unfold popEntries
  split <;> simp [*]

theorem effect_of_recover {top : StateId} {symbol : SymbolId} {token : Lexeme}
    {outcome : ParseStep} (lacks : LacksAction input.language top symbol)
    (recovered : state.recover input token = .ok outcome) :
    Effect input state top symbol token outcome := by
  rw [recover_eq] at recovered
  split at recovered
  case h_1 missing inserted =>
      obtain rfl := Except.ok.inj recovered
      exact .insert lacks inserted
  case h_2 notInserted =>
      obtain ⟨⟨skipped, later⟩, skipping, rest⟩ := exists_of_bind_eq_ok recovered
      rcases skipTokens_ok skipping with
        ⟨rfl, inVain⟩ |
        ⟨rfl, notEnd, some_, middle, skipped, next, pending, found, whole, accepted, rfl⟩
      · dsimp only at rest
        rw [popEntries_fst] at rest
        cases depth : later.popDepth? input token with
        | some depth =>
            rw [depth] at rest
            obtain rfl := Except.ok.inj rest
            exact .pop lacks notInserted inVain depth
        | none =>
            -- where no entries are taken off, the state stays as the search left it
            have same : (later.popEntries input token).2 = later := by simp [popEntries, depth]
            rw [depth, same] at rest
            simp only [Option.isSome_none, Bool.false_eq_true, if_false] at rest
            split at rest
            case isTrue atEnd =>
                obtain rfl := Except.ok.inj rest
                rcases inVain with ⟨_, rfl⟩ | ⟨notEnd, _⟩
                · exact .wrapAll lacks notInserted depth atEnd
                · exact absurd atEnd notEnd
            case isFalse notEnd =>
                obtain rfl := Except.ok.inj rest
                exact .wrap lacks notInserted inVain depth notEnd
      · obtain rfl := Except.ok.inj rest
        exact .skip lacks notInserted notEnd some_ found whole accepted

/-- A step takes the token at hand, which then has one of the effects, unless a subtree is taken
over in place of it. -/
theorem effect_or_takesOver_of_step {outcome : ParseStep}
    (stepped : state.step input = .ok outcome) :
    ∃ token after, state.current input = .ok (token, after) ∧
      let symbol := state.symbolOf input token
      let known := { token with symbol := some symbol }
      (Effect input after state.topState symbol known outcome ∨
        ∃ next taken, input.language.action state.topState symbol = .shift next ∧
          TakesOver input after symbol known taken ∧ outcome = .next taken) := by
  rw [step_eq] at stepped
  obtain ⟨⟨token, after⟩, taken, acted⟩ := exists_of_bind_eq_ok stepped
  refine ⟨token, after, taken, ?_⟩
  unfold act at acted
  dsimp only at acted ⊢
  split at acted
  case h_1 next action =>
      obtain ⟨reused, reusing, rest⟩ := exists_of_bind_eq_ok acted
      rcases reuse?_cases reusing with none_ | ⟨found, some_, takes⟩ | ⟨fault, _, _, _, _, failed, _⟩
      · obtain rfl := Except.ok.inj none_
        obtain rfl := Except.ok.inj rest
        exact .inl (.shift action)
      · obtain rfl := Except.ok.inj some_
        obtain rfl := Except.ok.inj rest
        exact .inr ⟨next, found, action, takes, rfl⟩
      · cases failed
  case h_2 id action =>
      split at acted
      case h_1 production found =>
          obtain rfl := Except.ok.inj acted
          exact .inl (.reduce action found)
      case h_2 unknown =>
          exact .inl (effect_of_recover (.inr (.inr ⟨id, action, unknown⟩)) acted)
  case h_3 action =>
      obtain rfl := Except.ok.inj acted
      exact .inl (.accept action)
  case h_4 action => exact .inl (effect_of_recover (.inl action) acted)
  case h_5 next action => exact .inl (effect_of_recover (.inr (.inl ⟨next, action⟩)) acted)

/-- Where there is nothing to take over, a step takes the token at hand, which then has one of
the effects. -/
theorem effect_of_step (fresh : input.reuse = []) {outcome : ParseStep}
    (stepped : state.step input = .ok outcome) :
    ∃ token after, state.current input = .ok (token, after) ∧
      Effect input after state.topState (state.symbolOf input token)
        { token with symbol := some (state.symbolOf input token) } outcome := by
  obtain ⟨token, after, taken, effect | ⟨_, _, _, takes, _⟩⟩ := effect_or_takesOver_of_step stepped
  · exact ⟨token, after, taken, effect⟩
  · cases takes with
    | behind tries => exact absurd tries.listed (by simp [fresh])

/-- A parse ends where the table accepts, or where recovery finds nothing else to do. -/
theorem done_cases {root : Subtree} {stats : ParseStats}
    (stepped : state.step input = .ok (.done root stats)) :
    ∃ token middle, state.current input = .ok (token, middle) ∧
      let symbol := state.symbolOf input token
      let known := { token with symbol := some symbol }
      (input.language.action state.topState symbol = .accept ∧
          root = middle.accept input known) ∨
        (LacksAction input.language state.topState symbol ∧ token.raw = endSymbol ∧
          middle.insertion? input known = none ∧ root = middle.wrapAll input known) := by
  obtain ⟨token, middle, taken, effect | ⟨_, _, _, _, same⟩⟩ :=
    effect_or_takesOver_of_step stepped
  case inr => cases same
  refine ⟨token, middle, taken, ?_⟩
  cases effect with
  | accept action => exact .inl ⟨action, rfl⟩
  | wrapAll lacks notInserted _ atEnd => exact .inr ⟨lacks, atEnd, notInserted, rfl⟩

end ParseState

/-! ## Faults -/

/-- A result that is missing only because of certain faults. -/
def OnlyFaults {α : Type} (known : Fault → Prop) (result : Except Fault α) : Prop :=
  ∀ fault, result = .error fault → known fault

namespace OnlyFaults

variable {α β : Type} {known : Fault → Prop}

theorem ok (value : α) : OnlyFaults known (.ok value) :=
  nofun

theorem bind {result : Except Fault α} {next : α → Except Fault β}
    (first : OnlyFaults known result)
    (later : ∀ value, result = .ok value → OnlyFaults known (next value)) :
    OnlyFaults known (result >>= next) := by
  cases outcome : result with
  | error fault =>
      intro other same
      exact Except.error.inj same ▸ first fault outcome
  | ok value => exact later value outcome

end OnlyFaults

/-! ## Reading -/

/-- Whether a fault is that of a cut outside of the text. -/
def Fault.isOutside : Fault → Bool
  | .outsideText _ => true
  | .endlessExtras _ | .stepLimit => false

theorem tokenAt_inside {language : Language} (fits : language.scanner.Fits) (place : Cursor)
    (mode : ValidExternals) (examinedEnd : Nat) (state : ScannerState) :
    OnlyFaults (fun fault => fault.isOutside = false)
      (tokenAt language place mode examinedEnd state) := by
  unfold tokenAt
  split
  case isTrue => exact .ok _
  case isFalse =>
      split
      case isTrue => exact .ok _
      case isFalse =>
          dsimp only
          split
          case h_1 => exact .ok _
          case h_2 index length next examined scanned =>
              split
              case h_1 => exact .ok _
              case h_2 =>
                  split
                  case isTrue => exact .ok _
                  case isFalse =>
                      split
                      case h_1 outside =>
                          have cut := fits _ _ _ _ _ _ _ scanned
                          simp only [Cursor.advance?, dropBytes?, Option.map_eq_none_iff] at outside
                          rw [outside] at cut
                          cases cut
                      case h_2 => exact .ok _

theorem lexFrom_inside {language : Language} (fits : language.scanner.Fits) (start : Nat)
    (mode : ValidExternals) (limit : Nat) (extras : List Leaf) (examinedEnd : Nat)
    (cursor : Cursor) (state : ScannerState) :
    OnlyFaults (fun fault => fault.isOutside = false)
      (lexFrom language start mode limit extras examinedEnd cursor state) := by
  induction limit generalizing extras examinedEnd cursor state with
  | zero =>
      intro fault failed
      exact Except.error.inj failed ▸ rfl
  | succ limit ih =>
      rw [lexFrom]
      refine .bind (tokenAt_inside fits _ _ _ _) fun found _ => ?_
      split
      case isTrue => exact ih _ _ _ _
      case isFalse => exact .ok _

/-- Where the tokens of the scanner fit into the text, reading cuts it at places in it only. -/
theorem lex_inside {language : Language} (fits : language.scanner.Fits) (cursor : Cursor)
    (mode : ValidExternals) (state : ScannerState) :
    OnlyFaults (fun fault => fault.isOutside = false) (lex language cursor mode state) :=
  lexFrom_inside fits _ _ _ _ _ _ _

/-! ## Steps -/

namespace ParseState

variable {known : Fault → Prop} {input : ParseInput} {state : ParseState}

section reading

variable (reading : ∀ (state : ParseState) (mode : ValidExternals),
  OnlyFaults known (state.readLexeme input mode))

include reading

theorem onlyFaults_current : OnlyFaults known (state.current input) := by
  unfold current
  split
  · exact .ok _
  · unfold nextLexeme
    split
    · exact .ok _
    · exact reading _ _

theorem onlyFaults_findAcceptable (attempts place : Nat) :
    OnlyFaults known (state.findAcceptable input attempts place) := by
  induction attempts generalizing state place with
  | zero => exact .ok _
  | succ attempts ih =>
      rw [findAcceptable_succ]
      refine .bind ?_ fun middle _ => ?_
      · unfold readUpTo
        split
        · exact .bind (reading _ _) fun _ _ => .ok _
        · exact .ok _
      · split
        · exact .ok _
        · dsimp only
          split
          · exact .ok _
          · split
            · exact .ok _
            · exact ih (place + 1)

theorem onlyFaults_recover (token : Lexeme) :
    OnlyFaults known (state.recover input token) := by
  rw [recover_eq]
  split
  · exact .ok _
  · refine .bind ?_ fun result _ => ?_
    · unfold skipTokens
      split
      · exact .ok _
      · refine .bind (onlyFaults_findAcceptable reading _ _) fun result _ => ?_
        dsimp only
        split
        · exact .ok _
        · split <;> exact .ok _
    · dsimp only
      split
      · exact .ok _
      · split
        · exact .ok _
        · split <;> exact .ok _

/-- A step fails of what reading fails of, or of a subtree that it tries to take over. -/
theorem onlyFaults_step
    (reusing : ∀ token after, state.current input = .ok (token, after) →
      let symbol := state.symbolOf input token
      OnlyFaults known (after.reuse? input symbol { token with symbol := some symbol })) :
    OnlyFaults known (state.step input) := by
  rw [step_eq]
  refine .bind (onlyFaults_current reading) fun result taken => ?_
  unfold act
  dsimp only
  split
  · refine .bind (reusing _ _ taken) fun reused _ => ?_
    split <;> exact .ok _
  · split
    · exact .ok _
    · exact onlyFaults_recover reading _
  · exact .ok _
  · exact onlyFaults_recover reading _
  · exact onlyFaults_recover reading _

end reading

theorem readLexeme_inside (fits : input.language.scanner.Fits) (mode : ValidExternals) :
    OnlyFaults (fun fault => fault.isOutside = false) (state.readLexeme input mode) :=
  .bind (lex_inside fits _ _ _) fun _ _ => .ok _

end ParseState

end Lalr
