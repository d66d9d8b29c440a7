import Lalr.Proofs.OneScript.Scanner
import Lalr.Proofs.Parser.Effect
import Lalr.Proofs.Parser.Promise
import Lalr.Proofs.Parser.Tiling

set_option autoImplicit false

/-!
A parse without an old tree comes to an end if the reductions on every stack do. What is left
to deal with is the text that is not read and the tokens that wait; a token that is shifted,
skipped or wrapped is no longer among them. A missing token and entries taken off the stack
change nothing about it, but both are tried out before: a token of the text is shifted after a
few steps.
-/

namespace Lalr

open Lalr.Text

/-! ## Faults -/

/-- A result is missing only where the scanner is at fault. -/
def Scanner.AloneFaults {α : Type} (scanner : Scanner) (result : Except Fault α) : Prop :=
  ∀ fault, result = .error fault → fault.OfScanner scanner

/-! ## What is left -/

/-- The tokens among some lexemes that are not the end of the input. -/
def ordinaryCount (lexemes : List Lexeme) : Nat :=
  lexemes.countP fun lexeme => lexeme.raw != endSymbol

@[simp] theorem ordinaryCount_nil : ordinaryCount [] = 0 := rfl

theorem ordinaryCount_cons (lexeme : Lexeme) (lexemes : List Lexeme) :
    ordinaryCount (lexeme :: lexemes) =
      ordinaryCount lexemes + if lexeme.raw = endSymbol then 0 else 1 := by
  rw [ordinaryCount, List.countP_cons]
  by_cases atEnd : lexeme.raw = endSymbol <;> simp [atEnd, ordinaryCount]

@[simp] theorem ordinaryCount_append (first second : List Lexeme) :
    ordinaryCount (first ++ second) = ordinaryCount first + ordinaryCount second :=
  List.countP_append

@[simp] theorem ordinaryCount_readAhead (lexemes : List Lexeme) :
    ordinaryCount (lexemes.map Lexeme.readAhead) = ordinaryCount lexemes := by
  rw [ordinaryCount, List.countP_map]
  rfl

/-- Every token that is read in turn takes at least one character of the text. -/
theorem ReadInTurn.rest_add_le {language : Language} (knowsNoEnd : language.lexer.KnowsNoEnd)
    (progresses : language.lexer.Progresses) {cursor last : Cursor} {scanner final : ScannerState}
    {lexemes : List Lexeme} (inTurn : ReadInTurn language cursor scanner lexemes last final) :
    last.rest.length + ordinaryCount lexemes ≤ cursor.rest.length := by
  induction inTurn with
  | nil => simp
  | @cons cursor next last scanner final mode lexeme lexemes read _ ih =>
      rcases lex_progress knowsNoEnd progresses cursor mode scanner with
        ⟨other, place, same, shorter, takes⟩ | ⟨fault, failed, _⟩
      · obtain ⟨rfl, rfl⟩ := Prod.mk.inj (Except.ok.inj (read.symm.trans same))
        rw [ordinaryCount_cons]
        split
        case isTrue => omega
        case isFalse ordinary =>
            have := takes ordinary
            omega
      · cases read.symm.trans failed

namespace ParseState

/-- How much a parse has left to deal with, at most: a token for every character that is not
read, and the tokens that wait. The end of the input does not count. -/
def remaining (state : ParseState) : Nat :=
  state.cursor.rest.length + ordinaryCount state.queue

/-- The parse ends from a state on: with a tree, or because the scanner is at fault. -/
def Ends (input : ParseInput) (state : ParseState) : Prop :=
  ∃ limit, (∃ root stats, runSteps input limit state = .ok (root, stats)) ∨
    ∃ fault, runSteps input limit state = .error fault ∧ fault.OfScanner input.language.scanner

variable {input : ParseInput} {grammar : FlatGrammar} {state middle : ParseState}
  {token : Lexeme}

theorem remaining_named (token : Lexeme) (symbol : Option SymbolId) :
    ({ state with lookahead := some { token with symbol := symbol } } : ParseState).remaining =
      ({ state with lookahead := some token } : ParseState).remaining := by
  simp [remaining, queue, ordinaryCount_cons]

/-- A token of the text that has been dealt with is not left any more. -/
theorem remaining_lt {after : ParseState} (ordinary : token.raw ≠ endSymbol)
    (cursor : after.cursor = state.cursor)
    (queue : ordinaryCount after.queue ≤ ordinaryCount state.pending) :
    after.remaining < ({ state with lookahead := some token } : ParseState).remaining := by
  have whole : ordinaryCount ({ state with lookahead := some token } : ParseState).queue =
      ordinaryCount state.pending + 1 := by
    simp [ParseState.queue, ordinaryCount_cons, ordinary]
  rw [remaining, remaining, whole, cursor]
  exact Nat.add_lt_add_left (Nat.lt_succ_of_le queue) _

theorem SameBut.remaining_lt {after : ParseState} (same : state.SameBut after)
    (idle : state.lookahead = none) (ordinary : token.raw ≠ endSymbol) :
    after.remaining < ({ state with lookahead := some token } : ParseState).remaining := by
  refine ParseState.remaining_lt ordinary same.cursor ?_
  rw [queue, same.lookahead, idle, same.pending]
  rfl

theorem remaining_skipTo_lt {skipped pending : List Lexeme} {next : Lexeme}
    (ordinary : token.raw ≠ endSymbol) (whole : state.pending = skipped ++ next :: pending) :
    (state.skipTo token skipped next pending).remaining <
      ({ state with lookahead := some token } : ParseState).remaining := by
  have kept : (state.pushExtras state.topState token).cursor = state.cursor :=
    (sameBut_pushAll _ _).cursor
  refine remaining_lt ordinary kept ?_
  rw [whole]
  simp [queue, skipTo, ordinaryCount_cons]

theorem remaining_reduce (id : ProductionId) (production : ProductionInfo) :
    ({ state.reduce input id production token with lookahead := some token } :
      ParseState).remaining =
        ({ state with lookahead := some token } : ParseState).remaining := by
  obtain ⟨_, pending, cursor, _, _⟩ := state.sameBut_reduce input id production token
  rw [remaining, remaining, queue, queue]
  simp only [pending, cursor]

theorem ends_of_next {after : ParseState} (stepped : state.step input = .ok (.next after))
    (ends : Ends input after) : Ends input state := by
  obtain ⟨limit, ended⟩ := ends
  refine ⟨limit + 1, ?_⟩
  rw [runSteps, stepped]
  exact ended

section reading

variable (knowsNoEnd : input.language.lexer.KnowsNoEnd)
  (progresses : input.language.lexer.Progresses)

include knowsNoEnd progresses

theorem remaining_current (taken : state.current input = .ok (token, middle)) :
    ({ middle with lookahead := some token } : ParseState).remaining ≤ state.remaining := by
  obtain ⟨_, _, whole, inTurn⟩ := current_ok taken
  have rest := inTurn.rest_add_le knowsNoEnd progresses
  have count : ordinaryCount (token :: middle.pending) =
      ordinaryCount state.queue + ordinaryCount (state.readNow token) := by
    rw [whole, ordinaryCount_append]
    rfl
  have same : ({ middle with lookahead := some token } : ParseState).remaining =
      middle.cursor.rest.length + ordinaryCount (token :: middle.pending) := rfl
  rw [same, remaining]
  omega

theorem ReadsAhead.remaining_le {read : List Lexeme} (ahead : ReadsAhead input state read middle) :
    ({ middle with lookahead := some token } : ParseState).remaining ≤
      ({ state with lookahead := some token } : ParseState).remaining := by
  have rest := ahead.inTurn.rest_add_le knowsNoEnd progresses
  simp only [remaining, queue, ahead.pending, ordinaryCount_append, ordinaryCount_readAhead]
  omega

theorem SearchedInVain.remaining_le (inVain : SearchedInVain input state token middle) :
    ({ middle with lookahead := some token } : ParseState).remaining ≤
      ({ state with lookahead := some token } : ParseState).remaining := by
  obtain ⟨_, ahead⟩ := inVain.readsAhead
  exact ahead.remaining_le knowsNoEnd progresses

/-! ## Steps are taken -/

theorem aloneFaults_readLexeme (mode : ValidExternals) :
    input.language.scanner.AloneFaults (state.readLexeme input mode) := by
  refine OnlyFaults.bind ?_ fun _ _ => .ok _
  intro fault failed
  rcases lex_progress knowsNoEnd progresses state.cursor mode state.scannerState with
    ⟨lexeme, place, read, _⟩ | ⟨other, same, byScanner⟩
  · cases failed.symm.trans read
  · exact Except.error.inj (same.symm.trans failed) ▸ byScanner

theorem aloneFaults_step (fresh : input.reuse = []) :
    input.language.scanner.AloneFaults (state.step input) := by
  refine onlyFaults_step (fun _ mode => aloneFaults_readLexeme knowsNoEnd progresses mode) ?_
  intro token after _
  dsimp only
  rw [reuse?_eq_none fresh]
  exact .ok _

theorem ends_of_step (fresh : input.reuse = [])
    (later : ∀ after, state.step input = .ok (.next after) → Ends input after) :
    Ends input state := by
  cases stepped : state.step input with
  | error fault =>
      exact ⟨1, .inr ⟨fault, by rw [runSteps, stepped],
        aloneFaults_step knowsNoEnd progresses fresh fault stepped⟩⟩
  | ok outcome =>
      cases outcome with
      | done root stats => exact ⟨1, .inl ⟨root, stats, by rw [runSteps, stepped]⟩⟩
      | next after => exact ends_of_next stepped (later after stepped)

end reading

theorem Consumes.ends {outcome : ParseStep} {states : List StateId}
    (consumes : Consumes input token state outcome states)
    (later : ∀ after, outcome = .next after → Ends input after) : Ends input state := by
  induction consumes with
  | shift _ _ _ stepped => exact ends_of_next stepped (later _ rfl)
  | accept _ _ _ stepped => exact ⟨1, .inl ⟨_, _, by rw [runSteps, stepped]⟩⟩
  | reduce _ _ _ stepped _ ih => exact ends_of_next stepped (ih later)

section running

variable (represents : input.language.tables.Represents grammar)
  (knowsNoEnd : input.language.lexer.KnowsNoEnd)
  (progresses : input.language.lexer.Progresses) (fresh : input.reuse = [])

include represents knowsNoEnd fresh

theorem Reaches.faithful (reaches : Reaches input state) : ∃ log, state.Faithful input log := by
  induction reaches with
  | initial => exact ⟨[], faithful_initial input⟩
  | step _ stepped ih =>
      obtain ⟨log, faithful⟩ := ih
      exact ⟨_, faithful.step represents knowsNoEnd fresh stepped⟩

theorem Reaches.ordinary_of_shift (reaches : Reaches input state)
    (taken : state.current input = .ok (token, middle)) {next : StateId}
    (action : input.language.action state.topState (state.symbolOf input token) = .shift next) :
    token.raw ≠ endSymbol := by
  obtain ⟨log, faithful⟩ := reaches.faithful represents knowsNoEnd fresh
  have held := (faithful.current knowsNoEnd taken).atHand
  exact fun atEnd => represents.ne_end_of_shift action ((held.symbol _ rfl).mpr atEnd)

theorem Consumes.ordinary {after : ParseState} {states : List StateId}
    (consumes : Consumes input token state (.next after) states) (reaches : Reaches input state)
    {held : Lexeme} (taken : state.current input = .ok (held, middle)) :
    held.raw ≠ endSymbol := by
  generalize shape : ParseStep.next after = outcome at consumes
  induction consumes generalizing held middle with
  | shift same _ action =>
      obtain ⟨rfl, rfl⟩ := Prod.mk.inj (Except.ok.inj (taken.symm.trans same))
      exact reaches.ordinary_of_shift represents knowsNoEnd fresh taken action
  | accept => cases shape
  | reduce same action found stepped _ ih =>
      obtain ⟨rfl, rfl⟩ := Prod.mk.inj (Except.ok.inj (taken.symm.trans same))
      have reached := reaches.step stepped
      rw [step_of_reduce taken action found] at stepped
      obtain rfl := ParseStep.next.inj (Except.ok.inj stepped)
      have ordinary := ih reached (current_of_lookahead rfl) shape
      exact ordinary

/-- Where the automaton was seen to accept the token at hand, a parse ends if it does from
every state in which this token has been shifted. -/
theorem ends_of_simulate {symbol : SymbolId} {states final : List StateId}
    (reaches : Reaches input state) (taken : state.current input = .ok (token, middle))
    (stands : state.symbolOf input token = symbol) (spelled : state.structuralStates = states)
    (simulated : simulate input.language states symbol = some final)
    (later : ∀ after, Reaches input after → after.structuralStates = final →
      after.lookahead = none → after.pending = middle.pending → after.cursor = middle.cursor →
      token.raw ≠ endSymbol → Ends input after) : Ends input state := by
  subst stands spelled
  obtain ⟨outcome, consumes⟩ :=
    consumes_of_simulateFrom represents fresh token reaches taken rfl simulated
  refine consumes.ends fun after next => ?_
  subst next
  obtain ⟨idle, pending, cursor⟩ := consumes.frame fresh taken
  exact later after (consumes.reaches reaches) consumes.structuralStates_eq idle pending cursor
    (consumes.ordinary represents knowsNoEnd fresh reaches taken)

theorem ends_of_insertMissing {missing : SymbolId}
    (inserted : state.insertion? input token = some missing)
    (reaches : Reaches input (state.insertMissing input missing token))
    (smaller : ∀ after, Reaches input after →
      after.remaining < ({ state with lookahead := some token } : ParseState).remaining →
        Ends input after) : Ends input (state.insertMissing input missing token) := by
  obtain ⟨between, bridged, accepted⟩ := bridges_of_insertion? inserted
  -- first the missing token is shifted, then the one it was put before
  refine ends_of_simulate represents knowsNoEnd fresh reaches (current_of_lookahead rfl) rfl rfl
    bridged ?_
  intro second reachedSecond states idle pending cursor _
  obtain ⟨final, simulated⟩ := Option.isSome_iff_exists.mp accepted
  have head := (reachedSecond.sound represents rfl fresh).head?_structuralStates
  rw [states] at head
  rw [head] at simulated
  refine ends_of_simulate represents knowsNoEnd fresh reachedSecond
    (current_of_pending idle pending) rfl states simulated ?_
  intro third reachedThird _ idle pending cursorThird ordinary
  refine smaller third reachedThird (remaining_lt ordinary (cursorThird.trans cursor) ?_)
  rw [queue, idle, pending]
  exact Nat.le_refl _

theorem ends_of_popEntries {depth : Nat} (found : state.popDepth? input token = some depth)
    (reaches : Reaches input (state.popEntries input token).2)
    (smaller : ∀ after, Reaches input after →
      after.remaining < ({ state with lookahead := some token } : ParseState).remaining →
        Ends input after) : Ends input (state.popEntries input token).2 := by
  have waits : (state.popEntries input token).2.lookahead =
      some { token with symbol := none } := by
    simp [popEntries, found]
  have pending : (state.popEntries input token).2.pending = state.pending := by
    simp [popEntries, found, push]
  have cursor : (state.popEntries input token).2.cursor = state.cursor := by
    simp [popEntries, found, push]
  obtain ⟨final, simulated⟩ := Option.isSome_iff_exists.mp (accepted_of_popDepth? found)
  have states := structuralStates_popEntries found
  have head := (reaches.sound represents rfl fresh).head?_structuralStates
  rw [← states, head] at simulated
  refine ends_of_simulate represents knowsNoEnd fresh reaches (current_of_lookahead waits) rfl rfl
    simulated ?_
  intro last reachedLast _ idle pendingLast cursorLast ordinary
  refine smaller last reachedLast (remaining_lt ordinary (cursorLast.trans cursor) ?_)
  rw [queue, idle, pendingLast]
  exact Nat.le_of_eq (congrArg ordinaryCount pending)

include progresses

/-- Where everything that has less left to deal with ends, reductions that end lead to an end. -/
theorem ends_of_acc {count : Nat}
    (smaller : ∀ after, Reaches input after → after.remaining < count → Ends input after)
    {symbol : SymbolId} {states : List StateId}
    (acc : Acc (fun after before => input.language.ReducesTo symbol before after) states)
    (reaches : Reaches input state) (taken : state.current input = .ok (token, middle))
    (stands : state.symbolOf input token = symbol) (spelled : state.structuralStates = states)
    (bounded : state.remaining ≤ count) : Ends input state := by
  induction acc generalizing state token middle with
  | intro states _ ih =>
      refine ends_of_step knowsNoEnd progresses fresh fun after stepped => ?_
      have reached := reaches.step stepped
      have sound := reaches.sound represents rfl fresh
      obtain ⟨_, middleSound, stack⟩ := sound.current taken
      have top : middle.topState = state.topState := by simp only [topState, stack]
      obtain ⟨other, rest, same, effect⟩ := effect_of_step fresh stepped
      obtain ⟨rfl, rfl⟩ := Prod.mk.inj (Except.ok.inj (taken.symm.trans same))
      have idle := (current_ok taken).2.1
      -- whatever happens to the token at hand, no more is left than before it was taken
      have left := (remaining_current knowsNoEnd progresses taken).trans bounded
      rw [← remaining_named token (some (state.symbolOf input token))] at left
      cases effect with
      | @shift next action =>
          have ordinary := reaches.ordinary_of_shift represents knowsNoEnd fresh taken action
          have frame : middle.SameBut (middle.shift next (state.symbolOf input token)
            { token with symbol := some (state.symbolOf input token) }) := sameBut_push_token ..
          exact smaller _ reached (Nat.lt_of_lt_of_le (frame.remaining_lt idle ordinary) left)
      | @reduce id production action found =>
          have known : input.language.action middle.topState symbol = .reduce id := by
            rw [top, ← stands, action]
          have reduces := middleSound.reducesTo represents known found
            { token with symbol := some (state.symbolOf input token) }
          rw [structuralStates_eq, stack, ← structuralStates_eq, spelled] at reduces
          refine ih _ reduces reached (current_of_lookahead rfl) stands rfl ?_
          rw [remaining_reduce]
          exact left
      | insert _ inserted =>
          refine ends_of_insertMissing represents knowsNoEnd fresh inserted reached ?_
          exact fun last reachedLast less => smaller last reachedLast (Nat.lt_of_lt_of_le less left)
      | skip _ _ ordinary _ searched whole _ =>
          obtain ⟨⟨_, ahead⟩, _⟩ := findAcceptable_ok searched
          have kept := (ahead.remaining_le knowsNoEnd progresses).trans left
          exact smaller _ reached (Nat.lt_of_lt_of_le (remaining_skipTo_lt ordinary whole) kept)
      | pop _ _ inVain depth =>
          have kept := (inVain.remaining_le knowsNoEnd progresses).trans left
          refine ends_of_popEntries represents knowsNoEnd fresh depth reached ?_
          exact fun last reachedLast less => smaller last reachedLast (Nat.lt_of_lt_of_le less kept)
      | @wrap later _ _ inVain _ ordinary =>
          have kept := (inVain.remaining_le knowsNoEnd progresses).trans left
          obtain ⟨_, ahead⟩ := inVain.readsAhead
          have frame : later.SameBut (later.wrapToken
            { token with symbol := some (state.symbolOf input token) }) := sameBut_push_token ..
          exact smaller _ reached
            (Nat.lt_of_lt_of_le (frame.remaining_lt (ahead.lookahead.trans idle) ordinary) kept)

/-- A parse ends from every state it passes through, if the reductions on every stack do. -/
theorem Reaches.ends
    (ends : ∀ state, Reaches input state → ∀ symbol,
      input.language.ReductionsEnd symbol state.structuralStates)
    (reaches : Reaches input state) : Ends input state := by
  -- on what is left, and for the same token at hand on its reductions
  induction count : state.remaining using Nat.strong_induction_on generalizing state with
  | h count ih =>
      cases taken : state.current input with
      | error fault =>
          refine ends_of_step knowsNoEnd progresses fresh fun after stepped => ?_
          rw [step_eq, taken] at stepped
          cases stepped
      | ok result =>
          have acc := Language.reductionsEnd_iff_acc.mp
            (ends state reaches (state.symbolOf input result.1))
          refine ends_of_acc represents knowsNoEnd progresses fresh ?_ acc reaches taken rfl rfl
            (Nat.le_of_eq count)
          exact fun after reached less => ih after.remaining less reached rfl

end running

end ParseState

open ParseState

/-- A parse without an old tree comes to an end, if no token before the end of the text is
empty and no stack of the parse has an endless chain of reductions on one terminal: after
finitely many steps it returns a tree, whatever recovery does on the way. Only a scanner that
reports a token outside of the text can break it off, which none of the known ones does. -/
theorem fresh_parse_ends {source : Grammar} {scanner : Scanner}
    {grammar : FlatGrammar} {language : Language}
    (flattened : FlatGrammar.ofGrammar source = .ok grammar)
    (loaded : Language.ofGrammar source scanner = .ok language)
    (numbered : language.tables.Numbered) (progresses : language.lexer.Progresses)
    (config : ParseConfig) (text : String)
    (ends : ∀ state, Reaches ⟨language, text.toList, config, []⟩ state → ∀ symbol,
      language.ReductionsEnd symbol state.structuralStates) :
    (∃ limit,
      (∃ root stats, runSteps ⟨language, text.toList, config, []⟩ limit (.initial text.toList) =
        .ok (root, stats)) ∨
      (¬ scanner.Fits ∧ ∃ offset,
        runSteps ⟨language, text.toList, config, []⟩ limit (.initial text.toList) =
          .error (.outsideText offset))) ∧
    (scanner = .noExternals ∨ scanner = OneScript.scanner →
      ∃ limit root stats,
        runSteps ⟨language, text.toList, config, []⟩ limit (.initial text.toList) =
          .ok (root, stats)) := by
  have represents := Language.represents_of_ofGrammar loaded flattened numbered
  have knowsNoEnd := Language.knowsNoEnd_of_ofGrammar loaded
  have known := (Language.ofTables_ok (Language.ofGrammar_ok loaded).2).2.2.2.2
  have started : Reaches ⟨language, text.toList, config, []⟩ (.initial text.toList) := .initial
  obtain ⟨limit, ended⟩ := started.ends represents knowsNoEnd progresses rfl ends
  constructor
  · refine ⟨limit, ended.imp_right ?_⟩
    rintro ⟨fault, ran, ⟨offset, rfl⟩, unfit⟩
    exact ⟨known ▸ unfit, offset, ran⟩
  · intro isKnown
    have fits : language.scanner.Fits := by
      rw [known]
      rcases isKnown with rfl | rfl
      · exact Scanner.fits_noExternals
      · exact OneScript.fits_scanner
    rcases ended with ⟨root, stats, ran⟩ | ⟨fault, _, _, unfit⟩
    · exact ⟨limit, root, stats, ran⟩
    · exact absurd fits unfit

set_option maxRecDepth 10000 in
theorem fresh_parse_ends_of_pair :
    ∃ grammar language, FlatGrammar.ofGrammar pairGrammar = .ok grammar ∧
      Language.ofGrammar pairGrammar .noExternals = .ok language ∧ language.tables.Numbered ∧
      language.lexer.Progresses ∧
      (∀ state, Reaches ⟨language, "b".toList, {}, []⟩ state → ∀ symbol,
        language.ReductionsEnd symbol state.structuralStates) ∧
      ∃ limit root stats,
        runSteps ⟨language, "b".toList, {}, []⟩ limit (.initial "b".toList) =
          .ok (root, stats) := by
  obtain ⟨grammar, language, flattened, loaded, numbered⟩ := pairGrammar_loads
  have represents := Language.represents_of_ofGrammar loaded flattened numbered
  have shown : ((Language.ofGrammar pairGrammar .noExternals).toOption.map fun language =>
      language.lexer.literals.all fun entry => !entry.1.isEmpty) = some true := by cbv
  have progresses : language.lexer.Progresses := by
    refine Lexer.progresses_of_literals fun entry member => ?_
    simp only [loaded, Except.toOption, Option.map_some, Option.some.injEq,
      List.all_eq_true] at shown
    simpa using shown entry member
  have ends : ∀ state, Reaches ⟨language, "b".toList, {}, []⟩ state → ∀ symbol,
      language.ReductionsEnd symbol state.structuralStates := fun state reaches symbol =>
    reaches.reductionsEnd represents rfl (recursionVisible_of_pair flattened) symbol
  exact ⟨grammar, language, flattened, loaded, numbered, progresses, ends,
    (fresh_parse_ends flattened loaded numbered progresses {} "b" ends).2 (.inl rfl)⟩

end Lalr
