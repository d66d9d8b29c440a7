import Lalr.Proofs.Language.Lexer
import Lalr.Proofs.Parser.Missing

set_option autoImplicit false

/-!
Immediate tokens stand right behind the token before them. A token becomes a twin only while it is
dealt with, and then only if nothing lies between it and the token before it; what recovery puts
in, skips or wraps is never a twin.
-/

namespace Lalr

open Lalr.Text

/-! ## Tokens that wait -/

namespace Lexeme

/-- What holds of a token while it waits: it was not read as a twin, and it stands for one only
if it was read right behind the token before it. -/
structure TwinsAdjoin (lexer : Lexer) (lexeme : Lexeme) : Prop where
  kept : lexeme.WellKept
  extras : ∀ leaf ∈ lexeme.extras, leaf.extra = true ∧ lexer.isTwin leaf.symbol = false
  raw : lexer.isTwin lexeme.raw = false
  word : ∀ word, lexeme.word = some word → lexer.isTwin word = false
  symbol : ∀ symbol, lexeme.symbol = some symbol → lexer.isTwin symbol = true →
    lexeme.isAdjacent = true ∧ lexeme.missing = false

namespace TwinsAdjoin

variable {lexer : Lexer} {lexeme : Lexeme}

theorem forget (adjoin : lexeme.TwinsAdjoin lexer) :
    ({ lexeme with symbol := none } : Lexeme).TwinsAdjoin lexer :=
  ⟨adjoin.kept.forget, adjoin.extras, adjoin.raw, adjoin.word, nofun⟩

theorem readAhead (adjoin : lexeme.TwinsAdjoin lexer) : lexeme.readAhead.TwinsAdjoin lexer :=
  ⟨adjoin.kept.readAhead, adjoin.extras, adjoin.raw, adjoin.word, adjoin.symbol⟩

theorem ofMissing {symbol : SymbolId} (ordinary : symbol ≠ endSymbol)
    (other : lexer.isTwin symbol = false) (position : Nat) (mode : ValidExternals) :
    (Lexeme.ofMissing symbol position mode).TwinsAdjoin lexer := by
  refine ⟨⟨fun _ => ⟨rfl, rfl, rfl⟩, fun isEnd => absurd isEnd ordinary, nofun, nofun,
    fun _ same => Option.some.inj same ▸ Iff.rfl⟩, nofun, other, nofun, ?_⟩
  intro stands same isTwin
  obtain rfl := Option.some.inj same
  rw [other] at isTwin
  cases isTwin

theorem readAs {language : Language} (adjoin : lexeme.TwinsAdjoin language.lexer)
    (state : StateId) : language.lexer.isTwin (lexeme.readAs language state) = false := by
  unfold Lexeme.readAs
  split
  case h_1 word isWord =>
      split
      case isTrue => exact adjoin.raw
      case isFalse => exact adjoin.word word isWord
  case h_2 => exact adjoin.raw

/-- A token stands for a twin only right behind the token before it. -/
theorem isAdjacent_of_isTwin {language : Language} (adjoin : lexeme.TwinsAdjoin language.lexer)
    {state : StateId}
    (isTwin : language.lexer.isTwin (resolveSymbol language state lexeme) = true) :
    lexeme.isAdjacent = true := by
  rw [resolveSymbol_eq] at isTwin
  split at isTwin
  case isTrue adjacent => exact adjacent
  case isFalse =>
      rw [adjoin.readAs state] at isTwin
      cases isTwin

theorem named {input : ParseInput} {state : ParseState}
    (adjoin : lexeme.TwinsAdjoin input.language.lexer)
    (knowsNoEnd : input.language.lexer.KnowsNoEnd) (accepts : state.Accepts input lexeme) :
    ({ lexeme with symbol := some (state.symbolOf input lexeme) } : Lexeme).TwinsAdjoin
      input.language.lexer := by
  refine ⟨adjoin.kept.named knowsNoEnd, adjoin.extras, adjoin.raw, adjoin.word, ?_⟩
  intro symbol same isTwin
  obtain rfl := Option.some.inj same
  cases known : lexeme.symbol with
  | some symbol =>
      have stands : state.symbolOf input lexeme = symbol := by simp [ParseState.symbolOf, known]
      exact adjoin.symbol symbol known (stands ▸ isTwin)
  | none =>
      have stands : state.symbolOf input lexeme =
          resolveSymbol input.language state.topState lexeme := by
        simp [ParseState.symbolOf, known]
      refine ⟨adjoin.isAdjacent_of_isTwin (stands ▸ isTwin), ?_⟩
      -- a missing token keeps the symbol that it was put in for
      refine Bool.eq_false_iff.mpr fun missing => ?_
      rw [(accepts missing).1] at known
      cases known

end TwinsAdjoin

end Lexeme

section lexing

variable {language : Language} (finds : language.lexer.FindsNoTwin)

include finds

theorem not_isTwin_of_tokenAt {place : Cursor} {mode : ValidExternals} {examinedEnd : Nat}
    {state : ScannerState} {found : FoundToken}
    (read : tokenAt language place mode examinedEnd state = .ok found) :
    language.lexer.isTwin found.symbol = false := by
  rcases tokenAt_cases read with ⟨_, rfl⟩ | ⟨_, examined, rfl⟩ |
    ⟨_, index, _, _, _, _, _, _, declared, _, rfl⟩
  · exact finds.atEnd
  · unfold regularToken
    split
    case h_1 matched => exact finds.found matched
    case h_2 => split <;> exact finds.error
  · exact finds.external _ (List.mem_of_getElem? declared)

theorem twinsAdjoin_of_lexFrom {start : Nat} {mode : ValidExternals} {limit : Nat}
    {extras : List Leaf} {examinedEnd : Nat} {cursor after : Cursor} {state : ScannerState}
    {lexeme : Lexeme}
    (passed : ∀ leaf ∈ extras, leaf.extra = true ∧ language.lexer.isTwin leaf.symbol = false)
    (kept : lexeme.WellKept) (unnamed : lexeme.symbol = none)
    (read : lexFrom language start mode limit extras examinedEnd cursor state =
      .ok (lexeme, after)) : lexeme.TwinsAdjoin language.lexer := by
  induction limit generalizing extras examinedEnd cursor state with
  | zero => cases read
  | succ limit ih =>
      obtain ⟨found, finding, rest⟩ := exists_of_bind_eq_ok read
      have ordinary := not_isTwin_of_tokenAt finds finding
      split at rest
      case isTrue =>
          refine ih ?_ rest
          intro leaf member
          cases List.mem_cons.mp member with
          | inl same => exact same ▸ ⟨rfl, ordinary⟩
          | inr old => exact passed leaf old
      case isFalse =>
          obtain ⟨rfl, rfl⟩ := Prod.mk.inj (Except.ok.inj rest)
          refine ⟨kept, fun leaf member => passed leaf (List.mem_reverse.mp member), ?_, ?_, ?_⟩
          · dsimp only
            generalize known : (if language.lexer.word = some found.symbol then
              (_ : Option SymbolId) else none) = keyword
            cases keyword with
            | none => exact ordinary
            | some symbol =>
                split at known
                case isFalse => cases known
                case isTrue =>
                    split at known
                    case h_1 => exact finds.keyword known
                    case h_2 => cases known
          · intro word isWord
            obtain ⟨_, _, rfl⟩ := Option.map_eq_some_iff.mp isWord
            exact ordinary
          · intro symbol same
            rw [unnamed] at same
            cases same

theorem ReadInTurn.twinsAdjoin (knowsNoEnd : language.lexer.KnowsNoEnd) {cursor last : Cursor}
    {state final : ScannerState} {lexemes : List Lexeme}
    (inTurn : ReadInTurn language cursor state lexemes last final) :
    ∀ lexeme ∈ lexemes, lexeme.TwinsAdjoin language.lexer := by
  induction inTurn with
  | nil => simp
  | @cons _ _ _ _ _ _ first _ lexed _ ih =>
      intro lexeme member
      cases List.mem_cons.mp member with
      | inl same =>
          have read := readFrom_of_lex knowsNoEnd lexed
          subst same
          exact twinsAdjoin_of_lexFrom finds (by simp) read.wellKept read.symbol lexed
      | inr later => exact ih lexeme later

end lexing

/-! ## Tokens that were taken -/

/-- A token that has been dealt with, the symbol it was taken as, and the state it was met in. -/
structure TakenToken where
  lexeme : Lexeme
  symbol : SymbolId
  state : StateId

namespace TakenToken

/-- The leaves that a token and its extras have become. -/
def leaves (token : TakenToken) : List Leaf :=
  token.lexeme.leavesAs token.symbol token.state

/-- A token that was taken as a twin was read right behind the token before it. -/
structure Adjoins (lexer : Lexer) (token : TakenToken) : Prop where
  kept : token.lexeme.WellKept
  extras : ∀ leaf ∈ token.lexeme.extras, leaf.extra = true ∧ lexer.isTwin leaf.symbol = false
  twin : lexer.isTwin token.symbol = true →
    token.lexeme.isAdjacent = true ∧ token.lexeme.missing = false

theorem adjoins_raw {lexer : Lexer} {lexeme : Lexeme} (adjoin : lexeme.TwinsAdjoin lexer)
    (state : StateId) : Adjoins lexer ⟨lexeme, lexeme.raw, state⟩ := by
  refine ⟨adjoin.kept, adjoin.extras, fun isTwin => ?_⟩
  dsimp only at isTwin
  rw [adjoin.raw] at isTwin
  cases isTwin

end TakenToken

namespace ParseState

variable {input : ParseInput} {grammar : FlatGrammar} {state : ParseState} {log : List Lexeme}

theorem not_isTwin_of_insertion? {token : Lexeme} {symbol : SymbolId}
    (inserted : state.insertion? input token = some symbol) :
    input.language.lexer.isTwin symbol = false := by
  unfold insertion? missingSymbol? at inserted
  split at inserted
  case isFalse => cases inserted
  case isTrue =>
      split at inserted
      case isTrue => cases inserted
      case isFalse =>
          have chosen := List.find?_some inserted
          simp only [Bool.and_eq_true, Bool.not_eq_true'] at chosen
          exact chosen.1.2

/-- The leaves on the stack are those of tokens that were taken one after the other, and behind
these tokens come those that wait. -/
structure Gathers (input : ParseInput) (log : List Lexeme) (state : ParseState) : Prop where
  queue : ∀ lexeme ∈ state.queue, lexeme.TwinsAdjoin input.language.lexer
  taken : ∃ taken : List TakenToken, stackLeaves state.stack = taken.flatMap TakenToken.leaves ∧
    (∀ token ∈ taken, token.Adjoins input.language.lexer) ∧
    log = asRead (taken.map TakenToken.lexeme) ++ asRead state.queue

theorem gathers_initial (input : ParseInput) : (initial input.text).Gathers input [] :=
  ⟨by simp [queue, initial], [], by simp [initial, stackLeaves, Subtree.leavesOf], by simp,
    by simp [queue, initial, asRead]⟩

namespace Gathers

variable {token : Lexeme} {after : ParseState}

/-- The first tokens that wait become leaves behind the stack. -/
theorem consume {consumed : List TakenToken} {rest : List Lexeme}
    (gathers : state.Gathers input log)
    (queue : state.queue = consumed.map TakenToken.lexeme ++ rest)
    (adjoins : ∀ token ∈ consumed, token.Adjoins input.language.lexer)
    (waiting : ∀ lexeme ∈ after.queue, lexeme.TwinsAdjoin input.language.lexer)
    (same : after.queue.map Lexeme.asRead = rest.map Lexeme.asRead)
    (leaves : stackLeaves after.stack =
      stackLeaves state.stack ++ consumed.flatMap TakenToken.leaves) :
    after.Gathers input log := by
  obtain ⟨taken, held, known, split⟩ := gathers.taken
  refine ⟨waiting, taken ++ consumed, ?_, ?_, ?_⟩
  · rw [leaves, held, List.flatMap_append]
  · intro token member
    cases List.mem_append.mp member with
    | inl early => exact known token early
    | inr late => exact adjoins token late
  · have waits : asRead after.queue = asRead rest := by rw [asRead, same]; rfl
    rw [split, queue, waits, List.map_append, asRead_append, asRead_append, List.append_assoc]

theorem of_same (gathers : state.Gathers input log)
    (waiting : ∀ lexeme ∈ after.queue, lexeme.TwinsAdjoin input.language.lexer)
    (same : after.queue.map Lexeme.asRead = state.queue.map Lexeme.asRead)
    (leaves : stackLeaves after.stack = stackLeaves state.stack) : after.Gathers input log := by
  have nothing : state.queue = ([] : List TakenToken).map TakenToken.lexeme ++ state.queue := rfl
  exact gathers.consume nothing (by simp) waiting same (by rw [leaves]; simp)

theorem read {lexemes behind : List Lexeme} (gathers : state.Gathers input log)
    (queue : after.queue = state.queue ++ behind)
    (waiting : ∀ lexeme ∈ behind, lexeme.TwinsAdjoin input.language.lexer)
    (same : asRead behind = lexemes) (stack : after.stack = state.stack) :
    after.Gathers input (log ++ lexemes) := by
  obtain ⟨taken, held, known, split⟩ := gathers.taken
  refine ⟨?_, taken, by rw [stack, held], known, ?_⟩
  · intro lexeme member
    rw [queue] at member
    cases List.mem_append.mp member with
    | inl old => exact gathers.queue lexeme old
    | inr new => exact waiting lexeme new
  · rw [split, queue, asRead_append, same, List.append_assoc]

/-- The token at hand is one that waits, or one that is read now. -/
theorem current (gathers : state.Gathers input log)
    (knowsNoEnd : input.language.lexer.KnowsNoEnd) (finds : input.language.lexer.FindsNoTwin)
    (accepts : state.Accepts input token) (taken : state.current input = .ok (token, after)) :
    ({ after with
        lookahead := some { token with symbol := some (state.symbolOf input token) } } :
          ParseState).Gathers input (log ++ state.readNow token) := by
  obtain ⟨stack, _, whole, inTurn⟩ := current_ok taken
  have held : ({ after with lookahead := some token } : ParseState).Gathers input
      (log ++ state.readNow token) :=
    gathers.read whole (inTurn.twinsAdjoin finds knowsNoEnd) (inTurn.asRead_eq knowsNoEnd).2.1 stack
  refine held.of_same ?_ rfl rfl
  intro lexeme member
  cases List.mem_cons.mp member with
  | inl same => exact same ▸ (held.queue token List.mem_cons_self).named knowsNoEnd accepts
  | inr waits => exact held.queue lexeme (List.mem_cons_of_mem _ waits)

section token

variable (gathers : ({ state with lookahead := some token } : ParseState).Gathers input log)

include gathers

theorem atHand : token.TwinsAdjoin input.language.lexer :=
  gathers.queue token List.mem_cons_self

theorem searched {lexemes : List Lexeme} {later : ParseState}
    (knowsNoEnd : input.language.lexer.KnowsNoEnd) (finds : input.language.lexer.FindsNoTwin)
    (ahead : ReadsAhead input state lexemes later) :
    ({ later with lookahead := some token } : ParseState).Gathers input (log ++ lexemes) := by
  have behind : asRead (lexemes.map Lexeme.readAhead) = lexemes := by
    rw [asRead, map_asRead_readAhead]
    exact (ahead.inTurn.asRead_eq knowsNoEnd).2.1
  refine gathers.read ?_ ?_ behind ahead.stack
  · rw [ParseState.queue, ahead.pending]
    rfl
  · intro lexeme member
    obtain ⟨other, listed, rfl⟩ := List.mem_map.mp member
    exact (ahead.inTurn.twinsAdjoin finds knowsNoEnd other listed).readAhead

/-- A token becomes the leaf of a symbol, which is a twin only where the token may stand for it. -/
theorem consumeToken (symbol : SymbolId) (top : StateId)
    (twin : input.language.lexer.isTwin symbol = true →
      token.isAdjacent = true ∧ token.missing = false)
    (waiting : ∀ lexeme ∈ after.queue, lexeme.TwinsAdjoin input.language.lexer)
    (idle : after.lookahead = none) (pending : after.pending = state.pending)
    (leaves : stackLeaves after.stack = stackLeaves state.stack ++ token.leavesAs symbol top) :
    after.Gathers input log := by
  have whole : ({ state with lookahead := some token } : ParseState).queue =
      [TakenToken.mk token symbol top].map TakenToken.lexeme ++ state.pending := rfl
  have queue : after.queue = state.pending := by
    rw [ParseState.queue, idle, pending]
    rfl
  refine gathers.consume whole ?_ waiting (by rw [queue]) (by simpa [TakenToken.leaves] using leaves)
  intro taken member
  obtain rfl := List.mem_singleton.mp member
  exact ⟨gathers.atHand.kept, gathers.atHand.extras, twin⟩

theorem skipTo {skipped pending : List Lexeme} {next : Lexeme}
    (whole : state.pending = skipped ++ next :: pending)
    (waiting : ∀ lexeme ∈ (state.skipTo token skipped next pending).queue,
      lexeme.TwinsAdjoin input.language.lexer) :
    (state.skipTo token skipped next pending).Gathers input log := by
  have queue : ({ state with lookahead := some token } : ParseState).queue =
      ((token :: skipped).map fun lexeme => TakenToken.mk lexeme lexeme.raw state.topState).map
        TakenToken.lexeme ++ next :: pending := by
    have alone : (token :: skipped).map (TakenToken.lexeme ∘ fun lexeme =>
        TakenToken.mk lexeme lexeme.raw state.topState) = token :: skipped :=
      List.map_id _
    rw [List.map_map, alone, List.cons_append, ← whole]
    rfl
  refine gathers.consume queue ?_ waiting rfl ?_
  · intro taken member
    obtain ⟨lexeme, listed, rfl⟩ := List.mem_map.mp member
    refine TakenToken.adjoins_raw (gathers.queue lexeme ?_) _
    cases List.mem_cons.mp listed with
    | inl same => exact same ▸ List.mem_cons_self
    | inr inside =>
        have waits : lexeme ∈ state.pending := by
          rw [whole]
          exact List.mem_append_left _ inside
        exact List.mem_cons_of_mem _ waits
  · have children : (Subtree.ofError (.leaf (token.toLeaf token.raw state.topState) ::
        skipped.flatMap (skippedSubtrees state.topState))).leaves =
          token.toLeaf token.raw state.topState ::
            skipped.flatMap fun lexeme => lexeme.leavesAs lexeme.raw state.topState :=
      congrArg _ (leavesOf_skippedSubtrees state.topState skipped)
    refine (leaves_push_token state.topState children).trans ?_
    rw [List.flatMap_map]
    rfl

theorem insertMissing {symbol : SymbolId}
    (waiting : ∀ lexeme ∈ (state.insertMissing input symbol token).queue,
      lexeme.TwinsAdjoin input.language.lexer) :
    (state.insertMissing input symbol token).Gathers input log := by
  obtain ⟨taken, held, known, split⟩ := gathers.taken
  exact ⟨waiting, taken, held, known, split⟩

theorem popEntries {depth : Nat} (found : state.popDepth? input token = some depth)
    (waiting : ∀ lexeme ∈ (state.popEntries input token).2.queue,
      lexeme.TwinsAdjoin input.language.lexer) :
    (state.popEntries input token).2.Gathers input log := by
  obtain ⟨taken, below, shape, popping, _⟩ := popStructural_spec [] depth state.stack
  rw [List.append_nil] at popping
  simp only [ParseState.popEntries, found, popping] at waiting ⊢
  refine gathers.of_same waiting rfl ?_
  refine (leaves_push _ _).trans ?_
  rw [shape, stackLeaves_append]
  rfl

/-- What a search that was made, or not made, in vain has read waits too. -/
theorem searchedInVain {later : ParseState} (knowsNoEnd : input.language.lexer.KnowsNoEnd)
    (finds : input.language.lexer.FindsNoTwin) (idle : state.lookahead = none)
    (notInserted : state.insertion? input token = none)
    (inVain : SearchedInVain input state token later) :
    ({ later with lookahead := some token } : ParseState).Gathers input
        (log ++ state.readAhead input token) ∧ later.lookahead = none := by
  cases inVain with
  | inl unsearched =>
      obtain ⟨pointless, rfl⟩ := unsearched
      have nothing : later.readAhead input token = [] := by
        cases pointless with
        | inl atEnd => simp [ParseState.readAhead, atEnd]
        | inr none_ => simp [ParseState.readAhead, none_]
      rw [nothing, List.append_nil]
      exact ⟨gathers, idle⟩
  | inr made =>
      obtain ⟨ordinary, some_, searched⟩ := made
      have ahead := readsAhead_of_search knowsNoEnd notInserted ordinary some_ searched
      exact ⟨gathers.searched knowsNoEnd finds ahead, ahead.lookahead.trans idle⟩

end token

/-- A step reads on and takes tokens as twins only right behind the tokens before them. -/
theorem step (gathers : state.Gathers input log)
    (knowsNoEnd : input.language.lexer.KnowsNoEnd) (finds : input.language.lexer.FindsNoTwin)
    (represents : input.language.tables.Represents grammar)
    (missing : state.AcceptsMissing input) (fresh : input.reuse = [])
    (stepped : state.step input = .ok (.next after)) :
    after.Gathers input (log ++ state.readBy input) := by
  obtain ⟨token, middle, taken, effect⟩ := effect_of_step fresh stepped
  have idle := (current_ok taken).2.1
  have held := gathers.current knowsNoEnd finds (missing.current knowsNoEnd taken).2 taken
  have recovers := fun lacks => readBy_of_lacks taken lacks
  have waiting : ∀ lexeme ∈ after.queue, lexeme.TwinsAdjoin input.language.lexer := by
    refine forall_queue_of_effect idle held.queue (fun _ => Lexeme.TwinsAdjoin.forget) ?_ ?_ effect
    · intro symbol inserted
      have ordinary := missingSymbol?_ne_end represents.terminalCount_le inserted
      exact .ofMissing ordinary (not_isTwin_of_insertion? inserted) _ _
    · intro read later reads lexeme member
      exact (reads.inTurn.twinsAdjoin finds knowsNoEnd lexeme member).readAhead
  cases effect with
  | @shift next action =>
      have read : state.readBy input = state.readNow token := by simp [readBy, taken, action]
      have frame : middle.SameBut (middle.shift next (state.symbolOf input token)
        { token with symbol := some (state.symbolOf input token) }) := sameBut_push_token ..
      have alone : (Subtree.leaf (({ token with symbol := some (state.symbolOf input token) } :
          Lexeme).toLeaf (state.symbolOf input token) middle.topState)).leaves = _ :: [] := rfl
      rw [read]
      refine held.consumeToken (state.symbolOf input token) middle.topState
        (held.atHand.symbol _ rfl) waiting (frame.lookahead.trans idle) frame.pending ?_
      rw [ParseState.shift, leaves_push_token next alone, List.append_nil]
  | @reduce id production action found =>
      have read : state.readBy input = state.readNow token := by
        simp [readBy, taken, action, found]
      have frame := middle.sameBut_reduce input id production
        { token with symbol := some (state.symbolOf input token) }
      rw [read]
      refine held.of_same waiting ?_ (leaves_reduce input id production _)
      rw [ParseState.queue, frame.pending]
      rfl
  | insert lacks inserted =>
      have read : middle.readAhead input
          { token with symbol := some (state.symbolOf input token) } = [] := by
        simp [readAhead, inserted]
      rw [recovers lacks, read, List.append_nil]
      exact held.insertMissing waiting
  | skip lacks notInserted ordinary some_ searched whole _ =>
      have ahead := readsAhead_of_search knowsNoEnd notInserted ordinary some_ searched
      rw [recovers lacks, ← List.append_assoc]
      exact (held.searched knowsNoEnd finds ahead).skipTo whole waiting
  | pop lacks notInserted inVain depth =>
      rw [recovers lacks, ← List.append_assoc]
      exact (held.searchedInVain knowsNoEnd finds idle notInserted inVain).1.popEntries depth
        waiting
  | @wrap later lacks notInserted inVain _ ordinary =>
      obtain ⟨searched, idle⟩ := held.searchedInVain knowsNoEnd finds idle notInserted inVain
      have frame : later.SameBut (later.wrapToken
        { token with symbol := some (state.symbolOf input token) }) := sameBut_push_token ..
      have alone : (Subtree.ofError [.leaf (({ token with
          symbol := some (state.symbolOf input token) } : Lexeme).toLeaf token.raw
            later.topState)]).leaves = _ :: [] := rfl
      rw [recovers lacks, ← List.append_assoc]
      refine searched.consumeToken token.raw later.topState
        (TakenToken.adjoins_raw searched.atHand later.topState).twin waiting
        (frame.lookahead.trans idle) frame.pending ?_
      rw [ParseState.wrapToken, leaves_push_token _ alone, List.append_nil]

end Gathers

/-! ## The end of a parse -/

/-- The leaves of a tree are those of the tokens that were taken and, behind them, the extras
before the end of the input, which was read after all these tokens. -/
def GathersAll (input : ParseInput) (log : List Lexeme) (root : Subtree) : Prop :=
  ∃ (taken : List TakenToken) (extras : List Leaf) (rest : List Lexeme),
    root.leaves = taken.flatMap TakenToken.leaves ++ extras ∧
    (∀ leaf ∈ extras, leaf.extra = true ∧ input.language.lexer.isTwin leaf.symbol = false) ∧
    (∀ token ∈ taken, token.Adjoins input.language.lexer) ∧
    log = asRead (taken.map TakenToken.lexeme) ++ rest ∧ rest ≠ []

namespace Gathers

theorem gathersAll {token : Lexeme} {root : Subtree}
    (gathers : ({ state with lookahead := some token } : ParseState).Gathers input log)
    (atEnd : token.raw = endSymbol)
    (leaves : root.leaves = stackLeaves state.stack ++ token.extras) :
    GathersAll input log root := by
  obtain ⟨taken, held, known, split⟩ := gathers.taken
  refine ⟨taken, token.extras, _, ?_, gathers.atHand.extras, known, split, ?_⟩
  · rw [leaves]
    exact congrArg (· ++ token.extras) held
  · have present := gathers.atHand.kept.real atEnd
    simp [ParseState.queue, asRead, Lexeme.asRead, present]

theorem done (gathers : state.Gathers input log) (sound : state.Sound input.language grammar)
    (knowsNoEnd : input.language.lexer.KnowsNoEnd) (finds : input.language.lexer.FindsNoTwin)
    (represents : input.language.tables.Represents grammar)
    (missing : state.AcceptsMissing input) (fresh : input.reuse = []) {root : Subtree}
    {stats : ParseStats} (stepped : state.step input = .ok (.done root stats)) :
    GathersAll input (log ++ state.readBy input) root := by
  obtain ⟨token, middle, taken, effect⟩ := effect_of_step fresh stepped
  obtain ⟨_, middleSound, stack⟩ := sound.current taken
  have held := gathers.current knowsNoEnd finds (missing.current knowsNoEnd taken).2 taken
  cases effect with
  | accept action =>
      have read : state.readBy input = state.readNow token := by simp [readBy, taken, action]
      have isEnd := represents.eq_end_of_accept action
      have top : middle.topState = state.topState := by simp only [topState, stack]
      rw [← top] at action
      rw [read]
      exact held.gathersAll ((held.atHand.kept.symbol _ rfl).mp isEnd)
        (middleSound.leaves_accept input represents _ action)
  | wrapAll lacks notInserted _ atEnd =>
      have rawEnd : token.raw = endSymbol := atEnd
      have read : middle.readAhead input
          { token with symbol := some (state.symbolOf input token) } = [] := by
        simp [ParseState.readAhead, rawEnd]
      rw [readBy_of_lacks taken lacks, read, List.append_nil]
      exact held.gathersAll atEnd (leaves_wrapAll input _)

theorem run {limit : Nat} {root : Subtree} {stats : ParseStats}
    (gathers : state.Gathers input log) (reaches : Reaches input state)
    (knowsNoEnd : input.language.lexer.KnowsNoEnd) (finds : input.language.lexer.FindsNoTwin)
    (represents : input.language.tables.Represents grammar) (fresh : input.reuse = [])
    (ran : runSteps input limit state = .ok (root, stats)) :
    GathersAll input (log ++ runReads input limit state) root := by
  induction limit generalizing state log with
  | zero => cases ran
  | succ limit ih =>
      have missing := reaches.acceptsMissing represents knowsNoEnd fresh
      unfold runSteps at ran
      rw [runReads]
      cases stepped : state.step input with
      | error fault =>
          rw [stepped] at ran
          cases ran
      | ok outcome =>
          rw [stepped] at ran
          cases outcome with
          | done root stats =>
              obtain ⟨rfl, rfl⟩ := Prod.mk.inj (Except.ok.inj ran)
              rw [List.append_nil]
              exact gathers.done (reaches.sound represents rfl fresh) knowsNoEnd finds represents
                missing fresh stepped
          | next after =>
              rw [← List.append_assoc]
              exact ih (gathers.step knowsNoEnd finds represents missing fresh stepped)
                (reaches.step stepped) ran

end Gathers

end ParseState

/-! ## The leaves of a tree -/

namespace TakenToken

variable {lexer : Lexer} {taken : List TakenToken}

/-- A leaf that stands for a twin is the leaf of a token, with the extras of this token and all
tokens before it in front of it. -/
theorem exists_of_isTwin {extras before after : List Leaf} {leaf : Leaf}
    (adjoins : ∀ token ∈ taken, token.Adjoins lexer)
    (ordinary : ∀ leaf ∈ extras, leaf.extra = true ∧ lexer.isTwin leaf.symbol = false)
    (whole : taken.flatMap leaves ++ extras = before ++ leaf :: after)
    (isTwin : lexer.isTwin leaf.symbol = true) :
    ∃ front token behind, taken = front ++ token :: behind ∧
      before = front.flatMap leaves ++ token.lexeme.extras ∧
      leaf = token.lexeme.toLeaf token.symbol token.state := by
  have other : ∀ {leaves : List Leaf},
      (∀ leaf ∈ leaves, leaf.extra = true ∧ lexer.isTwin leaf.symbol = false) →
        leaf ∉ leaves := by
    intro leaves known member
    rw [(known leaf member).2] at isTwin
    cases isTwin
  induction taken generalizing before with
  | nil =>
      refine absurd ?_ (other ordinary)
      rw [List.flatMap_nil, List.nil_append] at whole
      rw [whole]
      exact List.mem_append_right _ List.mem_cons_self
  | cons token taken ih =>
      have here := adjoins token List.mem_cons_self
      have later := fun token member => adjoins token (List.mem_cons_of_mem _ member)
      rw [List.flatMap_cons, List.append_assoc] at whole
      have behind : ∀ {rest}, before = token.leaves ++ rest →
          taken.flatMap leaves ++ extras = rest ++ leaf :: after →
          ∃ front last others, token :: taken = front ++ last :: others ∧
            before = front.flatMap leaves ++ last.lexeme.extras ∧
            leaf = last.lexeme.toLeaf last.symbol last.state := by
        intro rest front rest_whole
        obtain ⟨others, last, behind, rfl, rfl, same⟩ := ih later rest_whole
        refine ⟨token :: others, last, behind, rfl, ?_, same⟩
        rw [front, List.flatMap_cons, List.append_assoc]
      cases List.append_eq_append_iff.mp whole with
      | inl after_token =>
          obtain ⟨rest, front, rest_whole⟩ := after_token
          exact behind front rest_whole
      | inr within =>
          obtain ⟨rest, front, rest_whole⟩ := within
          cases rest with
          | nil =>
              rw [List.append_nil] at front
              exact @behind [] (by rw [front, List.append_nil]) rest_whole.symm
          | cons first rest =>
              obtain ⟨rfl, _⟩ := List.cons.inj rest_whole
              rw [leaves, Lexeme.leavesAs] at front
              -- the leaf is no extra of the token, so it is the last of its leaves
              cases List.eq_nil_or_concat rest with
              | inl alone =>
                  subst alone
                  obtain ⟨same, last⟩ := List.append_inj' front rfl
                  refine ⟨[], token, taken, rfl, same.symm, ?_⟩
                  exact (List.singleton_inj.mp last).symm
              | inr more =>
                  obtain ⟨inside, last, rfl⟩ := more
                  rw [List.concat_eq_append, ← List.cons_append, ← List.append_assoc] at front
                  have same := (List.append_inj' front rfl).1
                  refine absurd ?_ (other here.extras)
                  rw [same]
                  exact List.mem_append_right _ List.mem_cons_self

/-- The leaf of a token ends each row of leaves, if the token was read. -/
theorem extra_getLast?_eq_false (adjoins : ∀ token ∈ taken, token.Adjoins lexer) {last : Leaf}
    (isLast : ((taken.flatMap leaves).filter fun leaf => !leaf.missing).getLast? = some last) :
    last.extra = false := by
  induction taken using List.reverseRecOn with
  | nil => cases isLast
  | append_singleton taken token ih =>
      have here := adjoins token (by simp)
      have before := fun token member => adjoins token (List.mem_append_left _ member)
      rw [List.flatMap_append, List.flatMap_singleton, leaves, Lexeme.leavesAs,
        ← List.append_assoc, List.filter_append] at isLast
      cases missing : token.lexeme.missing with
      | true =>
          obtain ⟨_, _, none_before⟩ := here.kept.missing missing
          have dropped : [token.lexeme.toLeaf token.symbol token.state].filter
              (fun leaf => !leaf.missing) = [] := by simp [Lexeme.toLeaf, missing]
          rw [none_before, dropped, List.append_nil, List.append_nil] at isLast
          exact ih before isLast
      | false =>
          have read : [token.lexeme.toLeaf token.symbol token.state].filter
              (fun leaf => !leaf.missing) = [token.lexeme.toLeaf token.symbol token.state] := by
            simp [Lexeme.toLeaf, missing]
          rw [read, List.getLast?_concat] at isLast
          exact Option.some.inj isLast ▸ rfl

/-- The leaves of tokens have the shapes of the tokens that were read. -/
theorem solidShapes_leaves (adjoins : ∀ token ∈ taken, token.Adjoins lexer) :
    solidShapes (taken.flatMap leaves) =
      (asRead (taken.map TakenToken.lexeme)).flatMap Lexeme.shapes := by
  induction taken with
  | nil => rfl
  | cons token taken ih =>
      have here := (adjoins token List.mem_cons_self).kept
      have rest := ih fun token member => adjoins token (List.mem_cons_of_mem _ member)
      rw [List.flatMap_cons, solidShapes_append, rest, leaves, here.solidShapes_leavesAs,
        List.map_cons]
      cases missing : token.lexeme.missing with
      | true => simp [asRead, Lexeme.asRead, missing]
      | false => simp [asRead, Lexeme.asRead, missing, Lexeme.shapes]

/-- A token without extras was read at the end of the leaves in front of its own, if the leaves
are the pieces that were read. -/
theorem token_eq_of_pieces {token : TakenToken} {after : List Leaf} {behind : List Lexeme}
    (adjoins : ∀ token ∈ taken, token.Adjoins lexer)
    (ordinary : ∀ lexeme ∈ asRead (taken.map TakenToken.lexeme) ++ [token.lexeme.asRead],
      lexeme.raw ≠ endSymbol ∧ lexeme.WellKept)
    (present : token.lexeme.missing = false) (alone : token.lexeme.extras = [])
    (whole : piecesFrom 0 (taken.flatMap leaves ++
        token.lexeme.toLeaf token.symbol token.state :: after) =
      (asRead (taken.map TakenToken.lexeme) ++ token.lexeme.asRead :: behind).flatMap
        Lexeme.pieces) :
    token.lexeme.token = ⟨extent (taken.flatMap leaves), token.lexeme.padding,
      token.lexeme.size, token.lexeme.raw⟩ := by
  have front : (asRead (taken.map TakenToken.lexeme)).flatMap Lexeme.shapes =
      ((asRead (taken.map TakenToken.lexeme)).flatMap Lexeme.pieces).map Piece.shape := by
    rw [List.map_flatMap]
    refine List.flatMap_congr fun lexeme member => ?_
    obtain ⟨notEnd, kept⟩ := ordinary lexeme (List.mem_append_left _ member)
    rw [Lexeme.shapes_pieces kept.extras, if_neg notEnd]
  have lengths : (piecesFrom 0 (taken.flatMap leaves)).length =
      ((asRead (taken.map TakenToken.lexeme)).flatMap Lexeme.pieces).length := by
    have shapes := (shapes_piecesFrom 0 (taken.flatMap leaves)).trans
      ((solidShapes_leaves adjoins).trans front)
    simpa using congrArg List.length shapes
  have notEnd := (ordinary token.lexeme.asRead (by simp)).1
  have own : token.lexeme.asRead.pieces = [token.lexeme.token] := by
    simp only [Lexeme.pieces, Lexeme.asRead, alone] at notEnd ⊢
    rw [if_neg notEnd]
    rfl
  rw [piecesFrom_append, List.flatMap_append, List.flatMap_cons, own, piecesFrom] at whole
  have behindFront := (List.append_inj whole lengths).2
  simp only [Lexeme.toLeaf, present, Nat.zero_add] at behindFront
  exact (List.cons.inj behindFront).1.symm

end TakenToken

open ParseState

/-- Immediate tokens stand right behind the token before them, whatever recovery has done. A leaf
whose symbol is an immediate twin is no missing token, has no blank space before it, and the
last leaf before it that was read is no extra; it is the token that was read, without extras, at
the end of the leaf before it. -/
theorem twins_adjoin_of_fresh_parse {source : Grammar} {scanner : Scanner}
    {grammar : FlatGrammar} {language : Language}
    (flattened : FlatGrammar.ofGrammar source = .ok grammar)
    (loaded : Language.ofGrammar source scanner = .ok language)
    (numbered : language.tables.Numbered) {config : ParseConfig} {text : String} {number : Nat}
    {tree : Tree} {stats : ParseStats}
    (parsed : (Parser.mk config (some ⟨number, language⟩)).parse text none = .ok (tree, stats))
    {before after : List Leaf} {leaf : Leaf}
    (split : tree.root.leaves = before ++ leaf :: after)
    (isTwin : language.lexer.isTwin leaf.symbol = true) :
    leaf.missing = false ∧ leaf.padding = 0 ∧
      (∀ last, (before.filter fun other => !other.missing).getLast? = some last →
        last.extra = false) ∧
      ∃ lexeme ∈ (ParseInput.mk language text.toList config []).lexemesRead,
        lexeme.extras = [] ∧ lexeme.token = ⟨extent before, 0, leaf.size, leaf.raw⟩ := by
  have represents := Language.represents_of_ofGrammar loaded flattened numbered
  have knowsNoEnd := Language.knowsNoEnd_of_ofGrammar loaded
  have finds := Language.findsNoTwin_of_ofGrammar loaded
  obtain ⟨root, ran, rfl⟩ := Parser.parse_ok parsed
  obtain ⟨taken, extras, rest, leaves, extrasOnly, adjoins, log, more⟩ :=
    (gathers_initial ⟨language, text.toList, config, []⟩).run .initial knowsNoEnd finds represents
      rfl ran
  obtain ⟨tokens, last, read, ordinary, kept, pieces⟩ := pieces_of_run represents knowsNoEnd rfl ran
  obtain ⟨front, token, behind, rfl, rfl, rfl⟩ :=
    TakenToken.exists_of_isTwin adjoins extrasOnly (leaves.symm.trans split) isTwin
  have here := adjoins token (by simp)
  have adjoinsFront := fun other member => adjoins other (List.mem_append_left _ member)
  obtain ⟨adjacent, present⟩ := here.twin isTwin
  obtain ⟨noExtras, noPadding⟩ := Bool.and_eq_true_iff.mp adjacent
  have alone : token.lexeme.extras = [] := List.isEmpty_iff.mp noExtras
  have padding : token.lexeme.padding = 0 := eq_of_beq noPadding
  -- the token was read behind those in front of it and before the end of the input
  have listed : (ParseInput.mk language text.toList config []).lexemesRead =
      asRead (front.map TakenToken.lexeme) ++ token.lexeme.asRead ::
        (asRead (behind.map TakenToken.lexeme) ++ rest) := by
    refine (show _ = _ from log).trans ?_
    simp [asRead, Lexeme.asRead, present]
  have known : ∀ lexeme ∈ asRead (front.map TakenToken.lexeme) ++ [token.lexeme.asRead],
      lexeme.raw ≠ endSymbol ∧ lexeme.WellKept := by
    obtain ⟨others, final, later⟩ := (List.eq_nil_or_concat
      (asRead (behind.map TakenToken.lexeme) ++ rest)).resolve_left (by simp [more])
    have whole := listed.symm.trans read
    rw [later, List.concat_eq_append, ← List.cons_append, ← List.append_assoc] at whole
    have inside := (List.append_inj' whole rfl).1
    intro lexeme member
    have early : lexeme ∈ tokens := by
      rw [← inside, List.append_cons]
      exact List.mem_append_left _ member
    exact ⟨ordinary lexeme early, kept lexeme (read ▸ List.mem_append_left _ early)⟩
  rw [alone, List.append_nil] at split ⊢
  refine ⟨present, padding, fun last => TakenToken.extra_getLast?_eq_false adjoinsFront,
    token.lexeme.asRead, ?_, alone, ?_⟩
  · rw [listed]
    exact List.mem_append_right _ List.mem_cons_self
  · rw [split, listed] at pieces
    have placed := TakenToken.token_eq_of_pieces adjoinsFront known present alone pieces
    rw [padding] at placed
    exact placed

/-- The grammar of an `a` with a `b` right behind it. -/
def adjoiningGrammar : Grammar :=
  ⟨{ name := "adjoining"
     rules := [("start", .seq [.literal "a", .immediate (.literal "b")])] }, by decide⟩

set_option maxRecDepth 10000 in
/-- In `? a?b` recovery skips a character on both sides of the `a`, and the `b` still stands right
behind the token before it. -/
theorem twin_adjoins_behind_skipped :
    ∃ grammar language tree stats before leaf,
      FlatGrammar.ofGrammar adjoiningGrammar = .ok grammar ∧
      Language.ofGrammar adjoiningGrammar .noExternals = .ok language ∧
      language.tables.Numbered ∧
      (Parser.mk {} (some ⟨0, language⟩)).parse "? a?b" none = .ok (tree, stats) ∧
      tree.root.leaves = before ++ [leaf] ∧ language.lexer.isTwin leaf.symbol = true ∧
      leaf.missing = false ∧ leaf.padding = 0 ∧
      (∀ last, (before.filter fun other => !other.missing).getLast? = some last →
        last.extra = false) ∧
      ∃ lexeme ∈ (ParseInput.mk language "? a?b".toList {} []).lexemesRead,
        lexeme.extras = [] ∧ lexeme.token = ⟨extent before, 0, leaf.size, leaf.raw⟩ := by
  have shown : ((Language.ofGrammar adjoiningGrammar .noExternals).toOption.bind fun language =>
      ((Parser.mk {} (some ⟨0, language⟩)).parse "? a?b" none).toOption.map fun result =>
        (result.1.root.leaves.map fun leaf => language.lexer.isTwin leaf.symbol,
          language.tables.lexModes.size, language.tables.productions.size)) =
      some ([false, false, false, true], 4, 1) := by cbv
  cases loaded : Language.ofGrammar adjoiningGrammar .noExternals with
  | error failure => simp [loaded, Except.toOption] at shown
  | ok language =>
      simp only [loaded, Except.toOption, Option.bind_some] at shown
      cases parsed : (Parser.mk {} (some ⟨0, language⟩)).parse "? a?b" none with
      | error failure => simp [parsed] at shown
      | ok result =>
          obtain ⟨tree, stats⟩ := result
          simp only [parsed, Option.map_some, Option.some.injEq, Prod.mk.injEq] at shown
          obtain ⟨twins, modes, productions⟩ := shown
          obtain ⟨grammar, flattened, _⟩ :=
            LanguageTables.generate_ok (Language.ofGrammar_ok loaded).1
          have numbered : language.tables.Numbered :=
            ⟨by simp [modes, UInt32.size], by simp [productions, UInt32.size]⟩
          obtain ⟨before, leaf, leaves⟩ := (List.eq_nil_or_concat tree.root.leaves).resolve_left
            (by intro none_; simp [none_] at twins)
          rw [List.concat_eq_append] at leaves
          have isTwin : language.lexer.isTwin leaf.symbol = true := by
            have last := congrArg List.getLast? twins
            simpa [leaves] using last
          exact ⟨grammar, language, tree, stats, before, leaf, flattened, rfl, numbered, parsed,
            leaves, isTwin,
            twins_adjoin_of_fresh_parse flattened loaded numbered parsed leaves isTwin⟩

end Lalr
