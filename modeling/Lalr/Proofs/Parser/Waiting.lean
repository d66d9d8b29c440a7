import Lalr.Proofs.Parser.Missing
import Lalr.Proofs.Parser.Replay
import Lalr.Proofs.Parser.Termination

set_option autoImplicit false

/-!
Tokens at hand. Where a token at hand was read when it was needed and is not missing, no tokens
wait behind it that were; so the token behind it is read in the state that it leads to, or is one of
those that were read ahead. Every token that is not missing stands where the stack ends.
-/

namespace Lalr

open Lalr.Text

theorem ReadInTurn.split {language : Language} {cursor last : Cursor}
    {scanner final : ScannerState} {early late : List Lexeme}
    (inTurn : ReadInTurn language cursor scanner (early ++ late) last final) :
    ∃ middle between, ReadInTurn language cursor scanner early middle between ∧
      ReadInTurn language middle between late last final := by
  induction early generalizing cursor scanner with
  | nil => exact ⟨cursor, scanner, .nil _ _, inTurn⟩
  | cons lexeme early ih =>
      cases inTurn with
      | cons read rest =>
          obtain ⟨middle, between, first, second⟩ := ih rest
          exact ⟨middle, between, .cons read first, second⟩

theorem Lexeme.standsRight_of_none {language : Language} {lexeme : Lexeme}
    (unnamed : lexeme.symbol = none) : lexeme.StandsRight language := by
  intro symbol named
  rw [unnamed] at named
  cases named

theorem ReadInTurn.standsRight {language : Language} (knowsNoEnd : language.lexer.KnowsNoEnd)
    {cursor last : Cursor} {scanner final : ScannerState} {lexemes : List Lexeme}
    (inTurn : ReadInTurn language cursor scanner lexemes last final) :
    ∀ lexeme ∈ lexemes, lexeme.StandsRight language := by
  induction inTurn with
  | nil => exact nofun
  | cons read _ ih =>
      intro lexeme member
      rcases List.mem_cons.mp member with rfl | later
      · refine Lexeme.standsRight_of_none ?_
        rw [← asRead_of_lex knowsNoEnd read]
        rfl
      · exact ih lexeme later

namespace ParseState

open StackEntry

variable {input : ParseInput} {grammar : FlatGrammar} {state middle after : ParseState}
  {token : Lexeme}

/-- Tokens that wait were read ahead, but for the one before which a missing token is put in. -/
structure Waits (state : ParseState) : Prop where
  pending : ∀ lexeme ∈ state.pending.tail, lexeme.fresh = false
  lookahead : ∀ token, state.lookahead = some token → token.missing = false →
    ∀ lexeme ∈ state.pending, lexeme.fresh = false

theorem waits_initial (input : ParseInput) : (initial input.text).Waits where
  pending := by simp [initial]
  lookahead := nofun

namespace Waits

theorem current (waits : state.Waits) (taken : state.current input = .ok (token, middle)) :
    (∀ lexeme ∈ middle.pending.tail, lexeme.fresh = false) ∧
      (token.missing = false → ∀ lexeme ∈ middle.pending, lexeme.fresh = false) := by
  obtain ⟨_, _, whole, _⟩ := current_ok taken
  cases ahead : state.lookahead with
  | some held =>
      have nothing : state.readNow token = [] := by simp [readNow, ahead]
      rw [ahead, nothing, List.append_nil] at whole
      obtain ⟨rfl, same⟩ := List.cons.inj whole
      exact ⟨same ▸ waits.pending, same ▸ waits.lookahead token ahead⟩
  | none =>
      have all : ∀ lexeme ∈ middle.pending, lexeme.fresh = false := by
        cases waiting : state.pending with
        | nil =>
            rw [ahead, waiting] at whole
            have alone : middle.pending = [] := by
              simpa [readNow, ahead, waiting] using whole
            simp [alone]
        | cons first rest =>
            have nothing : state.readNow token = [] := by simp [readNow, waiting]
            rw [ahead, waiting, nothing] at whole
            have same : middle.pending = rest := by simpa using (List.cons.inj whole).2
            have behind := waits.pending
            rwa [waiting, List.tail_cons, ← same] at behind
      exact ⟨fun lexeme member => all lexeme (List.mem_of_mem_tail member), fun _ => all⟩

theorem step (waits : state.Waits) (known : state.AcceptsMissing input)
    (sound : state.Sound input.language grammar)
    (knowsNoEnd : input.language.lexer.KnowsNoEnd) (fresh : input.reuse = [])
    (stepped : state.step input = .ok (.next after)) : after.Waits := by
  obtain ⟨token, middle, taken, effect⟩ := effect_of_step fresh stepped
  obtain ⟨behind, all⟩ := waits.current taken
  have idle := (current_ok taken).2.1
  have ahead := fun lacks => all (known.present_of_lacks sound knowsNoEnd taken lacks)
  have searched : ∀ {read later}, ReadsAhead input middle read later →
      LacksAction input.language state.topState (state.symbolOf input token) →
      ∀ lexeme ∈ later.pending, lexeme.fresh = false :=
    fun reads lacks => reads.forall_pending (ahead lacks) fun _ _ => rfl
  cases effect with
  | @shift next action =>
      have frame : middle.SameBut (middle.shift next (state.symbolOf input token)
        { token with symbol := some (state.symbolOf input token) }) := sameBut_push_token ..
      refine ⟨frame.pending ▸ behind, fun other held => ?_⟩
      rw [frame.lookahead, idle] at held
      cases held
  | @reduce id production action found =>
      have frame := middle.sameBut_reduce input id production
        { token with symbol := some (state.symbolOf input token) }
      refine ⟨frame.pending ▸ behind, fun other held present => ?_⟩
      obtain rfl := Option.some.inj held
      exact frame.pending ▸ all present
  | insert lacks inserted =>
      refine ⟨ahead lacks, fun other held present => ?_⟩
      obtain rfl := Option.some.inj held
      cases present
  | @skip later skipped next pending lacks _ _ _ found whole _ =>
      obtain ⟨⟨_, reads⟩, _⟩ := findAcceptable_ok found
      have others := searched reads lacks
      rw [whole] at others
      have left : ∀ lexeme ∈ pending, lexeme.fresh = false :=
        fun lexeme member => others lexeme (by simp [member])
      exact ⟨fun lexeme member => left lexeme (List.mem_of_mem_tail member), fun _ _ _ => left⟩
  | @pop later depth lacks _ inVain found =>
      obtain ⟨_, reads⟩ := inVain.readsAhead
      simp only [ParseState.popEntries, found]
      have others := searched reads lacks
      exact ⟨fun lexeme member => others lexeme (List.mem_of_mem_tail member),
        fun _ _ _ => others⟩
  | @wrap later lacks _ inVain _ _ =>
      obtain ⟨_, reads⟩ := inVain.readsAhead
      have frame : later.SameBut (later.wrapToken
        { token with symbol := some (state.symbolOf input token) }) := sameBut_push_token ..
      have others := searched reads lacks
      exact ⟨frame.pending ▸ fun lexeme member => others lexeme (List.mem_of_mem_tail member),
        fun _ _ _ => frame.pending ▸ others⟩

end Waits

theorem standsRight_current (knowsNoEnd : input.language.lexer.KnowsNoEnd)
    (all : ∀ lexeme ∈ state.queue, lexeme.StandsRight input.language)
    (taken : state.current input = .ok (token, middle)) :
    ∀ lexeme ∈ token :: middle.pending, lexeme.StandsRight input.language := by
  obtain ⟨_, _, whole, inTurn⟩ := current_ok taken
  intro lexeme member
  rw [whole] at member
  exact (List.mem_append.mp member).elim (all lexeme) (inTurn.standsRight knowsNoEnd lexeme)

theorem standsFor_symbolOf (right : token.StandsRight input.language) :
    token.StandsFor input.language (state.symbolOf input token) := by
  unfold symbolOf
  cases named : token.symbol with
  | some symbol => exact right symbol named
  | none => exact Lexeme.standsFor_resolveSymbol _ _ _

theorem Reaches.standsRight (knowsNoEnd : input.language.lexer.KnowsNoEnd)
    (fresh : input.reuse = []) (reaches : Reaches input state) :
    ∀ lexeme ∈ state.queue, lexeme.StandsRight input.language := by
  induction reaches with
  | initial => exact nofun
  | step _ stepped ih =>
      obtain ⟨token, middle, taken, effect⟩ := effect_of_step fresh stepped
      have all := standsRight_current knowsNoEnd ih taken
      refine forall_queue_of_effect (current_ok taken).2.1 ?_
        (fun lexeme _ => Lexeme.standsRight_of_none rfl) ?_ ?_ effect
      · intro lexeme member
        rcases List.mem_cons.mp member with rfl | later
        · intro symbol named
          obtain rfl := Option.some.inj named
          have right : token.StandsRight input.language := all token List.mem_cons_self
          exact @standsFor_symbolOf _ _ token right
        · exact all lexeme (List.mem_cons_of_mem _ later)
      · intro missing _ symbol named
        obtain rfl := Option.some.inj named
        exact ⟨missing, .inl rfl, .inl rfl⟩
      · intro read later ahead lexeme member
        exact ahead.inTurn.standsRight knowsNoEnd lexeme member

/-- Extras on top of the stack end with an error. -/
def EndsInError (state : ParseState) : Prop :=
  ∀ entry below, state.stack = entry :: below → entry.isExtra = true →
    entry.subtree.containsError = true

theorem endsInError_pushError (state : ParseState) (next : StateId) (children : List Subtree) :
    (state.push next (.ofError children)).EndsInError := by
  intro entry below stack _
  rw [← (List.cons.inj stack).1]
  rfl

theorem EndsInError.of_stack (ends : state.EndsInError) (same : after.stack = state.stack) :
    after.EndsInError :=
  fun entry below stack => ends entry below (same ▸ stack)

theorem EndsInError.reduce (ends : state.EndsInError) (input : ParseInput) (id : ProductionId)
    (production : ProductionInfo) (token : Lexeme) :
    (state.reduce input id production token).EndsInError := by
  obtain ⟨trailing, taken, below, shape, _, _, reduced⟩ :=
    reduce_eq input state id production token
  intro entry rest stack extra
  rw [reduced] at stack
  obtain ⟨above, pushed, profiles⟩ := exists_stack_pushAll _ _ _
  rw [pushed] at stack
  cases above with
  | nil =>
      rw [← (List.cons.inj stack).1] at extra
      cases extra
  | cons first others =>
      obtain rfl : first = entry := (List.cons.inj stack).1
      have same := congrArg List.getLast? profiles
      rw [List.reverse_cons, List.map_append, List.map_singleton, List.getLast?_concat,
        List.map_map, List.map_reverse, List.getLast?_reverse, List.head?_map] at same
      obtain ⟨last, isLast, equal⟩ := Option.map_eq_some_iff.mp same.symm
      obtain ⟨others, rfl⟩ := List.head?_eq_some_iff.mp isLast
      have bare : last.subtree.bare = first.subtree.bare := congrArg Prod.snd equal
      rw [StackEntry.isExtra, ← Subtree.isExtra_bare, ← bare, Subtree.isExtra_bare] at extra
      rw [← Subtree.containsError_bare, ← bare, Subtree.containsError_bare]
      exact ends last _ shape extra

theorem EndsInError.step (ends : state.EndsInError) (fresh : input.reuse = [])
    (stepped : state.step input = .ok (.next after)) : after.EndsInError := by
  obtain ⟨token, middle, taken, effect⟩ := effect_of_step fresh stepped
  have here : middle.EndsInError := ends.of_stack (current_ok taken).1
  cases effect with
  | shift =>
      intro entry below stack extra
      rw [← (List.cons.inj stack).1] at extra
      cases extra
  | reduce => exact here.reduce input _ _ _
  | insert => exact here
  | skip => exact endsInError_pushError _ _ _
  | pop _ _ _ found =>
      simp only [ParseState.popEntries, found]
      exact endsInError_pushError _ _ _
  | wrap => exact endsInError_pushError _ _ _

section running

variable (represents : input.language.tables.Represents grammar)
  (knowsNoEnd : input.language.lexer.KnowsNoEnd) (fresh : input.reuse = [])

theorem Reaches.endsInError (reaches : Reaches input state) (fresh : input.reuse = []) :
    state.EndsInError := by
  induction reaches with
  | initial => intro _ _ stack; cases stack
  | step _ stepped ih => exact ih.step fresh stepped

include represents knowsNoEnd fresh

theorem Reaches.waits (reaches : Reaches input state) : state.Waits := by
  induction reaches with
  | initial => exact waits_initial input
  | step reaches stepped ih =>
      exact ih.step (reaches.acceptsMissing represents knowsNoEnd fresh)
        (reaches.sound represents rfl fresh) knowsNoEnd fresh stepped

/-- A token at hand that is not missing is read where the stack ends. -/
theorem Reaches.exists_reads (inside : input.language.scanner.StaysInside)
    (reaches : Reaches input state) (taken : state.current input = .ok (token, middle))
    (present : token.missing = false) :
    ∃ front text scanner last, input.text = front ++ text ∧
      utf8Length front = totalLength state.stack ∧
      input.language.Reads token.mode text scanner token.core last ∧
      (middle.pending = [] → last = middle.cursor.rest ∧
        middle.scannerState = token.scannerAfter) := by
  obtain ⟨log, faithful⟩ := reaches.faithful represents knowsNoEnd fresh
  have held := faithful.current knowsNoEnd taken
  obtain ⟨consumed, split, _, _⟩ := held.split
  have inTurn := held.inTurn
  have queue : asRead ({ middle with
      lookahead := some { token with symbol := some (state.symbolOf input token) } } :
        ParseState).queue = token.asRead :: asRead middle.pending := by
    simp [ParseState.queue, asRead, Lexeme.asRead, present]
  rw [split, queue] at inTurn
  obtain ⟨cursor, scanner, before, behind⟩ := inTurn.split
  cases behind with
  | @cons _ next _ _ _ mode _ _ lexed rest =>
  have whole : (Cursor.start input.text).offset + utf8Length (Cursor.start input.text).rest =
      utf8Length input.text := Nat.zero_add _
  obtain ⟨_, front, passes, _⟩ := before.inOrder knowsNoEnd inside whole
  have placed := (reaches.placed knowsNoEnd inside (by simp [fresh])).current knowsNoEnd inside
    taken (some (state.symbolOf input token))
  obtain ⟨inPlace, _⟩ := inPlace_of_lex knowsNoEnd inside lexed
  have reads := reads_of_lex lexed
  rw [Lexeme.core_asRead] at reads
  obtain rfl : token.mode = mode := reads.present.2
  refine ⟨front, cursor.rest, scanner, next.rest, passes.rest, ?_, reads, fun alone => ?_⟩
  · have start : token.start = cursor.offset := inPlace.start
    have finish : token.start = totalLength middle.stack := placed.atHand.start
    rw [← (current_ok taken).1, ← finish, start, passes.offset]
    exact (Nat.zero_add _).symm
  · rw [alone, asRead, List.map_nil, List.filter_nil] at rest
    generalize middle.cursor = final, middle.scannerState = state at rest ⊢
    generalize kept : token.asRead.scannerAfter = scannerAfter at rest
    cases rest with
    | nil => exact ⟨rfl, kept.symm⟩

/-- The token behind one that is accepted is read in the state that this one leads to, if neither
is read ahead. -/
theorem Reaches.pending_of_shift (reaches : Reaches input state)
    (taken : state.current input = .ok (token, middle)) (present : token.missing = false)
    {next : StateId} {symbol : SymbolId} {known token' : Lexeme} {middle' : ParseState}
    (taken' : (middle.shift next symbol known).current input = .ok (token', middle'))
    (isFresh : token'.fresh = true) : middle.pending = [] := by
  have all := ((reaches.waits represents knowsNoEnd fresh).current taken).2 present
  have frame : middle.SameBut (middle.shift next symbol known) := sameBut_push_token ..
  cases waiting : middle.pending with
  | nil => rfl
  | cons first rest =>
      rw [current_of_pending (frame.lookahead.trans (current_ok taken).2.1)
        (frame.pending.trans waiting)] at taken'
      obtain ⟨rfl, _⟩ := Prod.mk.inj (Except.ok.inj taken')
      rw [all first (waiting ▸ List.mem_cons_self)] at isFresh
      cases isFresh

end running

end ParseState

end Lalr
