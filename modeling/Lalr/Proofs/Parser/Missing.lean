import Lalr.Proofs.Parser.Promise
import Lalr.Proofs.Parser.Tiling

set_option autoImplicit false

/-!
Missing tokens. One is only put in where the automaton is seen to accept it, so it is accepted
before anything else happens, as the terminal that it was put in for: recovery never has to deal
with it, and tokens that wait behind it were read.
-/

namespace Lalr

open Lalr.Text

theorem ReadInTurn.present {language : Language} (knowsNoEnd : language.lexer.KnowsNoEnd)
    {cursor last : Cursor} {scanner final : ScannerState} {lexemes : List Lexeme}
    (inTurn : ReadInTurn language cursor scanner lexemes last final) :
    ∀ lexeme ∈ lexemes, lexeme.missing = false := by
  induction inTurn with
  | nil => simp
  | cons read _ ih =>
      intro lexeme member
      cases List.mem_cons.mp member with
      | inl same => exact same ▸ (readFrom_of_lex knowsNoEnd read).missing
      | inr later => exact ih lexeme later

namespace ParseState

variable {input : ParseInput} {grammar : FlatGrammar} {state middle after : ParseState}
  {token : Lexeme}

/-- A token at hand is one that was read, or one that was put in and that the automaton is known
to accept. -/
def Accepts (input : ParseInput) (state : ParseState) (token : Lexeme) : Prop :=
  token.missing = true → token.symbol = some token.raw ∧ ∃ limit,
    (simulateFrom input.language token.raw limit state.structuralStates).isSome = true

/-- What holds of missing tokens between two steps: none waits but the one at hand, and this one
is going to be accepted. -/
structure AcceptsMissing (input : ParseInput) (state : ParseState) : Prop where
  pending : ∀ lexeme ∈ state.pending, lexeme.missing = false
  lookahead : ∀ token, state.lookahead = some token → state.Accepts input token

theorem accepts_of_present (state : ParseState) (present : token.missing = false) :
    state.Accepts input token := by
  intro missing
  rw [present] at missing
  cases missing

theorem acceptsMissing_initial (input : ParseInput) :
    (initial input.text).AcceptsMissing input :=
  ⟨by simp [initial], by simp [initial]⟩

namespace AcceptsMissing

variable (known : state.AcceptsMissing input)

include known

theorem current (knowsNoEnd : input.language.lexer.KnowsNoEnd)
    (taken : state.current input = .ok (token, middle)) :
    (∀ lexeme ∈ middle.pending, lexeme.missing = false) ∧ state.Accepts input token := by
  obtain ⟨_, _, whole, inTurn⟩ := current_ok taken
  have read := inTurn.present knowsNoEnd
  cases ahead : state.lookahead with
  | some waiting =>
      have nothing : state.readNow token = [] := by simp [readNow, ahead]
      rw [ahead, nothing, List.append_nil] at whole
      obtain ⟨rfl, same⟩ := List.cons.inj whole
      exact ⟨same ▸ known.pending, known.lookahead token ahead⟩
  | none =>
      have present : ∀ lexeme ∈ token :: middle.pending, lexeme.missing = false := by
        intro lexeme member
        rw [whole, ahead] at member
        cases List.mem_append.mp member with
        | inl waits => exact known.pending lexeme waits
        | inr new => exact read lexeme new
      exact ⟨fun lexeme member => present lexeme (List.mem_cons_of_mem _ member),
        accepts_of_present state (present token List.mem_cons_self)⟩

/-- A missing token is not met without an action. -/
theorem present_of_lacks (sound : state.Sound input.language grammar)
    (knowsNoEnd : input.language.lexer.KnowsNoEnd)
    (taken : state.current input = .ok (token, middle))
    (lacks : LacksAction input.language state.topState (state.symbolOf input token)) :
    token.missing = false := by
  refine Bool.eq_false_iff.mpr fun missing => ?_
  obtain ⟨stands, limit, accepted⟩ := (known.current knowsNoEnd taken).2 missing
  obtain ⟨below, whole⟩ := List.head?_eq_some_iff.mp sound.head?_structuralStates
  have symbol : state.symbolOf input token = token.raw := by simp [symbolOf, stands]
  rw [symbol] at lacks
  rw [whole, simulateFrom_eq_none_of_lacks lacks] at accepted
  cases accepted

/-- A reduction leads on to where the missing token at hand is still accepted. -/
theorem reduce (sound : state.Sound input.language grammar)
    (represents : input.language.tables.Represents grammar)
    (knowsNoEnd : input.language.lexer.KnowsNoEnd)
    (taken : state.current input = .ok (token, middle)) {id : ProductionId}
    {production : ProductionInfo}
    (action : input.language.action state.topState (state.symbolOf input token) = .reduce id)
    (found : input.language.production? id = some production)
    (named : token.missing = true → state.symbolOf input token = token.raw) (held : Lexeme) :
    token.missing = true → ∃ limit, (simulateFrom input.language token.raw limit
      (middle.reduce input id production held).structuralStates).isSome = true := by
  intro missing
  obtain ⟨_, limit, accepted⟩ := (known.current knowsNoEnd taken).2 missing
  obtain ⟨_, middleSound, stack⟩ := sound.current taken
  have top : middle.topState = state.topState := by simp only [topState, stack]
  have states : middle.structuralStates = state.structuralStates := by
    simp only [ParseState.structuralStates_eq, stack]
  have reduces := middleSound.reducesTo represents (top ▸ action) found held
  rw [states, named missing] at reduces
  cases limit with
  | zero => cases accepted
  | succ limit =>
      rw [simulateFrom_of_reducesTo reduces] at accepted
      exact ⟨limit, accepted⟩

theorem step (sound : state.Sound input.language grammar)
    (represents : input.language.tables.Represents grammar)
    (knowsNoEnd : input.language.lexer.KnowsNoEnd) (fresh : input.reuse = [])
    (stepped : state.step input = .ok (.next after)) : after.AcceptsMissing input := by
  obtain ⟨token, middle, taken, effect⟩ := effect_of_step fresh stepped
  obtain ⟨waiting, accepts⟩ := known.current knowsNoEnd taken
  have idle := (current_ok taken).2.1
  have named : token.missing = true → state.symbolOf input token = token.raw := by
    intro missing
    simp [symbolOf, (accepts missing).1]
  have present := fun lacks => known.present_of_lacks sound knowsNoEnd taken lacks
  have searched : ∀ {read later}, ReadsAhead input middle read later →
      ∀ lexeme ∈ later.pending, lexeme.missing = false :=
    fun reads => reads.forall_pending waiting (reads.inTurn.present knowsNoEnd)
  cases effect with
  | @shift next action =>
      have frame : middle.SameBut (middle.shift next (state.symbolOf input token)
        { token with symbol := some (state.symbolOf input token) }) := sameBut_push_token ..
      refine ⟨frame.pending ▸ waiting, fun other ahead => ?_⟩
      rw [frame.lookahead, idle] at ahead
      cases ahead
  | @reduce id production action found =>
      have frame := middle.sameBut_reduce input id production
        { token with symbol := some (state.symbolOf input token) }
      refine ⟨frame.pending ▸ waiting, fun other ahead missing => ?_⟩
      obtain rfl := Option.some.inj ahead
      exact ⟨congrArg some (named missing), known.reduce sound represents knowsNoEnd taken action
        found named _ missing⟩
  | insert lacks inserted =>
      obtain ⟨between, accepted, _⟩ := bridges_of_insertion? inserted
      refine ⟨?_, fun other ahead _ => ?_⟩
      · intro lexeme member
        cases List.mem_cons.mp member with
        | inl same => exact same ▸ present lacks
        | inr others => exact waiting lexeme others
      · obtain rfl := Option.some.inj ahead
        exact ⟨rfl, simulationLimit, Option.isSome_iff_exists.mpr ⟨between, accepted⟩⟩
  | @skip later skipped next pending lacks _ _ _ found whole _ =>
      obtain ⟨⟨_, reads⟩, _⟩ := findAcceptable_ok found
      have behind := searched reads
      rw [whole] at behind
      refine ⟨fun lexeme (member : lexeme ∈ pending) => behind lexeme (by simp [member]),
        fun other ahead => ?_⟩
      obtain rfl := Option.some.inj ahead
      exact accepts_of_present _ (behind next (by simp))
  | @pop later depth lacks _ inVain found =>
      obtain ⟨_, reads⟩ := inVain.readsAhead
      simp only [ParseState.popEntries, found]
      have others := searched reads
      refine ⟨others, fun other ahead => ?_⟩
      obtain rfl := Option.some.inj ahead
      exact accepts_of_present _ (present lacks)
  | @wrap later lacks _ inVain _ _ =>
      obtain ⟨_, reads⟩ := inVain.readsAhead
      have frame : later.SameBut (later.wrapToken
        { token with symbol := some (state.symbolOf input token) }) := sameBut_push_token ..
      refine ⟨frame.pending ▸ searched reads, fun other ahead => ?_⟩
      rw [frame.lookahead, reads.lookahead, idle] at ahead
      cases ahead

end AcceptsMissing

/-- Missing tokens are accepted in every state that a parse without an old tree comes to. -/
theorem Reaches.acceptsMissing (reaches : Reaches input state)
    (represents : input.language.tables.Represents grammar)
    (knowsNoEnd : input.language.lexer.KnowsNoEnd) (fresh : input.reuse = []) :
    state.AcceptsMissing input := by
  induction reaches with
  | initial => exact acceptsMissing_initial input
  | step reaches stepped ih =>
      exact ih.step (reaches.sound represents rfl fresh) represents knowsNoEnd fresh stepped

end ParseState

end Lalr
