import Lalr.Proofs.Parser.Effect
import Lalr.Proofs.Parser.Placement

set_option autoImplicit false

/-!
Where a parse cuts its text when it takes over subtrees of an old tree. What it reads ends at
places in the text; only the end of a subtree on offer is taken from the old tree.
-/

namespace Lalr

open Lalr.Text

theorem Text.Cursor.at?_append (passed rest : List Char) :
    Cursor.at? (passed ++ rest) (utf8Length passed) = some ⟨utf8Length passed, rest⟩ := by
  have cut : splitBytes? (utf8Length passed) (passed ++ rest) = some (passed, rest) :=
    splitBytes?_eq_some_iff.mpr ⟨rfl, rfl⟩
  simp [Cursor.at?, Cursor.advance?, dropBytes?, Cursor.start, cut]

theorem Text.eq_of_utf8Length_eq {first rest other behind : List Char}
    (same : first ++ rest = other ++ behind) (lengths : utf8Length first = utf8Length other) :
    first = other ∧ rest = behind := by
  have left : splitBytes? (utf8Length other) (first ++ rest) = some (first, rest) :=
    splitBytes?_eq_some_iff.mpr ⟨rfl, lengths⟩
  have right : splitBytes? (utf8Length other) (first ++ rest) = some (other, behind) :=
    splitBytes?_eq_some_iff.mpr ⟨same, rfl⟩
  exact Prod.mk.inj (Option.some.inj (left.symm.trans right))

/-- A subtree on offer stands in a text, so that its first token is where it is looked for. -/
structure ReuseCandidate.StandsIn (candidate : ReuseCandidate) (text : List Char) : Prop where
  place : ∃ offset piece, candidate.offset = offset + candidate.subtree.padding ∧
    HoldsAt text offset piece ∧ CutInto piece (widths candidate.subtree.leaves)
  padding : ∀ first, candidate.subtree.firstLeaf? = some first →
    first.padding = candidate.subtree.padding

namespace ParseState

open StackEntry

variable {input : ParseInput} {state : ParseState} {symbol : SymbolId} {token : Lexeme}
  {candidate : ReuseCandidate} {lookahead : Lookahead} {last : Leaf} {next : StateId}

/-! ## Taking over -/

theorem Tries.exists_first (tries : Tries input state symbol token candidate lookahead last next) :
    ∃ first, candidate.subtree.firstLeaf? = some first ∧ first.padding = token.padding := by
  have starts := tries.starts
  unfold startsWith at starts
  cases first : candidate.subtree.firstLeaf? with
  | none => simp [first] at starts
  | some leaf =>
      simp only [first, Option.any_some, Bool.and_eq_true, beq_iff_eq] at starts
      exact ⟨leaf, rfl, starts.1.1.1.2⟩

/-- The text before a subtree that is tried, that of the subtree, and the text behind it. -/
theorem Placed.exists_cut
    (placed : ({ state with lookahead := some token } : ParseState).Placed input)
    (tries : Tries input state symbol token candidate lookahead last next)
    (stands : candidate.StandsIn input.text) :
    ∃ front piece rest, input.text = front ++ piece ++ rest ∧
      utf8Length (front ++ piece) = token.tokenStart + candidate.subtree.length ∧
      CutInto front (widths (stackLeaves state.stack ++ token.extras)) ∧
      CutInto piece (widths candidate.subtree.leaves) := by
  obtain ⟨offset, piece, found, ⟨before, behind, shape, rfl⟩, pieceCut⟩ := stands.place
  obtain ⟨first, isFirst, padding⟩ := tries.exists_first
  have start : utf8Length before = token.tokenStart := by
    have same := stands.padding first isFirst
    have offered := tries.offset
    rw [Lexeme.contentStart] at offered
    omega
  obtain ⟨front, rest, whole, reached, frontCut⟩ := placed.exists_front
  -- both cuts of the text are where the token begins
  rw [shape, List.append_assoc] at whole
  obtain ⟨rfl, _⟩ := eq_of_utf8Length_eq whole (start.trans reached.symm)
  refine ⟨before, piece, behind, shape, ?_, frontCut, pieceCut⟩
  rw [utf8Length_append, start, pieceCut.sum_eq, Subtree.length_eq_sum]

theorem Placed.takeOver (knowsNoEnd : input.language.lexer.KnowsNoEnd)
    (inside : input.language.scanner.StaysInside)
    (placed : ({ state with lookahead := some token } : ParseState).Placed input)
    (stand : ∀ candidate ∈ input.reuse, candidate.StandsIn input.text) {after : ParseState}
    (takes : TakesOver input state symbol token after) : after.Placed input := by
  cases takes with
  | @behind candidate lookahead last next place cursor following tries found read _ =>
      obtain ⟨front, piece, rest, shape, length, frontCut, pieceCut⟩ :=
        placed.exists_cut tries (stand candidate tries.listed)
      rw [← length, shape, Cursor.at?_append] at found
      obtain rfl := Option.some.inj found
      have passes : (Cursor.start input.text).Passes (front ++ piece)
          ⟨utf8Length (front ++ piece), rest⟩ := ⟨shape, (Nat.zero_add _).symm⟩
      obtain ⟨inPlace, read, further, readCut⟩ := inPlace_of_lex knowsNoEnd inside read
      have whole := passes.end_eq.trans (Nat.zero_add _)
      have leaves : stackLeaves (state.afterTakeOver token candidate.subtree next
          { following with symbol := some lookahead.symbol } cursor).stack =
            stackLeaves state.stack ++ token.extras ++ candidate.subtree.leaves :=
        (leaves_push _ _).trans (by rw [leaves_pushExtras])
      have stackCut := frontCut.append pieceCut
      rw [← widths_append, ← leaves] at stackCut
      have stackEnd := stackCut.sum_eq.trans (totalLength_eq_sum _).symm
      have queue : (state.afterTakeOver token candidate.subtree next
          { following with symbol := some lookahead.symbol } cursor).queue =
            [{ following with symbol := some lookahead.symbol }] := by
        rw [ParseState.queue]
        exact congrArg _ ((sameBut_push_token token next candidate.subtree).pending.trans
          tries.alone)
      refine ⟨placed.stack.push_token _ _ _ _, ?_, front ++ piece ++ read, passes.trans further,
        ?_⟩
      · rw [queue, ← stackEnd]
        have inOrder : InOrder (utf8Length input.text) (utf8Length (front ++ piece))
            [following] := ⟨whole ▸ inPlace, trivial⟩
        exact inOrder.of_same rfl
      · rw [queue, List.flatMap_singleton]
        exact stackCut.append readCut

/-- A step leaves everything at hand where it was read. -/
theorem Placed.step (knowsNoEnd : input.language.lexer.KnowsNoEnd)
    (inside : input.language.scanner.StaysInside) (placed : state.Placed input)
    (stand : ∀ candidate ∈ input.reuse, candidate.StandsIn input.text) {after : ParseState}
    (stepped : state.step input = .ok (.next after)) : after.Placed input := by
  obtain ⟨token, middle, taken, outcome⟩ := effect_or_takesOver_of_step stepped
  have idle := (current_ok taken).2.1
  have held := placed.current knowsNoEnd inside taken (some (state.symbolOf input token))
  rcases outcome with effect | ⟨_, _, _, takes, same⟩
  case inr =>
      obtain rfl := ParseStep.next.inj same
      exact held.takeOver knowsNoEnd inside stand takes
  cases effect with
  | shift => exact held.shift idle _ _
  | reduce => exact held.reduce _ _
  | insert => exact held.insertMissing _
  | skip _ _ _ _ searched whole _ =>
      obtain ⟨⟨_, ahead⟩, _⟩ := findAcceptable_ok searched
      exact (held.searched knowsNoEnd inside ahead).skipTo whole
  | pop _ _ inVain depth =>
      obtain ⟨_, ahead⟩ := inVain.readsAhead
      exact (held.searched knowsNoEnd inside ahead).popEntries depth
  | wrap _ _ inVain =>
      obtain ⟨_, ahead⟩ := inVain.readsAhead
      exact (held.searched knowsNoEnd inside ahead).wrapToken (ahead.lookahead.trans idle)

/-! ## Faults -/

/-- A fault that cuts the text at the end of a subtree on offer, which lies outside of it. -/
def CutsBehind (input : ParseInput) (fault : Fault) : Prop :=
  ∃ offset, fault = .outsideText offset ∧ Cursor.at? input.text offset = none ∧
    ∃ candidate ∈ input.reuse,
      offset + candidate.subtree.padding = candidate.offset + candidate.subtree.length

/-- Whatever the old tree and its edits are, a step cuts the text outside of it only behind a
subtree on offer. -/
theorem cutsBehind_of_step (fits : input.language.scanner.Fits)
    (reusable : ∀ candidate ∈ input.reuse, candidate.subtree.isReusable = true) :
    OnlyFaults (fun fault => fault.isOutside = true → CutsBehind input fault)
      (state.step input) := by
  refine onlyFaults_step ?_ ?_
  · intro state mode fault failed outside
    rw [readLexeme_inside fits mode fault failed] at outside
    cases outside
  · intro token after _ symbol fault failed outside
    rcases reuse?_cases failed with nothing | ⟨_, taken, _⟩ |
      ⟨_, candidate, lookahead, last, next, same, tries, fails⟩
    · cases nothing
    · cases taken
    · obtain rfl := Except.error.inj same
      obtain ⟨first, isFirst, padding⟩ := tries.exists_first
      have blank := Subtree.padding_of_isReusable (reusable candidate tries.listed) isFirst
      unfold FailsBehind at fails
      split at fails
      case h_1 missing =>
          have offered := tries.offset
          refine ⟨_, fails, missing, candidate, tries.listed, ?_⟩
          rw [offered, Lexeme.contentStart, ← blank, padding]
          exact Nat.add_right_comm ..
      case h_2 =>
          rw [lex_inside fits _ _ _ fault fails] at outside
          cases outside

/-- Where every subtree on offer stands in the text, a step cuts the text at places in it. -/
theorem Placed.inside_of_step (placed : state.Placed input)
    (knowsNoEnd : input.language.lexer.KnowsNoEnd) (fits : input.language.scanner.Fits)
    (inside : input.language.scanner.StaysInside)
    (stand : ∀ candidate ∈ input.reuse, candidate.StandsIn input.text) :
    OnlyFaults (fun fault => fault.isOutside = false) (state.step input) := by
  refine onlyFaults_step (fun _ => readLexeme_inside fits) ?_
  intro token after taken symbol fault failed
  have held := placed.current knowsNoEnd inside taken (some symbol)
  rcases reuse?_cases failed with nothing | ⟨_, taken, _⟩ |
    ⟨_, candidate, lookahead, last, next, same, tries, fails⟩
  · cases nothing
  · cases taken
  · obtain rfl := Except.error.inj same
    obtain ⟨front, piece, rest, shape, length, _⟩ :=
      held.exists_cut tries (stand candidate tries.listed)
    rw [FailsBehind, ← length, shape, Cursor.at?_append] at fails
    exact lex_inside fits _ _ _ fault fails

theorem Reaches.placed (reaches : Reaches input state)
    (knowsNoEnd : input.language.lexer.KnowsNoEnd)
    (inside : input.language.scanner.StaysInside)
    (stand : ∀ candidate ∈ input.reuse, candidate.StandsIn input.text) : state.Placed input := by
  induction reaches with
  | initial => exact placed_initial input
  | step _ stepped ih => exact ih.step knowsNoEnd inside stand stepped

/-- A run fails of what its steps fail of, or of the limit of steps. -/
theorem onlyFaults_runSteps {known : Fault → Prop} (limited : known .stepLimit)
    (stepping : ∀ state, Reaches input state → OnlyFaults known (state.step input)) {limit : Nat}
    (reaches : Reaches input state) : OnlyFaults known (runSteps input limit state) := by
  induction limit generalizing state with
  | zero =>
      intro fault failed
      exact Except.error.inj failed ▸ limited
  | succ limit ih =>
      intro fault failed
      unfold runSteps at failed
      split at failed
      case h_1 other stepped => exact Except.error.inj failed ▸ stepping state reaches other stepped
      case h_2 => cases failed
      case h_3 after stepped => exact ih (reaches.step stepped) fault failed

end ParseState

end Lalr
