import Mathlib.Data.List.Basic
import Lalr.Lexer

set_option autoImplicit false

/-!
Tokens that are settled by the first characters of a text. Once a pattern has no thread left, and
no literal goes on, nothing behind these characters can change what is found.
-/

namespace Lalr

open Lalr.Text

/-- A place with more text behind it. -/
def MatchPlace.extend (behind : List Char) (place : MatchPlace) : MatchPlace :=
  { place with rest := place.rest ++ behind }

/-- A match with more text behind it. -/
def TokenMatch.extend (behind : List Char) (found : TokenMatch) : TokenMatch :=
  { found with rest := found.rest ++ behind }

namespace Program

variable (program : Program)

/-- Whether threads at a place come to an end within the characters seen. The last of these is only
looked at. -/
def settlesFrom : List Thread → MatchPlace → List Char → Bool
  | [], _, _ => true
  | threads, place, c :: d :: seen =>
      let place := place.step c (d :: seen)
      settlesFrom (program.advance place c threads program.noThreads).threads.reverse place
        (d :: seen)
  | _, _, _ => false

/-- Whether a match at the start of a text is settled by the first characters. -/
def settles (seen : List Char) : Bool :=
  let place : MatchPlace := ⟨0, none, seen⟩
  !seen.isEmpty &&
    program.settlesFrom (program.enter place program.start program.noThreads).threads.reverse place
      seen

variable {program} {place place' : MatchPlace}

/-- Only the characters on both sides of a place matter there. -/
theorem follow_congr (previous : place'.previous = place.previous)
    (ahead : place'.rest.head? = place.rest.head?) (budget : Nat) (pending : List Nat)
    (sweep : Sweep) :
    program.follow place' budget pending sweep = program.follow place budget pending sweep := by
  have holds (condition : Assertion) : condition.holds place' = condition.holds place := by
    cases condition <;> simp only [Assertion.holds, previous, ahead]
  induction budget generalizing pending sweep with
  | zero => rw [follow, follow]
  | succ budget ih =>
      cases pending with
      | nil => rfl
      | cons address pending =>
          obtain ⟨visited, threads, accepted⟩ := sweep
          simp only [follow, holds, ih]

theorem enter_congr (previous : place'.previous = place.previous)
    (ahead : place'.rest.head? = place.rest.head?) (address : Nat) (sweep : Sweep) :
    program.enter place' address sweep = program.enter place address sweep :=
  follow_congr previous ahead _ _ _

theorem advance_congr (previous : place'.previous = place.previous)
    (ahead : place'.rest.head? = place.rest.head?) (c : Char) (threads : List Thread)
    (sweep : Sweep) :
    program.advance place' c threads sweep = program.advance place c threads sweep := by
  induction threads generalizing sweep with
  | nil => rfl
  | cons thread threads ih =>
      obtain ⟨chars, next⟩ := thread
      rw [advance, advance, enter_congr previous ahead, ih, ih]

theorem run_cons {threads : List Thread} (some_left : threads ≠ []) (best : Option MatchPlace)
    (place : MatchPlace) (c : Char) (rest : List Char) :
    program.run threads best place (c :: rest) =
      let there := place.step c rest
      let sweep := program.advance there c threads program.noThreads
      program.run sweep.threads.reverse (if sweep.accepted then some there else best) there
        rest := by
  cases threads with
  | nil => exact absurd rfl some_left
  | cons => rfl

theorem run_nil (best : Option MatchPlace) (place : MatchPlace) (text : List Char) :
    program.run [] best place text = best := by
  cases text <;> rfl

/-- Threads that come to an end find the same match in every longer text. -/
theorem run_extend {threads : List Thread} {seen : List Char}
    (settled : program.settlesFrom threads place seen = true) (best : Option MatchPlace)
    (behind : List Char) :
    program.run threads (best.map (·.extend behind)) (place.extend behind) (seen ++ behind) =
      (program.run threads best place seen).map (·.extend behind) := by
  fun_induction program.settlesFrom threads place seen generalizing best with
  | case1 => rw [run_nil, run_nil]
  | case2 threads place c d seen some_left there ih =>
      have stepped : (place.extend behind).step c (d :: seen ++ behind) = there.extend behind := rfl
      have swept : program.advance (there.extend behind) c threads program.noThreads =
          program.advance there c threads program.noThreads := by
        apply advance_congr <;> rfl
      rw [List.cons_append, run_cons some_left, run_cons some_left]
      dsimp only
      rw [stepped, swept, ← ih settled]
      cases (program.advance there c threads program.noThreads).accepted <;> rfl
  | case3 => cases settled

/-- A pattern that settles within some characters finds there what it finds in every longer text. -/
theorem match?_append {seen : List Char} (settled : program.settles seen = true)
    (behind : List Char) :
    program.match? (seen ++ behind) =
      (program.match? seen).map fun found => (found.1, found.2 ++ behind) := by
  simp only [settles, Bool.and_eq_true, Bool.not_eq_true', List.isEmpty_eq_false_iff] at settled
  obtain ⟨more, settled⟩ := settled
  have ahead : (seen ++ behind).head? = seen.head? := by
    obtain ⟨c, seen, rfl⟩ := List.exists_cons_of_ne_nil more
    rfl
  have entered : program.enter ⟨0, none, seen ++ behind⟩ program.start program.noThreads =
      program.enter ⟨0, none, seen⟩ program.start program.noThreads := by
    apply enter_congr
    · rfl
    · exact ahead
  unfold match?
  dsimp only
  rw [entered]
  have best : (if (program.enter ⟨0, none, seen⟩ program.start program.noThreads).accepted then
      some (⟨0, none, seen ++ behind⟩ : MatchPlace) else none) =
      (if (program.enter ⟨0, none, seen⟩ program.start program.noThreads).accepted then
        some (⟨0, none, seen⟩ : MatchPlace) else none).map (·.extend behind) := by
    split <;> rfl
  have ran := run_extend settled (if (program.enter ⟨0, none, seen⟩ program.start
    program.noThreads).accepted then some (⟨0, none, seen⟩ : MatchPlace) else none) behind
  rw [best]
  refine (congrArg (Option.map fun place => (place.consumed, place.rest)) ran).trans ?_
  rw [Option.map_map, Option.map_map]
  rfl

end Program

namespace Lexer

/-- Whether a match at the start of a text is settled by the first characters: no literal goes on
behind them, and every pattern is settled. -/
structure Settles (lexer : Lexer) (seen : List Char) : Prop where
  literals : ∀ entry ∈ lexer.literals, seen <+: entry.1 → seen = entry.1
  patterns : ∀ entry ∈ lexer.patterns, entry.1.settles seen = true

theorem stripLiteral?_append {literal seen : List Char}
    (settled : seen <+: literal → seen = literal) (behind : List Char) :
    stripLiteral? literal (seen ++ behind) = (stripLiteral? literal seen).map (· ++ behind) := by
  induction literal generalizing seen with
  | nil => rfl
  | cons l literal ih =>
      cases seen with
      | nil => cases settled List.nil_prefix
      | cons c seen =>
          rw [List.cons_append, stripLiteral?, stripLiteral?]
          split
          case isTrue same =>
              subst same
              exact ih fun starts =>
                (List.cons.inj (settled (List.cons_prefix_cons.mpr ⟨rfl, starts⟩))).2
          case isFalse => rfl

theorem foldl_longer_extend (behind : List Char) (matches_ : List TokenMatch)
    (best : Option TokenMatch) :
    (matches_.map (·.extend behind)).foldl TokenMatch.longer (best.map (·.extend behind)) =
      (matches_.foldl TokenMatch.longer best).map (·.extend behind) := by
  induction matches_ generalizing best with
  | nil => rfl
  | cons found matches_ ih =>
      have longer : TokenMatch.longer (best.map (·.extend behind)) (found.extend behind) =
          (TokenMatch.longer best found).map (·.extend behind) := by
        cases best with
        | none => rfl
        | some known =>
            change (if known.length < found.length then some (found.extend behind)
              else some (known.extend behind)) = _
            rw [TokenMatch.longer]
            split <;> rfl
      rw [List.map_cons, List.foldl_cons, List.foldl_cons, longer, ih]

variable {lexer : Lexer} {seen : List Char}

/-- A token that is settled by some characters is found in every text that starts with them. -/
theorem Settles.matchToken?_append (settled : lexer.Settles seen) (behind : List Char) :
    lexer.matchToken? (seen ++ behind) = (lexer.matchToken? seen).map (·.extend behind) := by
  have literals : lexer.literals.filterMap (literalMatch? (seen ++ behind)) =
      (lexer.literals.filterMap (literalMatch? seen)).map (·.extend behind) := by
    rw [List.map_filterMap]
    refine List.filterMap_congr fun entry listed => ?_
    rw [literalMatch?, stripLiteral?_append (settled.literals entry listed), literalMatch?,
      Option.map_map, Option.map_map]
    rfl
  have patterns : lexer.patterns.filterMap (patternMatch? (seen ++ behind)) =
      (lexer.patterns.filterMap (patternMatch? seen)).map (·.extend behind) := by
    rw [List.map_filterMap]
    refine List.filterMap_congr fun entry listed => ?_
    rw [patternMatch?, Program.match?_append (settled.patterns entry listed), patternMatch?]
    cases entry.1.match? seen with
    | none => rfl
    | some found =>
        simp only [Option.map_some]
        split <;> rfl
  unfold matchToken?
  dsimp only
  rw [literals, patterns, ← List.map_append]
  exact foldl_longer_extend behind _ none

end Lexer

end Lalr
