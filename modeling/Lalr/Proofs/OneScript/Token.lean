import Lalr.OneScript.Language
import Lalr.Proofs.OneScript.Characters
import Lalr.Proofs.Parser.Lexing
import Lalr.Proofs.Pattern.Settling

set_option autoImplicit false

/-!
The tokens that OneScript describes by literals and patterns: signs, words, numbers, and the
comments and directives that go on to the end of their line.
-/

namespace Lalr

open Lalr.Text

/-! ## Loops of patterns -/

namespace Program

/-- What an automaton matches, as the content of a match. -/
def Reads (program : Program) (content? : List Char → Option (List Char)) : Prop :=
  ∀ text, program.match? text =
    (content? text).map fun content => (utf8Length content, text.drop content.length)

variable {program : Program} {set : CharRanges} {next : Nat}

/-- At an address the match may end, or else go on over some characters. -/
def WaitsAt (program : Program) (address : Nat) (threads : List Thread) (accepts : Bool) : Prop :=
  ∀ place : MatchPlace, place.previous.isSome = true →
    (program.enter place address program.noThreads).threads.reverse = threads ∧
      (program.enter place address program.noThreads).accepted = accepts

theorem advance_of_accepted (place : MatchPlace) (c : Char) {threads : List Thread} {sweep : Sweep}
    (accepted : sweep.accepted = true) : program.advance place c threads sweep = sweep := by
  cases threads with
  | nil => rfl
  | cons thread threads => rw [advance, if_pos accepted]

/-- A thread that takes the next character and may end there is preferred to those behind it. -/
theorem run_of_taken {threads : List Thread} (waits : program.WaitsAt next threads true)
    (others : List Thread) (best : Option MatchPlace) (place : MatchPlace) {c : Char}
    (taken : set.contains c = true) (rest : List Char) :
    program.run ((set, next) :: others) best place (c :: rest) =
      program.run threads (some (place.step c rest)) (place.step c rest) rest := by
  obtain ⟨there, accepted⟩ := waits (place.step c rest) rfl
  have advanced : program.advance (place.step c rest) c ((set, next) :: others)
      program.noThreads = program.enter (place.step c rest) next program.noThreads := by
    rw [advance, if_neg (by simp [noThreads]), if_pos taken]
    exact advance_of_accepted _ _ accepted
  rw [run_cons (List.cons_ne_nil _ _)]
  dsimp only
  rw [advanced, there, accepted, if_pos rfl]

theorem run_of_refused (others : List Thread) (best : Option MatchPlace) (place : MatchPlace)
    {c : Char} (refused : ¬ set.contains c = true) (rest : List Char) :
    program.run ((set, next) :: others) best place (c :: rest) =
      program.run others best place (c :: rest) := by
  have advanced : program.advance (place.step c rest) c ((set, next) :: others)
      program.noThreads = program.advance (place.step c rest) c others program.noThreads := by
    rw [advance, if_neg (by simp [noThreads]), if_neg refused]
  rw [run_cons (List.cons_ne_nil _ _)]
  dsimp only
  rw [advanced]
  cases others with
  | nil => exact run_nil _ _ _
  | cons thread others => rw [run_cons (List.cons_ne_nil _ _)]

/-- One thread over one character. -/
theorem run_single {threads : List Thread} {accepts : Bool}
    (waits : program.WaitsAt next threads accepts) (best : Option MatchPlace) (place : MatchPlace)
    (c : Char) (rest : List Char) :
    program.run [(set, next)] best place (c :: rest) =
      if set.contains c then
        program.run threads (if accepts then some (place.step c rest) else best)
          (place.step c rest) rest
      else best := by
  split
  case isTrue taken =>
      obtain ⟨there, accepted⟩ := waits (place.step c rest) rfl
      have advanced : program.advance (place.step c rest) c [(set, next)] program.noThreads =
          program.enter (place.step c rest) next program.noThreads := by
        rw [advance, if_neg (by simp [noThreads]), if_pos taken, advance]
      rw [run_cons (List.cons_ne_nil _ _)]
      dsimp only
      rw [advanced, there, accepted]
  case isFalse refused => rw [run_of_refused _ _ _ refused, run_nil]

/-- A loop runs to the end of the characters that it takes. -/
theorem run_loop (waits : program.WaitsAt next [(set, next)] true) {place : MatchPlace}
    {text : List Char} (here : place.rest = text) :
    (program.run [(set, next)] (some place) place text).map
        (fun place => (place.consumed, place.rest)) =
      some (place.consumed + utf8Length (text.takeWhile set.contains),
        text.dropWhile set.contains) := by
  induction text generalizing place with
  | nil => simp [run, here]
  | cons c rest ih =>
      rw [run_single waits, List.takeWhile_cons, List.dropWhile_cons]
      split
      case isTrue =>
          rw [if_pos rfl, ih rfl]
          simp [MatchPlace.step, Nat.add_assoc]
      case isFalse => simp [here]

theorem run_loop_step (waits : program.WaitsAt next [(set, next)] true) (place : MatchPlace)
    (c : Char) (rest : List Char) :
    (program.run [(set, next)] (some (place.step c rest)) (place.step c rest) rest).map
        (fun place => (place.consumed, place.rest)) =
      some (place.consumed + c.utf8Size + utf8Length (rest.takeWhile set.contains),
        rest.dropWhile set.contains) :=
  run_loop waits rfl

end Program

/-! ## The kinds of tokens -/

namespace OneScript

/-- How a token of OneScript is written. -/
inductive TokenForm where
  | literal (text : List Char)
  | identifier
  | number
  /-- A mark and what follows it on its line. -/
  | line (mark : List Char)
deriving DecidableEq, Repr

namespace TokenForm

/-- The digits of a number, with or without a fraction. -/
def number? (text : List Char) : Option (List Char) :=
  let whole := text.takeWhile Property.asciiDigit.contains
  if whole = [] then none
  else
    match text.dropWhile Property.asciiDigit.contains with
    | '.' :: rest =>
        let fraction := rest.takeWhile Property.asciiDigit.contains
        some (if fraction = [] then whole else whole ++ '.' :: fraction)
    | _ => some whole

/-- The longest token of a kind at the start of a text. -/
def content? (text : List Char) : TokenForm → Option (List Char)
  | .literal sign => if sign <+: text then some sign else none
  | .identifier =>
      if text.head?.any wordStart.contains then some (text.takeWhile wordPart.contains) else none
  | .number => number? text
  | .line mark => if mark <+: text then some (text.takeWhile lineRest.contains) else none

end TokenForm

/-! ## Programs of the patterns -/

theorem drop_length_takeWhile (text : List Char) (p : Char → Bool) :
    text.drop (text.takeWhile p).length = text.dropWhile p := by
  induction text with
  | nil => rfl
  | cons c text ih =>
      rw [List.takeWhile_cons, List.dropWhile_cons]
      split
      · exact ih
      · rfl

def wordProgram : Program :=
  ⟨#[.accept, .fork 2 0, .consume wordPart 1, .consume wordStart 1, .check .textStart 3], 4⟩

def numberProgram : Program :=
  ⟨#[.accept, .fork 2 0, .consume Property.asciiDigit 1, .consume (.single 46) 2, .fork 3 0,
      .fork 6 4, .consume Property.asciiDigit 5, .check .textStart 6], 7⟩

def commentProgram : Program :=
  ⟨#[.accept, .fork 2 0, .consume lineRest 1, .consume (.single 47) 1, .consume (.single 47) 3,
      .check .textStart 4], 5⟩

def directiveProgram : Program :=
  ⟨#[.accept, .fork 2 0, .consume lineRest 1, .consume (.single 35) 1, .check .textStart 3], 4⟩

theorem waitsAt_word : wordProgram.WaitsAt 1 [(wordPart, 1)] true :=
  fun _ _ => ⟨rfl, rfl⟩

theorem match?_word (text : List Char) :
    wordProgram.match? text =
      (wordProgram.run [(wordStart, 1)] none ⟨0, none, text⟩ text).map fun place =>
        (place.consumed, place.rest) := rfl

theorem reads_word : wordProgram.Reads fun text => TokenForm.identifier.content? text := by
  intro text
  rw [match?_word]
  cases text with
  | nil => rfl
  | cons c rest =>
      rw [Program.run_single waitsAt_word]
      by_cases starts : wordStart.contains c = true
      · simp only [starts, if_true, Program.run_loop_step waitsAt_word]
        simp [TokenForm.content?, starts, wordPart_of_wordStart starts,
          drop_length_takeWhile]
      · simp [TokenForm.content?, starts]

theorem waitsAt_line : commentProgram.WaitsAt 1 [(lineRest, 1)] true :=
  fun _ _ => ⟨rfl, rfl⟩

theorem waitsAt_slash : commentProgram.WaitsAt 3 [(.single 47, 1)] false :=
  fun _ _ => ⟨rfl, rfl⟩

theorem waitsAt_directive : directiveProgram.WaitsAt 1 [(lineRest, 1)] true :=
  fun _ _ => ⟨rfl, rfl⟩

theorem match?_comment (text : List Char) :
    commentProgram.match? text =
      (commentProgram.run [(.single 47, 3)] none ⟨0, none, text⟩ text).map fun place =>
        (place.consumed, place.rest) := rfl

theorem match?_directive (text : List Char) :
    directiveProgram.match? text =
      (directiveProgram.run [(.single 35, 1)] none ⟨0, none, text⟩ text).map fun place =>
        (place.consumed, place.rest) := rfl

theorem contains_single {c d : Char} :
    (CharRanges.single c.toNat).contains d = true ↔ d = c := by
  rw [← Char.toNat_inj]
  simp only [CharRanges.single, CharRanges.contains, CharRanges.containsCode]
  grind

theorem contains_slash {c : Char} : (CharRanges.single 47).contains c = true ↔ c = '/' :=
  @contains_single '/' c

theorem contains_hash {c : Char} : (CharRanges.single 35).contains c = true ↔ c = '#' :=
  @contains_single '#' c

theorem contains_point {c : Char} : (CharRanges.single 46).contains c = true ↔ c = '.' :=
  @contains_single '.' c

theorem reads_comment :
    commentProgram.Reads fun text => (TokenForm.line ['/', '/']).content? text := by
  intro text
  have part : lineRest.contains '/' = true := rfl
  rw [match?_comment]
  cases text with
  | nil => rfl
  | cons c rest =>
      rw [Program.run_single waitsAt_slash]
      simp only [contains_slash]
      cases rest with
      | nil => simp [TokenForm.content?, Program.run]
      | cons d rest =>
          rw [Program.run_single waitsAt_line]
          simp only [contains_slash]
          by_cases first : c = '/'
          · by_cases second : d = '/'
            · subst first second
              simp only [if_true, Program.run_loop_step waitsAt_line]
              simp [TokenForm.content?, part, drop_length_takeWhile, MatchPlace.step,
                Nat.add_assoc]
            · simp [TokenForm.content?, first, second, Ne.symm second]
          · simp [TokenForm.content?, first, Ne.symm first]

theorem reads_directive :
    directiveProgram.Reads fun text => (TokenForm.line ['#']).content? text := by
  intro text
  have part : lineRest.contains '#' = true := rfl
  rw [match?_directive]
  cases text with
  | nil => rfl
  | cons c rest =>
      rw [Program.run_single waitsAt_directive]
      simp only [contains_hash]
      by_cases first : c = '#'
      · subst first
        simp only [if_true, Program.run_loop_step waitsAt_directive]
        simp [TokenForm.content?, part, drop_length_takeWhile]
      · simp [TokenForm.content?, first, Ne.symm first]

/-! ### Numbers -/

theorem waitsAt_fraction : numberProgram.WaitsAt 1 [(Property.asciiDigit, 1)] true :=
  fun _ _ => ⟨rfl, rfl⟩

theorem waitsAt_point : numberProgram.WaitsAt 2 [(Property.asciiDigit, 1)] false :=
  fun _ _ => ⟨rfl, rfl⟩

theorem waitsAt_whole :
    numberProgram.WaitsAt 5 [(Property.asciiDigit, 5), (.single 46, 2)] true :=
  fun _ _ => ⟨rfl, rfl⟩

theorem match?_number (text : List Char) :
    numberProgram.match? text =
      (numberProgram.run [(Property.asciiDigit, 5)] none ⟨0, none, text⟩ text).map fun place =>
        (place.consumed, place.rest) := rfl

/-- Behind the point a fraction must follow. -/
theorem run_point (best : Option MatchPlace) (place : MatchPlace) (text : List Char) :
    (numberProgram.run [(Property.asciiDigit, 1)] best place text).map
        (fun place => (place.consumed, place.rest)) =
      if text.takeWhile Property.asciiDigit.contains = [] then
        best.map fun place => (place.consumed, place.rest)
      else
        some (place.consumed + utf8Length (text.takeWhile Property.asciiDigit.contains),
          text.dropWhile Property.asciiDigit.contains) := by
  cases text with
  | nil => rfl
  | cons c rest =>
      rw [Program.run_single waitsAt_fraction]
      by_cases digit : Property.asciiDigit.contains c = true
      · simp only [digit, if_true, Program.run_loop_step waitsAt_fraction]
        simp [digit, Nat.add_assoc]
      · simp [digit]

theorem run_whole {place : MatchPlace} {text : List Char} (here : place.rest = text) :
    (numberProgram.run [(Property.asciiDigit, 5), (.single 46, 2)] (some place) place text).map
        (fun place => (place.consumed, place.rest)) =
      let whole := text.takeWhile Property.asciiDigit.contains
      match text.dropWhile Property.asciiDigit.contains with
      | '.' :: rest =>
          let fraction := rest.takeWhile Property.asciiDigit.contains
          if fraction = [] then some (place.consumed + utf8Length whole, '.' :: rest)
          else some (place.consumed + utf8Length (whole ++ '.' :: fraction),
            rest.dropWhile Property.asciiDigit.contains)
      | rest => some (place.consumed + utf8Length whole, rest) := by
  induction text generalizing place with
  | nil => simp [Program.run, here]
  | cons c rest ih =>
      by_cases digit : Property.asciiDigit.contains c = true
      · rw [Program.run_of_taken waitsAt_whole _ _ _ digit, ih rfl]
        simp only [List.takeWhile_cons, List.dropWhile_cons, digit, if_true]
        split
        · simp [MatchPlace.step, Nat.add_assoc]
        · simp [MatchPlace.step, Nat.add_assoc]
      · rw [Program.run_of_refused _ _ _ digit, Program.run_single waitsAt_point]
        simp only [List.takeWhile_cons, List.dropWhile_cons, digit, contains_point]
        by_cases point : c = '.'
        · subst point
          simp [run_point, here, MatchPlace.step, Nat.add_assoc]
        · simp [point, here]

theorem drop_number {text rest : List Char}
    (behind : text.dropWhile Property.asciiDigit.contains = '.' :: rest) :
    text.drop (text.takeWhile Property.asciiDigit.contains ++
        '.' :: rest.takeWhile Property.asciiDigit.contains).length =
      rest.dropWhile Property.asciiDigit.contains := by
  rw [List.length_append, ← List.drop_drop, drop_length_takeWhile, behind, List.length_cons,
    List.drop_succ_cons, drop_length_takeWhile]

theorem reads_number : numberProgram.Reads fun text => TokenForm.number.content? text := by
  intro text
  rw [match?_number]
  cases text with
  | nil => rfl
  | cons c rest =>
      rw [Program.run_single waitsAt_whole]
      by_cases digit : Property.asciiDigit.contains c = true
      · have whole : ((c :: rest).takeWhile Property.asciiDigit.contains) =
            c :: rest.takeWhile Property.asciiDigit.contains := by simp [digit]
        have behind : ((c :: rest).dropWhile Property.asciiDigit.contains) =
            rest.dropWhile Property.asciiDigit.contains := by simp [digit]
        have drop_whole := drop_length_takeWhile (c :: rest) Property.asciiDigit.contains
        have ran := @run_whole (MatchPlace.step ⟨0, none, c :: rest⟩ c rest) rest rfl
        rw [if_pos digit, if_pos rfl, ran]
        rw [behind] at drop_whole
        simp only [TokenForm.content?, TokenForm.number?, behind]
        rw [if_neg (by simp [whole])]
        split
        case h_1 fraction found =>
            have drop_all := drop_number (behind.trans found)
            rw [found, whole] at drop_whole
            rw [whole] at drop_all ⊢
            split
            · simp only [Option.map_some, drop_whole]
              simp [MatchPlace.step]
            · simp only [Option.map_some, drop_all]
              simp [MatchPlace.step]
        case h_2 =>
            simp only [Option.map_some, drop_whole]
            simp [whole, MatchPlace.step]
      · simp [TokenForm.content?, TokenForm.number?, digit]

end OneScript

end Lalr
