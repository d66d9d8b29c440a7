import Mathlib.Data.List.TakeWhile
import Lalr.Text.Utf8

set_option autoImplicit false

/-!
Runs of characters at the start of a text, and what stands behind the text.
-/

namespace Lalr.Text

variable {p : Char → Bool} {first rest : List Char}

theorem takeWhile_append_of_stops (stops : rest.head?.any p = false) :
    (first ++ rest).takeWhile p = first.takeWhile p := by
  have none_taken : rest.takeWhile p = [] := by
    cases rest with
    | nil => rfl
    | cons c rest => simpa using stops
  rw [List.takeWhile_append]
  split
  case isTrue whole =>
      rw [none_taken, List.append_nil]
      exact ((List.takeWhile_prefix p).eq_of_length whole).symm
  case isFalse => rfl

theorem dropWhile_append_of_stops (stops : rest.head?.any p = false) :
    (first ++ rest).dropWhile p = first.dropWhile p ++ rest := by
  induction first with
  | nil =>
      cases rest with
      | nil => rfl
      | cons c rest =>
          have refused : p c = false := by simpa using stops
          simp [refused]
  | cons c first ih =>
      rw [List.cons_append, List.dropWhile_cons, List.dropWhile_cons]
      split
      · exact ih
      · rfl

/-- A run that ends within the first part of a text is that of this part. -/
theorem takeWhile_of_inside (inside : (first ++ rest).takeWhile p <+: first) :
    (first ++ rest).takeWhile p = first.takeWhile p ∧
      (first.takeWhile p = first → rest.head?.any p = false) := by
  rw [List.takeWhile_append] at inside ⊢
  split
  case isTrue whole =>
      rw [if_pos whole] at inside
      have same := (List.takeWhile_prefix p).eq_of_length whole
      have empty : rest.takeWhile p = [] := by
        have := inside.length_le
        rw [List.length_append] at this
        exact List.length_eq_zero_iff.mp (by omega)
      refine ⟨by rw [empty, List.append_nil, same], fun _ => ?_⟩
      cases rest with
      | nil => rfl
      | cons c rest =>
          cases taken : p c with
          | false => simp [taken]
          | true => simp [taken] at empty
  case isFalse open_ => exact ⟨rfl, fun same => absurd (congrArg List.length same) open_⟩

theorem takeWhile_append_of_open (open_ : first.takeWhile p ≠ first) :
    (first ++ rest).takeWhile p = first.takeWhile p := by
  rw [List.takeWhile_append, if_neg]
  exact fun whole => open_ ((List.takeWhile_prefix p).eq_of_length whole)

/-- A sign that starts in front of a character of another kind ends there. -/
theorem prefix_of_prefix_append {kind : List Char} {sign : List Char} (made : sign ⊆ kind)
    (other : ∀ c, rest.head? = some c → c ∉ kind) (found : sign <+: first ++ rest) :
    sign <+: first := by
  rcases List.prefix_or_prefix_of_prefix found (List.prefix_append first rest) with here | longer
  · exact here
  · obtain ⟨more, rfl⟩ := longer
    rw [List.prefix_append_right_inj] at found
    cases more with
    | nil => simp
    | cons c more =>
        cases rest with
        | nil => simp at found
        | cons d rest =>
            obtain ⟨rfl, _⟩ := List.cons_prefix_cons.mp found
            exact absurd (made (by simp)) (other c rfl)

theorem takeWhile_closed {c : Char} (inside : ∀ d ∈ first, p d = true) (stops : p c = false) :
    (first ++ c :: rest).takeWhile p = first := by
  rw [List.takeWhile_append_of_pos inside, List.takeWhile_cons, stops]
  exact List.append_nil first

theorem dropWhile_closed {c : Char} (inside : ∀ d ∈ first, p d = true) (stops : p c = false) :
    (first ++ c :: rest).dropWhile p = c :: rest := by
  rw [List.dropWhile_append_of_pos inside, List.dropWhile_cons, stops]
  rfl

/-- A text is one run, or a run ends in it. -/
theorem run_cases (p : Char → Bool) (text : List Char) :
    (∀ d ∈ text, p d = true) ∨ ∃ first c rest, text = first ++ c :: rest ∧
      (∀ d ∈ first, p d = true) ∧ p c = false := by
  have parts := List.takeWhile_append_dropWhile (p := p) (l := text)
  cases behind : text.dropWhile p with
  | nil => exact .inl (List.dropWhile_eq_nil_iff.mp behind)
  | cons c rest =>
      have stops := List.head?_dropWhile_not p text
      rw [behind] at stops parts
      exact .inr ⟨_, c, rest, parts.symm, fun d => List.mem_takeWhile_imp, stops⟩

/-- Of two starts of a text the one with fewer bytes starts the other. -/
theorem prefix_of_utf8Length_le {first second text : List Char} (left : first <+: text)
    (right : second <+: text) (le : utf8Length first ≤ utf8Length second) : first <+: second := by
  rcases List.prefix_or_prefix_of_prefix left right with here | ⟨more, rfl⟩
  · exact here
  · rw [utf8Length_append] at le
    have bytes := length_le_utf8Length more
    obtain rfl := List.length_eq_zero_iff.mp (show more.length = 0 by omega)
    simp

/-- A start of a text with as many bytes is the whole text. -/
theorem eq_of_prefix_of_utf8Length_le {first text : List Char} (starts : first <+: text)
    (le : utf8Length text ≤ utf8Length first) : first = text := by
  obtain ⟨more, rfl⟩ := starts
  rw [utf8Length_append] at le
  have bytes := length_le_utf8Length more
  obtain rfl := List.length_eq_zero_iff.mp (show more.length = 0 by omega)
  exact (List.append_nil first).symm

end Lalr.Text
