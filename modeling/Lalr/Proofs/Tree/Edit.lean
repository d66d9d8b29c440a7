import Mathlib.Algebra.Group.Nat.Defs
import Lalr.Tree.Edit

set_option autoImplicit false

/-!
What edits do to a text. A range that no edit touches holds the same characters in the new text,
at the place that the edits move it to. The edit between two texts keeps the longest start that they
share, and of what follows that start in each of them the longest end that these rests share.
-/

namespace Lalr

open Lalr.Text

/-! ## Ranges of a text -/

namespace Text

/-- A text has some characters at a byte offset. -/
def HoldsAt (text : List Char) (offset : Nat) (piece : List Char) : Prop :=
  ∃ before behind, text = before ++ piece ++ behind ∧ utf8Length before = offset

theorem HoldsAt.le_length {text piece : List Char} {offset : Nat}
    (holds : HoldsAt text offset piece) : offset + utf8Length piece ≤ utf8Length text := by
  obtain ⟨before, behind, rfl, rfl⟩ := holds
  rw [utf8Length_append, utf8Length_append]
  omega

theorem HoldsAt.append {text piece : List Char} {offset : Nat}
    (holds : HoldsAt text offset piece) (rest : List Char) :
    HoldsAt (text ++ rest) offset piece := by
  obtain ⟨before, behind, rfl, start⟩ := holds
  exact ⟨before, behind ++ rest, by simp, start⟩

/-- Two ways to cut a text of which the first one cuts earlier. -/
theorem exists_between {first rest longer shorter : List Char}
    (same : first ++ rest = longer ++ shorter) (earlier : utf8Length first ≤ utf8Length longer) :
    ∃ between, longer = first ++ between ∧ rest = between ++ shorter := by
  rcases List.append_eq_append_iff.mp same with ⟨between, rfl, rfl⟩ | ⟨between, rfl, rfl⟩
  · exact ⟨between, rfl, rfl⟩
  · -- the second cut is not earlier, so nothing lies between the two
    rw [utf8Length_append] at earlier
    have none_between : between = [] := by
      cases between with
      | nil => rfl
      | cons c between =>
          have positive := c.utf8Size_pos
          rw [utf8Length_cons] at earlier
          omega
    subst none_between
    exact ⟨[], by simp, by simp⟩

/-- The text is one that memory can hold. -/
def InMemory (text : List Char) : Prop :=
  utf8Length text < 2 ^ 63

end Text

namespace TextEdit

/-- An edit describes how one text becomes another one. -/
def Replaces (edit : TextEdit) (old new : List Char) : Prop :=
  ∃ before removed added behind, old = before ++ removed ++ behind ∧
    new = before ++ added ++ behind ∧ utf8Length before = edit.start ∧
    utf8Length (before ++ removed) = edit.oldEnd ∧ utf8Length (before ++ added) = edit.newEnd

/-- Edits describe one after the other how one text becomes another one. -/
inductive Turns : List TextEdit → List Char → List Char → Prop where
  | nil (text : List Char) : Turns [] text text
  | cons {edit : TextEdit} {edits : List TextEdit} {old middle new : List Char} :
      edit.Replaces old middle → InMemory middle → Turns edits middle new →
        Turns (edit :: edits) old new

variable {edit : TextEdit} {old new piece : List Char}

theorem Replaces.holdsAt_before (replaces : edit.Replaces old new) {offset : Nat}
    (holds : HoldsAt old offset piece) (earlier : offset + utf8Length piece ≤ edit.start) :
    HoldsAt new offset piece := by
  obtain ⟨before, removed, added, behind, oldShape, newShape, start, _, _⟩ := replaces
  obtain ⟨front, rest, shape, rfl⟩ := holds
  have same : (front ++ piece) ++ rest = before ++ (removed ++ behind) := by
    rw [← shape, oldShape, List.append_assoc]
  obtain ⟨between, rfl, _⟩ := exists_between same (by rw [utf8Length_append]; omega)
  exact ⟨front, between ++ added ++ behind, by rw [newShape]; simp, rfl⟩

theorem Replaces.holdsAt_behind (replaces : edit.Replaces old new) {offset : Nat}
    (holds : HoldsAt old offset piece) (later : edit.oldEnd ≤ offset) :
    HoldsAt new (offset - edit.oldEnd + edit.newEnd) piece := by
  obtain ⟨before, removed, added, behind, oldShape, newShape, _, oldEnd, newEnd⟩ := replaces
  obtain ⟨front, rest, shape, rfl⟩ := holds
  have same : (before ++ removed) ++ behind = front ++ (piece ++ rest) := by
    rw [← oldShape, shape, List.append_assoc]
  obtain ⟨between, rfl, rfl⟩ := exists_between same (by omega)
  refine ⟨before ++ added ++ between, rest, by rw [newShape]; simp, ?_⟩
  rw [utf8Length_append, newEnd, utf8Length_append (before ++ removed), oldEnd]
  omega

theorem Replaces.length_eq (replaces : edit.Replaces old new) :
    utf8Length old + edit.newEnd = utf8Length new + edit.oldEnd := by
  obtain ⟨before, removed, added, behind, rfl, rfl, _, oldEnd, newEnd⟩ := replaces
  rw [utf8Length_append, utf8Length_append _ behind, oldEnd, newEnd]
  omega

/-- An offset that stays small is moved without starting again from zero. -/
theorem moved_eq {offset : Nat} (later : edit.oldEnd ≤ offset) (small : offset < 2 ^ 64)
    (result : offset - edit.oldEnd + edit.newEnd < 2 ^ 64) :
    edit.moved offset = offset - edit.oldEnd + edit.newEnd := by
  unfold moved
  have difference : (offset.toUInt64 - edit.oldEnd.toUInt64).toNat = offset - edit.oldEnd := by
    rw [UInt64.toNat_sub_of_le]
    · simp only [Nat.toUInt64_eq, UInt64.toNat_ofNat']
      omega
    · rw [UInt64.le_iff_toNat_le]
      simp only [Nat.toUInt64_eq, UInt64.toNat_ofNat']
      omega
  rw [UInt64.toNat_add, difference]
  simp only [Nat.toUInt64_eq, UInt64.toNat_ofNat']
  omega

/-- A range that an edit does not touch is moved as a whole, with the characters at its start. -/
theorem Replaces.mapRange? (replaces : edit.Replaces old new) (oldFits : InMemory old)
    (newFits : InMemory new) {start margin : Nat} (margin_le : margin ≤ 2 ^ 63)
    (holds : HoldsAt old start piece) {range : Nat × Nat}
    (found : edit.mapRange? (start, start + utf8Length piece + margin) = some range) :
    range.2 = range.1 + utf8Length piece + margin ∧ HoldsAt new range.1 piece := by
  have inside := holds.le_length
  have lengths := replaces.length_eq
  unfold InMemory at oldFits newFits
  unfold TextEdit.mapRange? at found
  dsimp only at found
  split at found
  case isTrue earlier =>
      obtain rfl := Option.some.inj found
      exact ⟨rfl, replaces.holdsAt_before holds (by omega)⟩
  case isFalse =>
      split at found
      case isFalse => cases found
      case isTrue later =>
          obtain rfl := Option.some.inj found
          dsimp only
          rw [moved_eq later (by omega) (by omega), moved_eq (by omega) (by omega) (by omega)]
          exact ⟨by omega, replaces.holdsAt_behind holds later⟩

theorem Turns.inMemory {edits : List TextEdit} (turns : Turns edits old new)
    (fits : InMemory old) : InMemory new := by
  induction turns with
  | nil => exact fits
  | cons _ middleFits _ ih => exact ih middleFits

/-- A range that no edit touches is moved as a whole, with the characters at its start. -/
theorem Turns.mapRangeAll? {edits : List TextEdit} (turns : Turns edits old new)
    (fits : InMemory old) {start margin : Nat} (margin_le : margin ≤ 2 ^ 63)
    (holds : HoldsAt old start piece) {range : Nat × Nat}
    (found : mapRangeAll? edits (start, start + utf8Length piece + margin) = some range) :
    range.2 = range.1 + utf8Length piece + margin ∧ HoldsAt new range.1 piece := by
  induction turns generalizing start with
  | nil text =>
      obtain rfl := Option.some.inj found
      exact ⟨rfl, holds⟩
  | @cons edit edits old middle new replaces middleFits _ ih =>
      rw [TextEdit.mapRangeAll?, List.foldlM_cons] at found
      obtain ⟨between, mapped, rest⟩ := Option.bind_eq_some_iff.mp found
      obtain ⟨whole, moved⟩ := replaces.mapRange? fits middleFits margin_le holds mapped
      obtain ⟨first, last⟩ := between
      obtain rfl : last = first + utf8Length piece + margin := whole
      exact ih middleFits moved rest

end TextEdit

/-! ## Shared starts and ends -/

theorem commonStart_cons (c d : Char) (first second : List Char) :
    commonStart (c :: first) (d :: second) =
      if c = d then c :: commonStart first second else [] := rfl

theorem commonStart_nil (first : List Char) : commonStart first [] = [] := by
  cases first <;> rfl

theorem commonStart_prefix_left (first second : List Char) :
    commonStart first second <+: first := by
  induction first generalizing second with
  | nil => exact List.prefix_refl []
  | cons c first ih =>
      cases second with
      | nil => exact List.nil_prefix
      | cons d second =>
          rw [commonStart_cons]
          split
          · exact List.cons_prefix_cons.mpr ⟨rfl, ih second⟩
          · exact List.nil_prefix

theorem commonStart_comm (first second : List Char) :
    commonStart first second = commonStart second first := by
  induction first generalizing second with
  | nil => exact (commonStart_nil second).symm
  | cons c first ih =>
      cases second with
      | nil => rfl
      | cons d second =>
          rw [commonStart_cons, commonStart_cons]
          by_cases same : c = d
          · rw [if_pos same, if_pos same.symm, same, ih]
          · rw [if_neg same, if_neg (Ne.symm same)]

theorem commonStart_prefix_right (first second : List Char) :
    commonStart first second <+: second :=
  commonStart_comm first second ▸ commonStart_prefix_left second first

theorem prefix_commonStart {shared first second : List Char} (left : shared <+: first)
    (right : shared <+: second) : shared <+: commonStart first second := by
  induction shared generalizing first second with
  | nil => exact List.nil_prefix
  | cons c shared ih =>
      obtain ⟨restLeft, rfl⟩ := left
      obtain ⟨restRight, rfl⟩ := right
      rw [List.cons_append, List.cons_append, commonStart_cons, if_pos rfl]
      exact List.cons_prefix_cons.mpr
        ⟨rfl, ih (List.prefix_append shared restLeft) (List.prefix_append shared restRight)⟩

/-- The characters that two texts have in common at their end. -/
def commonEnd (first second : List Char) : List Char :=
  (commonStart first.reverse second.reverse).reverse

theorem utf8Length_reverse (text : List Char) : utf8Length text.reverse = utf8Length text := by
  induction text with
  | nil => rfl
  | cons c text ih =>
      rw [List.reverse_cons, utf8Length_append, ih, utf8Length_cons, utf8Length_cons,
        utf8Length_nil]
      omega

theorem commonEnd_suffix_left (first second : List Char) : commonEnd first second <:+ first := by
  have starts := commonStart_prefix_left first.reverse second.reverse
  rw [← List.reverse_suffix, List.reverse_reverse] at starts
  exact starts

theorem commonEnd_suffix_right (first second : List Char) :
    commonEnd first second <:+ second := by
  have starts := commonStart_prefix_right first.reverse second.reverse
  rw [← List.reverse_suffix, List.reverse_reverse] at starts
  exact starts

theorem suffix_commonEnd {shared first second : List Char} (left : shared <:+ first)
    (right : shared <:+ second) : shared <:+ commonEnd first second := by
  have starts := prefix_commonStart (List.reverse_prefix.mpr left) (List.reverse_prefix.mpr right)
  rwa [← List.reverse_suffix, List.reverse_reverse] at starts

/-! ## The edit -/

namespace TextEdit

variable {old new : List Char}

/-- Both texts consist of the start that they share, something of their own, and the end that the
rests share; the edit replaces the middle parts. -/
theorem exists_parts (old new : List Char) : ∃ kept removed added tail,
    old = kept ++ removed ++ tail ∧ new = kept ++ added ++ tail ∧
    between old new =
      ⟨utf8Length kept, utf8Length (kept ++ removed), utf8Length (kept ++ added)⟩ ∧
    kept = commonStart old new ∧
    tail = commonEnd (old.drop kept.length) (new.drop kept.length) := by
  have same : between old new = ⟨utf8Length (commonStart old new),
      utf8Length old - utf8Length (commonEnd (old.drop (commonStart old new).length)
        (new.drop (commonStart old new).length)),
      utf8Length new - utf8Length (commonEnd (old.drop (commonStart old new).length)
        (new.drop (commonStart old new).length))⟩ := by
    simp only [between, commonEnd, utf8Length_reverse]
  have left := commonStart_prefix_left old new
  have right := commonStart_prefix_right old new
  generalize commonStart old new = kept at same left right ⊢
  obtain ⟨oldRest, rfl⟩ := left
  obtain ⟨newRest, rfl⟩ := right
  rw [List.drop_left, List.drop_left] at same
  obtain ⟨removed, oldParts⟩ := commonEnd_suffix_left oldRest newRest
  obtain ⟨added, newParts⟩ := commonEnd_suffix_right oldRest newRest
  refine ⟨kept, removed, added, commonEnd oldRest newRest, ?_, ?_, ?_, rfl, ?_⟩
  · rw [List.append_assoc, oldParts]
  · rw [List.append_assoc, newParts]
  · have oldLength := congrArg utf8Length oldParts
    have newLength := congrArg utf8Length newParts
    rw [utf8Length_append] at oldLength newLength
    rw [same, utf8Length_append, utf8Length_append, utf8Length_append, utf8Length_append,
      ← oldLength, ← newLength]
    congr 1 <;> omega
  · rw [List.drop_left, List.drop_left]

theorem replaces_between (old new : List Char) : (between old new).Replaces old new := by
  obtain ⟨kept, removed, added, tail, oldParts, newParts, same, _⟩ := exists_parts old new
  rw [same]
  exact ⟨kept, removed, added, tail, oldParts, newParts, rfl, rfl, rfl⟩

/-- The edit between two texts replaces whole characters of the old text by whole characters of
the new one. What it keeps in front is the longest start that the texts share, and what it keeps
behind the longest end that they share without running into that start. -/
theorem between_spec (old new : List Char) :
    let edit := between old new
    edit.start ≤ edit.oldEnd ∧ edit.oldEnd ≤ utf8Length old ∧
    edit.start ≤ edit.newEnd ∧ edit.newEnd ≤ utf8Length new ∧
    ∃ kept removed added tail,
      splitBytes? edit.start old = some (kept, removed ++ tail) ∧
      splitBytes? edit.oldEnd old = some (kept ++ removed, tail) ∧
      splitBytes? edit.start new = some (kept, added ++ tail) ∧
      splitBytes? edit.newEnd new = some (kept ++ added, tail) ∧
      (∀ shared, shared <+: old → shared <+: new → shared <+: kept) ∧
      ∀ shared, (∃ front, old = kept ++ front ++ shared) →
        (∃ front, new = kept ++ front ++ shared) → shared <:+ tail := by
  obtain ⟨kept, removed, added, tail, oldParts, newParts, same, longest, widest⟩ :=
    exists_parts old new
  have oldLength := congrArg utf8Length oldParts
  have newLength := congrArg utf8Length newParts
  rw [utf8Length_append] at oldLength newLength
  dsimp only
  rw [same]
  refine ⟨?_, by dsimp only; omega, ?_, by dsimp only; omega, kept, removed, added, tail, ?_, ?_,
    ?_, ?_, ?_, ?_⟩
  · dsimp only
    rw [utf8Length_append]
    omega
  · dsimp only
    rw [utf8Length_append]
    omega
  · exact splitBytes?_eq_some_iff.mpr ⟨by rw [oldParts, List.append_assoc], rfl⟩
  · exact splitBytes?_eq_some_iff.mpr ⟨oldParts, rfl⟩
  · exact splitBytes?_eq_some_iff.mpr ⟨by rw [newParts, List.append_assoc], rfl⟩
  · exact splitBytes?_eq_some_iff.mpr ⟨newParts, rfl⟩
  · intro shared inOld inNew
    rw [longest]
    exact prefix_commonStart inOld inNew
  · intro shared inOld inNew
    obtain ⟨front, oldShape⟩ := inOld
    obtain ⟨front', newShape⟩ := inNew
    rw [widest]
    apply suffix_commonEnd
    · rw [oldShape, List.append_assoc, List.drop_left]
      exact List.suffix_append front shared
    · rw [newShape, List.append_assoc, List.drop_left]
      exact List.suffix_append front' shared

end TextEdit

end Lalr
