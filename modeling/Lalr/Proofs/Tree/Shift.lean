import Lalr.Proofs.Text.Bytes
import Lalr.Proofs.Tree.Edit

set_option autoImplicit false

/-!
Ranges of bytes under edits. Each edit is given in the coordinates left by those before it; a
range that no edit meets is moved as a whole, and the new text has the same bytes there.
-/

namespace Lalr

namespace TextEdit

/-- The edit replaces bytes that a text has. -/
structure Fits (edit : TextEdit) (text : List UInt8) : Prop where
  start_le_oldEnd : edit.start ≤ edit.oldEnd
  oldEnd_le_length : edit.oldEnd ≤ text.length
  start_le_newEnd : edit.start ≤ edit.newEnd

/-- A text with other bytes in place of those that the edit removes. -/
def replace (edit : TextEdit) (text added : List UInt8) : List UInt8 :=
  text.take edit.start ++ added ++ text.drop edit.oldEnd

/-- One edit after the other fits the text made so far, of which offsets can be words. -/
inductive Rewrites : List TextEdit → List UInt8 → List UInt8 → Prop where
  | nil (text : List UInt8) : Rewrites [] text text
  | cons {edit : TextEdit} {edits : List TextEdit} {old added new : List UInt8} :
      edit.Fits old → edit.start + added.length = edit.newEnd →
      (edit.replace old added).length < 2 ^ 64 →
      Rewrites edits (edit.replace old added) new → Rewrites (edit :: edits) old new

/-- One edit after the other fits the text made so far, and no text on the way is too long for
memory. -/
inductive Revises : List TextEdit → List UInt8 → List UInt8 → Prop where
  | nil (text : List UInt8) : Revises [] text text
  | cons {edit : TextEdit} {edits : List TextEdit} {old added new : List UInt8} :
      edit.Fits old → edit.start + added.length = edit.newEnd →
      (edit.replace old added).length < 2 ^ 63 →
      Revises edits (edit.replace old added) new → Revises (edit :: edits) old new

/-- The edit replaces or puts in something strictly inside a range. -/
def Meets (edit : TextEdit) (range : Nat × Nat) : Prop :=
  edit.start < range.2 ∧ range.1 < edit.oldEnd

end TextEdit

/-- The bytes of a text in a range. -/
def bytesIn (text : List UInt8) (range : Nat × Nat) : List UInt8 :=
  (text.drop range.1).take (range.2 - range.1)

namespace TextEdit

variable {edit : TextEdit} {old added : List UInt8} {range image : Nat × Nat}

theorem mapRange?_eq_none_iff : edit.mapRange? range = none ↔ edit.Meets range := by
  unfold mapRange? Meets
  split
  case isTrue before =>
      constructor
      · intro lost
        cases lost
      · intro meets
        omega
  case isFalse notBefore =>
      split
      case isTrue behind =>
          constructor
          · intro lost
            cases lost
          · intro meets
            omega
      case isFalse notBehind =>
          constructor
          · intro _
            omega
          · intro _
            rfl

namespace Fits

theorem length_front (fits : edit.Fits old) (grows : edit.start + added.length = edit.newEnd) :
    (old.take edit.start ++ added).length = edit.newEnd := by
  have bound := Nat.le_trans fits.start_le_oldEnd fits.oldEnd_le_length
  rw [List.length_append, List.length_take, Nat.min_eq_left bound, grows]

theorem length_replace (fits : edit.Fits old)
    (grows : edit.start + added.length = edit.newEnd) :
    (edit.replace old added).length + edit.oldEnd = old.length + edit.newEnd := by
  have bound := fits.oldEnd_le_length
  rw [replace, List.length_append, fits.length_front grows, List.length_drop]
  omega

theorem bytesIn_before (fits : edit.Fits old) (before : range.2 ≤ edit.start) :
    bytesIn (edit.replace old added) range = bytesIn old range := by
  have bound := Nat.le_trans fits.start_le_oldEnd fits.oldEnd_le_length
  have length : (old.take edit.start).length = edit.start := by
    rw [List.length_take, Nat.min_eq_left bound]
  rw [bytesIn, bytesIn, replace, List.append_assoc]
  by_cases ordered : range.1 ≤ edit.start
  · rw [List.drop_append_of_le_length (by omega), List.take_append_of_le_length (by
      rw [List.length_drop]; omega), List.drop_take, List.take_take, Nat.min_eq_left (by omega)]
  · rw [Nat.sub_eq_zero_of_le (by omega), List.take_zero, List.take_zero]

theorem bytesIn_behind (fits : edit.Fits old) (grows : edit.start + added.length = edit.newEnd)
    {first last : Nat} (behind : edit.oldEnd ≤ first) (ordered : first ≤ last) :
    bytesIn (edit.replace old added)
      (first - edit.oldEnd + edit.newEnd, last - edit.oldEnd + edit.newEnd) =
      bytesIn old (first, last) := by
  have front := fits.length_front grows
  have rest : (edit.replace old added).drop (first - edit.oldEnd + edit.newEnd) =
      old.drop first := by
    rw [replace, Nat.add_comm, ← front, List.drop_length_add_append, List.drop_drop]
    congr 1
    omega
  simp only [bytesIn]
  rw [rest]
  congr 1
  omega

/-- What one edit does to a range that it does not meet. -/
theorem mapRange?_spec (fits : edit.Fits old)
    (grows : edit.start + added.length = edit.newEnd) (small : old.length < 2 ^ 64)
    (small' : (edit.replace old added).length < 2 ^ 64) (ordered : range.1 ≤ range.2)
    (inside : range.2 ≤ old.length) (mapped : edit.mapRange? range = some image) :
    image.1 ≤ image.2 ∧ image.2 - image.1 = range.2 - range.1 ∧
      image.2 ≤ (edit.replace old added).length ∧
      bytesIn (edit.replace old added) image = bytesIn old range := by
  have lengths := fits.length_replace grows
  obtain ⟨bound, bound', bound''⟩ := fits
  unfold mapRange? at mapped
  split at mapped
  case isTrue before =>
      obtain rfl := Option.some.inj mapped
      exact ⟨ordered, rfl, by omega, bytesIn_before ⟨bound, bound', bound''⟩ before⟩
  case isFalse =>
      split at mapped
      case isFalse => cases mapped
      case isTrue behind =>
          obtain rfl := Option.some.inj mapped
          rw [moved_eq behind (by omega) (by omega),
            moved_eq (by omega) (by omega) (by omega)]
          exact ⟨by dsimp only; omega, by dsimp only; omega, by dsimp only; omega,
            bytesIn_behind ⟨bound, bound', bound''⟩ grows behind ordered⟩

end Fits

theorem mapRangeAll?_cons (edit : TextEdit) (edits : List TextEdit) (range : Nat × Nat) :
    mapRangeAll? (edit :: edits) range = (edit.mapRange? range).bind (mapRangeAll? edits) := by
  rw [mapRangeAll?, List.foldlM_cons]
  rfl

theorem mapRangeAll?_eq_none_iff {edits : List TextEdit} : mapRangeAll? edits range = none ↔
    ∃ before edit after image, edits = before ++ edit :: after ∧
      mapRangeAll? before range = some image ∧ edit.Meets image := by
  induction edits generalizing range with
  | nil =>
      constructor
      · intro lost
        cases lost
      · intro met
        obtain ⟨before, edit, after, _, shape, _⟩ := met
        simp at shape
  | cons edit edits ih =>
      rw [mapRangeAll?_cons]
      cases mapped : edit.mapRange? range with
      | none =>
          constructor
          · intro _
            exact ⟨[], edit, edits, range, rfl, rfl, mapRange?_eq_none_iff.mp mapped⟩
          · intro _
            rfl
      | some image =>
          rw [Option.bind_some, ih]
          constructor
          · intro met
            obtain ⟨before, other, after, last, rfl, reached, meets⟩ := met
            refine ⟨edit :: before, other, after, last, rfl, ?_, meets⟩
            rw [mapRangeAll?_cons, mapped, Option.bind_some, reached]
          · intro met
            obtain ⟨before, other, after, last, shape, reached, meets⟩ := met
            cases before with
            | nil =>
                -- the first edit has let the range through, so it is not the one that meets it
                obtain ⟨rfl, rfl⟩ := List.cons.inj shape
                obtain rfl := Option.some.inj reached
                rw [mapRange?_eq_none_iff.mpr meets] at mapped
                cases mapped
            | cons first before =>
                obtain ⟨rfl, rfl⟩ := List.cons.inj shape
                rw [mapRangeAll?_cons, mapped, Option.bind_some] at reached
                exact ⟨before, other, after, last, rfl, reached, meets⟩

theorem Rewrites.mapRangeAll?_some {edits : List TextEdit} {old new : List UInt8}
    (rewrites : Rewrites edits old new) (small : old.length < 2 ^ 64) {range image : Nat × Nat}
    (ordered : range.1 ≤ range.2) (inside : range.2 ≤ old.length)
    (mapped : mapRangeAll? edits range = some image) :
    image.1 ≤ image.2 ∧ image.2 - image.1 = range.2 - range.1 ∧ image.2 ≤ new.length ∧
      bytesIn new image = bytesIn old range := by
  induction rewrites generalizing range with
  | nil text =>
      obtain rfl := Option.some.inj mapped
      exact ⟨ordered, rfl, inside, rfl⟩
  | cons fits grows small' _ ih =>
      rw [mapRangeAll?_cons] at mapped
      obtain ⟨between, first, rest⟩ := Option.bind_eq_some_iff.mp mapped
      obtain ⟨ordered', width, inside', same⟩ :=
        fits.mapRange?_spec grows small small' ordered inside first
      obtain ⟨lastOrdered, lastWidth, lastInside, lastSame⟩ := ih small' ordered' inside' rest
      exact ⟨lastOrdered, lastWidth.trans width, lastInside, lastSame.trans same⟩

/-- Edits that turn one text into another one move a range as a whole to a place where the new
text has the same bytes, unless one of them meets the place to which those before it have moved
the range; then, and only then, the range is lost. -/
theorem range_kept_or_met {edits : List TextEdit} {old new : List UInt8}
    (rewrites : Rewrites edits old new) (small : old.length < 2 ^ 64) {range : Nat × Nat}
    (ordered : range.1 ≤ range.2) (inside : range.2 ≤ old.length) :
    (∀ image, mapRangeAll? edits range = some image →
      image.1 ≤ image.2 ∧ image.2 - image.1 = range.2 - range.1 ∧ image.2 ≤ new.length ∧
        bytesIn new image = bytesIn old range) ∧
    (mapRangeAll? edits range = none ↔
      ∃ before edit after image, edits = before ++ edit :: after ∧
        mapRangeAll? before range = some image ∧ edit.Meets image) :=
  ⟨fun _ mapped => rewrites.mapRangeAll?_some small ordered inside mapped,
    mapRangeAll?_eq_none_iff⟩

/-- In the bytes of `abcde` the first edit makes `a` longer and the second one takes the `d` away:
`bc` is moved by two bytes. -/
theorem range_kept_in_letters :
    Rewrites [⟨0, 1, 3⟩, ⟨5, 6, 5⟩] [97, 98, 99, 100, 101] [120, 121, 122, 98, 99, 101] ∧
    mapRangeAll? [⟨0, 1, 3⟩, ⟨5, 6, 5⟩] (1, 3) = some (3, 5) ∧
    bytesIn [120, 121, 122, 98, 99, 101] (3, 5) = bytesIn [97, 98, 99, 100, 101] (1, 3) ∧
    mapRangeAll? [⟨0, 1, 3⟩, ⟨5, 6, 5⟩] (1, 4) = none ∧
    (∃ before edit after image, ([⟨0, 1, 3⟩, ⟨5, 6, 5⟩] : List TextEdit) =
      before ++ edit :: after ∧ mapRangeAll? before (1, 4) = some image ∧ edit.Meets image) := by
  have rewrites : Rewrites [⟨0, 1, 3⟩, ⟨5, 6, 5⟩] [97, 98, 99, 100, 101]
      [120, 121, 122, 98, 99, 101] :=
    @Rewrites.cons _ _ _ [120, 121, 122] _ ⟨by decide, by decide, by decide⟩ rfl (by decide)
      (@Rewrites.cons _ _ _ [] _ ⟨by decide, by decide, by decide⟩ rfl (by decide) (.nil _))
  have mapped : mapRangeAll? [⟨0, 1, 3⟩, ⟨5, 6, 5⟩] (1, 3) = some (3, 5) := by decide
  have lost : mapRangeAll? [⟨0, 1, 3⟩, ⟨5, 6, 5⟩] (1, 4) = none := by decide
  have kept := (range_kept_or_met rewrites (by decide) (by decide) (by decide)).1 _ mapped
  have met := (range_kept_or_met rewrites (by decide) (by decide) (by decide)).2.mp lost
  exact ⟨rewrites, mapped, kept.2.2.2, lost, met⟩

/-! ## Pieces of a text -/

/-- A piece of a text that an edit does not meet, together with a margin behind it, is moved as a
whole. The margin may reach past the end of the text. -/
theorem Fits.mapRange?_piece {before piece behind : List UInt8}
    (fits : edit.Fits (before ++ (piece ++ behind)))
    (grows : edit.start + added.length = edit.newEnd)
    (small : (before ++ (piece ++ behind)).length < 2 ^ 63)
    (small' : (edit.replace (before ++ (piece ++ behind)) added).length < 2 ^ 63) {margin : Nat}
    (margin_le : margin ≤ 2 ^ 63)
    (mapped : edit.mapRange? (before.length, before.length + piece.length + margin) =
      some range) :
    range.2 = range.1 + piece.length + margin ∧ ∃ before' behind',
      edit.replace (before ++ (piece ++ behind)) added = before' ++ (piece ++ behind') ∧
        before'.length = range.1 := by
  have lengths := fits.length_replace grows
  have front := fits.length_front grows
  rw [List.length_append, List.length_append] at small lengths
  unfold mapRange? at mapped
  dsimp only at mapped
  split at mapped
  case isTrue early =>
      obtain rfl := Option.some.inj mapped
      refine ⟨rfl, before, ((piece ++ behind).take (edit.start - before.length)).drop piece.length ++
        added ++ (before ++ (piece ++ behind)).drop edit.oldEnd, ?_, rfl⟩
      have kept : (before ++ (piece ++ behind)).take edit.start = before ++ (piece ++
          ((piece ++ behind).take (edit.start - before.length)).drop piece.length) := by
        rw [List.take_append, List.take_of_length_le (by omega), List.take_append,
          List.take_of_length_le (by omega), List.drop_left]
      rw [replace, kept]
      simp
  case isFalse =>
      split at mapped
      case isFalse => cases mapped
      case isTrue late =>
          obtain rfl := Option.some.inj mapped
          dsimp only
          rw [moved_eq late (by omega) (by omega), moved_eq (by omega) (by omega) (by omega)]
          refine ⟨by omega, (before ++ (piece ++ behind)).take edit.start ++ added ++
            before.drop edit.oldEnd, behind, ?_, ?_⟩
          · rw [replace, List.drop_append_of_le_length late]
            simp
          · rw [List.length_append, front, List.length_drop, Nat.add_comm]

theorem Revises.mapRangeAll?_piece {edits : List TextEdit} {new : List UInt8}
    {before piece behind : List UInt8} (revises : Revises edits (before ++ (piece ++ behind)) new)
    (small : (before ++ (piece ++ behind)).length < 2 ^ 63) {margin : Nat}
    (margin_le : margin ≤ 2 ^ 63)
    (mapped : mapRangeAll? edits (before.length, before.length + piece.length + margin) =
      some range) :
    ∃ before' behind', new = before' ++ (piece ++ behind') ∧ before'.length = range.1 := by
  generalize whole : before ++ (piece ++ behind) = old at revises
  induction revises generalizing before behind with
  | nil text =>
      obtain rfl := Option.some.inj mapped
      exact ⟨before, behind, whole.symm, rfl⟩
  | cons fits grows small' _ ih =>
      subst whole
      rw [mapRangeAll?_cons] at mapped
      obtain ⟨⟨first, last⟩, here, rest⟩ := Option.bind_eq_some_iff.mp mapped
      obtain ⟨width, before', behind', shape, rfl⟩ :=
        fits.mapRange?_piece grows small small' margin_le here
      obtain rfl : last = before'.length + piece.length + margin := width
      exact ih (shape ▸ small') rest shape.symm

theorem Revises.inMemory {edits : List TextEdit} {new : List UInt8} (revises : Revises edits old new)
    (small : old.length < 2 ^ 63) : new.length < 2 ^ 63 := by
  induction revises with
  | nil => exact small
  | cons _ _ small' _ ih => exact ih small'

open Text in
/-- What edits of the bytes of a text leave untouched stands in the text that they lead to. -/
theorem Revises.holdsAt {edits : List TextEdit} {former text piece : List Char}
    (revises : Revises edits (encodeUtf8 former) (encodeUtf8 text)) (fits : InMemory former)
    {place margin : Nat} (holds : HoldsAt former place piece) (more : piece ≠ [])
    (margin_le : margin ≤ 2 ^ 63)
    (mapped : mapRangeAll? edits (place, place + utf8Length piece + margin) = some range) :
    HoldsAt text range.1 piece := by
  obtain ⟨before, behind, rfl, rfl⟩ := holds
  have bytes : encodeUtf8 (before ++ piece ++ behind) =
      encodeUtf8 before ++ (encodeUtf8 piece ++ encodeUtf8 behind) := by simp
  rw [InMemory, ← length_encodeUtf8, bytes] at fits
  rw [bytes] at revises
  rw [← length_encodeUtf8 before, ← length_encodeUtf8 piece] at mapped
  obtain ⟨before', behind', made, length⟩ := revises.mapRangeAll?_piece fits margin_le mapped
  obtain ⟨front, rest, shape, start⟩ :=
    exists_split_of_encodeUtf8 more (made.trans (List.append_assoc ..).symm)
  exact ⟨front, rest, shape, start.trans length⟩

end TextEdit

end Lalr
