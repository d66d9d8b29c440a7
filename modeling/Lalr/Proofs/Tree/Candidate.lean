import Lalr.Proofs.Parser.Leaves
import Lalr.Proofs.Tree.Edit

set_option autoImplicit false

/-!
The subtrees of an old tree that may be taken over, and the text they stand for. A tree cuts its
text into its leaves; the leaves of a subtree cut the piece that it lies at.
-/

namespace Lalr

open Lalr.Text

/-! ## Texts cut into pieces -/

/-- A text consists of pieces of some lengths. -/
def CutInto (text : List Char) (widths : List Nat) : Prop :=
  ∃ pieces : List (List Char), pieces.flatten = text ∧ pieces.map utf8Length = widths

namespace CutInto

variable {text : List Char}

theorem nil : CutInto [] [] :=
  ⟨[], rfl, rfl⟩

theorem single (text : List Char) : CutInto text [utf8Length text] :=
  ⟨[text], by simp, rfl⟩

theorem append {left right : List Char} {first second : List Nat} (leftCut : CutInto left first)
    (rightCut : CutInto right second) : CutInto (left ++ right) (first ++ second) := by
  obtain ⟨pieces, rfl, rfl⟩ := leftCut
  obtain ⟨others, rfl, rfl⟩ := rightCut
  exact ⟨pieces ++ others, by simp, by simp⟩

theorem split {first second : List Nat} (cut : CutInto text (first ++ second)) :
    ∃ left right, text = left ++ right ∧ CutInto left first ∧ CutInto right second := by
  obtain ⟨pieces, rfl, widths⟩ := cut
  obtain ⟨front, back, rfl, rfl, rfl⟩ := List.map_eq_append_iff.mp widths
  exact ⟨_, _, List.flatten_append, ⟨front, rfl, rfl⟩, ⟨back, rfl, rfl⟩⟩

theorem sum_eq {widths : List Nat} (cut : CutInto text widths) :
    utf8Length text = widths.sum := by
  obtain ⟨pieces, rfl, rfl⟩ := cut
  induction pieces with
  | nil => rfl
  | cons piece pieces ih =>
      rw [List.flatten_cons, utf8Length_append, ih, List.map_cons, List.sum_cons]

end CutInto

/-- The bytes of a leaf with the blank ones before it. -/
def Leaf.width (leaf : Leaf) : Nat :=
  leaf.padding + leaf.size

/-- The bytes of each of several leaves. -/
def widths (leaves : List Leaf) : List Nat :=
  leaves.map Leaf.width

@[simp] theorem widths_append (first second : List Leaf) :
    widths (first ++ second) = widths first ++ widths second :=
  List.map_append

@[simp] theorem widths_cons (leaf : Leaf) (leaves : List Leaf) :
    widths (leaf :: leaves) = (leaf.padding + leaf.size) :: widths leaves :=
  rfl

namespace Subtree

theorem lengths_append (before behind : List Subtree) :
    lengths (before ++ behind) = lengths before + lengths behind := by
  induction before with
  | nil => simp [lengths]
  | cons child before ih => simp [lengths, ih, Nat.add_assoc]

mutual

theorem length_eq_sum (subtree : Subtree) : subtree.length = (widths subtree.leaves).sum := by
  cases subtree with
  | leaf token => simp [length, leaves, widths, Leaf.width]
  | node head children => exact lengths_eq_sum children

theorem lengths_eq_sum (children : List Subtree) :
    lengths children = (widths (leavesOf children)).sum := by
  cases children with
  | nil => rfl
  | cons child children =>
      rw [lengths, leavesOf, widths_append, List.sum_append, length_eq_sum child,
        lengths_eq_sum children]

end

/-! ## Parts -/

/-- A subtree is another one, or lies within it at an offset from its start. -/
inductive LiesAt (part : Subtree) : Nat → Subtree → Prop where
  | whole : LiesAt part 0 part
  | inside {offset : Nat} {head : NodeHead} {before behind : List Subtree} {child : Subtree} :
      LiesAt part offset child →
        LiesAt part (lengths before + offset) (.node head (before ++ child :: behind))

/-- All subtrees within a subtree, itself included, have a property. -/
def Everywhere (property : Subtree → Prop) (subtree : Subtree) : Prop :=
  ∀ part offset, part.LiesAt offset subtree → property part

variable {property : Subtree → Prop}

theorem Everywhere.here {subtree : Subtree} (everywhere : subtree.Everywhere property) :
    property subtree :=
  everywhere subtree 0 .whole

theorem everywhere_leaf {token : Leaf} (here : property (.leaf token)) :
    (Subtree.leaf token).Everywhere property := by
  intro part offset lies
  cases lies with
  | whole => exact here

theorem everywhere_node {head : NodeHead} {children : List Subtree} :
    (Subtree.node head children).Everywhere property ↔
      property (.node head children) ∧ ∀ child ∈ children, child.Everywhere property := by
  constructor
  · intro everywhere
    refine ⟨everywhere.here, fun child member part offset lies => ?_⟩
    obtain ⟨before, behind, rfl⟩ := List.append_of_mem member
    exact everywhere part _ (.inside lies)
  · rintro ⟨here, below⟩ part offset lies
    cases lies with
    | whole => exact here
    | inside lies => exact below _ (by simp) part _ lies

theorem LiesAt.trans {part middle whole : Subtree} {inner outer : Nat}
    (lies : part.LiesAt inner middle) (outside : middle.LiesAt outer whole) :
    part.LiesAt (outer + inner) whole := by
  induction outside with
  | whole => rwa [Nat.zero_add]
  | inside _ ih =>
      rw [Nat.add_assoc]
      exact .inside ih

theorem Everywhere.part {part whole : Subtree} {offset : Nat}
    (everywhere : whole.Everywhere property) (lies : part.LiesAt offset whole) :
    part.Everywhere property :=
  fun inner _ inside => everywhere inner _ (inside.trans lies)

/-- The leaves of a part cut the piece of the text that the part lies at. -/
theorem LiesAt.holdsAt {part whole : Subtree} {offset : Nat} (lies : part.LiesAt offset whole)
    {text : List Char} (cut : CutInto text (widths whole.leaves)) :
    ∃ piece, HoldsAt text offset piece ∧ CutInto piece (widths part.leaves) := by
  induction lies generalizing text with
  | whole => exact ⟨text, ⟨[], [], by simp, rfl⟩, cut⟩
  | @inside offset head before behind child _ ih =>
      rw [leaves, leavesOf_append, leavesOf, widths_append, widths_append] at cut
      obtain ⟨front, rest, rfl, frontCut, restCut⟩ := cut.split
      obtain ⟨middle, back, rfl, middleCut, _⟩ := restCut.split
      obtain ⟨piece, ⟨left, right, shape, length⟩, pieceCut⟩ := ih middleCut
      refine ⟨piece, ⟨front ++ left, right ++ back, by rw [shape]; simp, ?_⟩, pieceCut⟩
      rw [utf8Length_append, length, frontCut.sum_eq, lengths_eq_sum]

/-! ## Candidates -/

mutual

theorem exists_of_mem_candidates {edits : List TextEdit} {start : Nat} (subtree : Subtree)
    {candidate : ReuseCandidate} (member : candidate ∈ subtree.candidates edits start) :
    ∃ offset, candidate.subtree.LiesAt offset subtree ∧
      candidate.subtree.asCandidate? edits (start + offset) = some candidate := by
  cases subtree with
  | leaf token => exact absurd member List.not_mem_nil
  | node head children =>
      rw [candidates] at member
      rcases List.mem_append.mp member with here | below
      · have found : asCandidate? edits start (.node head children) = some candidate :=
          Option.mem_toList.mp here
        have same : candidate.subtree = .node head children := by
          unfold asCandidate? asCandidateWith? at found
          split at found
          case isFalse => cases found
          case isTrue =>
              obtain ⟨_, _, rfl⟩ := Option.map_eq_some_iff.mp found
              rfl
        exact ⟨0, same ▸ .whole, same ▸ found⟩
      · obtain ⟨before, child, behind, offset, rfl, lies, found⟩ :=
          exists_of_mem_candidatesOf children below
        exact ⟨_, .inside lies, by rwa [← Nat.add_assoc]⟩

theorem exists_of_mem_candidatesOf {edits : List TextEdit} {start : Nat} (children : List Subtree)
    {candidate : ReuseCandidate} (member : candidate ∈ candidatesOf edits start children) :
    ∃ before child behind offset, children = before ++ child :: behind ∧
      candidate.subtree.LiesAt offset child ∧
      candidate.subtree.asCandidate? edits (start + lengths before + offset) = some candidate := by
  cases children with
  | nil => exact absurd member List.not_mem_nil
  | cons child children =>
      rw [candidatesOf] at member
      rcases List.mem_append.mp member with here | later
      · obtain ⟨offset, lies, found⟩ := exists_of_mem_candidates child here
        exact ⟨[], child, children, offset, rfl, lies, found⟩
      · obtain ⟨before, other, behind, offset, rfl, lies, found⟩ :=
          exists_of_mem_candidatesOf children later
        refine ⟨child :: before, other, behind, offset, rfl, lies, ?_⟩
        rwa [lengths, ← Nat.add_assoc start]

end

/-- What makes a subtree a candidate: no edit touches what it depends on. -/
theorem asCandidate?_eq_some {edits : List TextEdit} {start : Nat} {subtree : Subtree}
    {candidate : ReuseCandidate} (found : subtree.asCandidate? edits start = some candidate) :
    candidate.subtree = subtree ∧ subtree.isReusable = true ∧ ∃ range,
      TextEdit.mapRangeAll? edits (start, start + subtree.length + subtree.lookaheadBytes) =
        some range ∧
      candidate.offset = (range.1.toUInt64 + subtree.padding.toUInt64).toNat := by
  unfold asCandidate? asCandidateWith? at found
  split at found
  case isFalse => cases found
  case isTrue reusable =>
      obtain ⟨range, mapped, rfl⟩ := Option.map_eq_some_iff.mp found
      exact ⟨rfl, reusable, range, mapped, rfl⟩

theorem isExtra_of_isReusable {subtree : Subtree} (reusable : subtree.isReusable = true) :
    subtree.isExtra = false := by
  cases subtree with
  | leaf token => cases reusable
  | node head children =>
      simp only [isReusable, isReusableWith, Bool.and_eq_true, Bool.not_eq_true'] at reusable
      exact reusable.1.1.2

theorem padding_lt_of_isReusable {subtree : Subtree} (reusable : subtree.isReusable = true) :
    subtree.padding < subtree.length := by
  cases subtree with
  | leaf token => cases reusable
  | node head children =>
      simp only [isReusable, isReusableWith, Bool.and_eq_true, decide_eq_true_eq] at reusable
      exact reusable.1.1.1.1.1.2

/-- The first token of a subtree that may be taken over has the blank space of the subtree
before it. -/
theorem padding_of_isReusable {subtree : Subtree} (reusable : subtree.isReusable = true)
    {first : Leaf} (isFirst : subtree.firstLeaf? = some first) :
    first.padding = subtree.padding := by
  cases subtree with
  | leaf token => cases reusable
  | node head children =>
      simp only [isReusable, isReusableWith, Bool.and_eq_true] at reusable
      simpa [isFirst] using reusable.2

end Subtree

end Lalr
