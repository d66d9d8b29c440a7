import Lalr.Text.Utf8
import Lalr.Tree.Subtree

set_option autoImplicit false

/-!
Edits of a text, and the subtrees of an old tree that they leave untouched.
-/

namespace Lalr

open Lalr.Text

/-- The replacement of the bytes from `start` to `oldEnd` by new text up to `newEnd`. -/
structure TextEdit where
  start : Nat
  oldEnd : Nat
  newEnd : Nat
deriving DecidableEq, Repr, Inhabited

/-- The characters that two texts have in common at their start. -/
def commonStart : List Char → List Char → List Char
  | a :: as, b :: bs => if a = b then a :: commonStart as bs else []
  | _, _ => []

namespace TextEdit

/-- The edit that turns one text into another by replacing what differs between their
common start and the common end of what follows it. -/
def between (old new : List Char) : TextEdit :=
  let kept := commonStart old new
  let oldRest := (old.drop kept.length).reverse
  let newRest := (new.drop kept.length).reverse
  let tail := utf8Length (commonStart oldRest newRest)
  ⟨utf8Length kept, utf8Length old - tail, utf8Length new - tail⟩

/-- Where an offset behind the edit lies after it. Offsets are words of eight bytes: one that
is moved past the largest starts again from zero. -/
def moved (edit : TextEdit) (offset : Nat) : Nat :=
  (offset.toUInt64 - edit.oldEnd.toUInt64 + edit.newEnd.toUInt64).toNat

/-- Where a range of the old text lies after the edit; nowhere, if the edit touches
it. -/
def mapRange? (edit : TextEdit) (range : Nat × Nat) : Option (Nat × Nat) :=
  if range.2 ≤ edit.start then some range
  else if edit.oldEnd ≤ range.1 then some (edit.moved range.1, edit.moved range.2)
  else none

/-- Where a range lies after several edits, each in the coordinates left by those before
it. -/
def mapRangeAll? (edits : List TextEdit) (range : Nat × Nat) : Option (Nat × Nat) :=
  edits.foldlM (fun range edit => edit.mapRange? range) range

end TextEdit

/-- A subtree of an old tree that may be taken over, and the new offset of its first
token. -/
structure ReuseCandidate where
  offset : Nat
  subtree : Subtree
deriving Repr

namespace Subtree

/-- The subtree itself as a candidate, if no edit touches what it depends on; its summary is
given. -/
def asCandidateWith? (edits : List TextEdit) (start : Nat) (subtree : Subtree)
    (summary : Summary) : Option ReuseCandidate :=
  if subtree.isReusableWith summary then
    let dependencyEnd := start + summary.length + subtree.lookaheadBytes
    (TextEdit.mapRangeAll? edits (start, dependencyEnd)).map fun range =>
      ⟨(range.1.toUInt64 + subtree.padding.toUInt64).toNat, subtree⟩
  else none

/-- The subtree itself as a candidate, if no edit touches what it depends on. -/
def asCandidate? (edits : List TextEdit) (start : Nat) (subtree : Subtree) :
    Option ReuseCandidate :=
  asCandidateWith? edits start subtree subtree.summary

mutual

/-- The candidates of a subtree that starts at byte `start`, outer ones first. -/
def candidates (edits : List TextEdit) (start : Nat) : Subtree → List ReuseCandidate
  | .leaf _ => []
  | .node head children =>
      (asCandidate? edits start (.node head children)).toList ++
        candidatesOf edits start children

/-- The candidates of several subtrees in a row. -/
def candidatesOf (edits : List TextEdit) (start : Nat) : List Subtree → List ReuseCandidate
  | [] => []
  | child :: children =>
      child.candidates edits start ++ candidatesOf edits (start + child.length) children

end

/-! ## Candidates in one pass

To judge every subtree on its own summarises each once for every subtree around it. A survey
takes the summary of a subtree from the surveys of its children. -/

mutual

/-- The candidates of a subtree that starts at byte `start`, with its summary. -/
def survey (edits : List TextEdit) (start : Nat) : Subtree → List ReuseCandidate × Summary
  | .leaf token => ([], (Subtree.leaf token).summary)
  | .node head children =>
      let (found, below) := surveyOf edits start children
      let summary := { below with
        containsError := head.symbol == errorSymbol || below.containsError }
      ((asCandidateWith? edits start (.node head children) summary).toList ++ found, summary)

/-- The candidates of several subtrees in a row, with their summary. -/
def surveyOf (edits : List TextEdit) (start : Nat) :
    List Subtree → List ReuseCandidate × Summary
  | [] => ([], ⟨0, false, false⟩)
  | child :: children =>
      let (first, summary) := child.survey edits start
      let (others, below) := surveyOf edits (start + summary.length) children
      (first ++ others,
        ⟨summary.length + below.length, summary.containsError || below.containsError,
          summary.isFragile || below.isFragile⟩)

end

mutual

/-- A survey finds the candidates and the summary of a subtree. -/
theorem survey_eq (edits : List TextEdit) (start : Nat) (subtree : Subtree) :
    subtree.survey edits start = (subtree.candidates edits start, subtree.summary) := by
  cases subtree with
  | leaf token => simp [survey, candidates]
  | node head children =>
      simp only [survey, candidates, surveyOf_eq, asCandidate?, summary, length, containsError,
        isFragile]

/-- A survey of several subtrees finds their candidates and what they amount to. -/
theorem surveyOf_eq (edits : List TextEdit) (start : Nat) (children : List Subtree) :
    surveyOf edits start children =
      (candidatesOf edits start children,
        ⟨lengths children, anyContainsError children, anyIsFragile children⟩) := by
  cases children with
  | nil => simp [surveyOf, candidatesOf, lengths, anyContainsError, anyIsFragile]
  | cons child children =>
      simp only [surveyOf, candidatesOf, survey_eq, surveyOf_eq, summary, lengths,
        anyContainsError, anyIsFragile]

end

end Subtree

/-- The subtrees of an old tree that may be taken over. -/
abbrev ReuseIndex := List ReuseCandidate

namespace ReuseIndex

/-- Indexes an old tree with the edits recorded on it. -/
def ofTree (root : Subtree) (edits : List TextEdit) : ReuseIndex :=
  (root.survey edits 0).1

theorem ofTree_eq (root : Subtree) (edits : List TextEdit) :
    ofTree root edits = root.candidates edits 0 := by
  rw [ofTree, Subtree.survey_eq]

/-- The subtrees whose first token starts at an offset, outer ones first. -/
def candidatesAt (index : ReuseIndex) (offset : Nat) : List Subtree :=
  (index.filter fun candidate => candidate.offset == offset).map ReuseCandidate.subtree

end ReuseIndex

end Lalr
