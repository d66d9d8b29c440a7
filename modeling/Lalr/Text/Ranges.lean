set_option autoImplicit false

/-!
Sets of characters given as ascending ranges of code points. A membership test stops at the first
range that lies beyond the character. Every operation on sets answers ascending ranges with a gap
between any two of them. Surrogates are no characters, so the code points on both sides of their
block count as neighbours where a set is complemented.
-/

namespace Lalr.Text

/-- Ascending, disjoint ranges of code points, both ends included. -/
abbrev CharRanges := List (Nat × Nat)

namespace CharRanges

/-- Whether a code point lies in one of the ranges. -/
def containsCode (code : Nat) : CharRanges → Bool
  | [] => false
  | (first, last) :: ranges =>
      if code < first then false else code ≤ last || containsCode code ranges

/-- Whether a character lies in one of the ranges. -/
def contains (ranges : CharRanges) (c : Char) : Bool :=
  ranges.containsCode c.toNat

/-- Every range is non-empty and ends before the next one starts. -/
def Ascending : CharRanges → Prop
  | [] => True
  | (first, last) :: ranges =>
      first ≤ last ∧ (∀ range ∈ ranges, last < range.1) ∧ Ascending ranges

/-- On ascending ranges the early stop loses nothing. -/
theorem containsCode_iff {ranges : CharRanges} (ascending : ranges.Ascending) {code : Nat} :
    ranges.containsCode code = true ↔
      ∃ range ∈ ranges, range.1 ≤ code ∧ code ≤ range.2 := by
  induction ranges with
  | nil => simp [containsCode]
  | cons head ranges ih =>
      obtain ⟨first, last⟩ := head
      obtain ⟨_, beyond, rest⟩ := ascending
      by_cases early : code < first
      · simp only [containsCode, early, if_true, Bool.false_eq_true, List.mem_cons, false_iff]
        rintro ⟨range, member | member, low, high⟩
        · subst member
          simp only at low
          omega
        · have := beyond range member
          omega
      · simp only [containsCode, early, if_false, Bool.or_eq_true, decide_eq_true_eq, ih rest,
          List.mem_cons, exists_eq_or_imp]
        have : first ≤ code := by omega
        simp [this]

end CharRanges

end Lalr.Text

namespace Lalr.Text.CharRanges

/-- The last code point. -/
def lastCode : Nat := 0x10FFFF

/-- The code point of the next character. -/
def successor (code : Nat) : Nat :=
  if code = 0xD7FF then 0xE000 else code + 1

/-- The code point of the character before. -/
def predecessor (code : Nat) : Nat :=
  if code = 0xE000 then 0xD7FF else code - 1

/-- Joins a range with those behind it, which start no earlier; ranges that overlap or
touch become one. -/
def joinFrom (first last : Nat) : CharRanges → CharRanges
  | [] => [(first, last)]
  | (low, high) :: ranges =>
      if low ≤ last + 1 then joinFrom first (max last high) ranges
      else (first, last) :: joinFrom low high ranges

/-- Joins ranges in the order of their starts. -/
def join : CharRanges → CharRanges
  | [] => []
  | (first, last) :: ranges => joinFrom first last ranges

/-- Puts a range in front of the first range that starts behind it. What comes behind the range
is merged by `merge`. -/
def mergeInto (range : Nat × Nat) (left : CharRanges) (merge : CharRanges → CharRanges) :
    CharRanges → CharRanges
  | [] => range :: left
  | other :: right =>
      if range.1 ≤ other.1 then range :: merge (other :: right)
      else other :: mergeInto range left merge right

/-- The ranges of two lists in the order of their starts. -/
def merge : CharRanges → CharRanges → CharRanges
  | [], right => right
  | range :: left, right => mergeInto range left (merge left) right

/-- The set of all code points in any of the ranges, in whatever order they are given. -/
def ofList (ranges : CharRanges) : CharRanges :=
  join (ranges.foldr (fun range sorted => merge [range] sorted) [])

/-- The set with a single code point. -/
def single (code : Nat) : CharRanges :=
  [(code, code)]

/-- The union of two sets. -/
def union (left right : CharRanges) : CharRanges :=
  join (merge left right)

/-- The union of several sets. -/
def unions (sets : List CharRanges) : CharRanges :=
  sets.foldl union []

/-- The code points in both sets. -/
def intersection (left right : CharRanges) : CharRanges :=
  left.flatMap fun one => right.filterMap fun other =>
    let low := max one.1 other.1
    let high := min one.2 other.2
    if low ≤ high then some (low, high) else none

/-- The part of a range that lies outside ascending ranges. -/
def outside (first last : Nat) : CharRanges → CharRanges
  | [] => if first ≤ last then [(first, last)] else []
  | (low, high) :: ranges =>
      if last < first then []
      else if high < first then outside first last ranges
      else if last < low then [(first, last)]
      else
        (if first < low then [(first, predecessor low)] else []) ++
          outside (successor high) last ranges

/-- The code points of the left set that are not in the right one. -/
def difference (left right : CharRanges) : CharRanges :=
  left.flatMap fun range => outside range.1 range.2 right

/-- The code points in exactly one of the sets. -/
def symmetricDifference (left right : CharRanges) : CharRanges :=
  difference (union left right) (intersection left right)

/-- The gaps behind a range that ends at `last`. A gap that is left by the surrogates alone
holds the characters on both of its sides. -/
def gapsBehind (last : Nat) : CharRanges → CharRanges
  | [] => if last < lastCode then [(successor last, lastCode)] else []
  | (low, high) :: ranges =>
      let first := successor last
      let final := predecessor low
      (min first final, max first final) :: gapsBehind high ranges

/-- The characters outside a set. -/
def complement : CharRanges → CharRanges
  | [] => [(0, lastCode)]
  | (low, high) :: ranges =>
      (if 0 < low then [(0, predecessor low)] else []) ++ gapsBehind high ranges

/-- Whether a set holds ASCII characters only. -/
def isAscii (ranges : CharRanges) : Bool :=
  ranges.all fun range => range.2 < 0x80

end Lalr.Text.CharRanges
