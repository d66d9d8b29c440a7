import Lalr.OneScript.Scanner
import Lalr.Text.Property

set_option autoImplicit false

/-!
The characters of OneScript tokens. Words hold none of the characters that blanks, signs and
literals are made of.
-/

namespace Lalr

open Lalr.Text

/-! ## Ranges -/

namespace Text.CharRanges

theorem exists_mem_of_containsCode {ranges : CharRanges} {code : Nat}
    (contained : ranges.containsCode code = true) :
    ∃ range ∈ ranges, range.1 ≤ code ∧ code ≤ range.2 := by
  induction ranges with
  | nil => cases contained
  | cons range ranges ih =>
      obtain ⟨first, last⟩ := range
      rw [containsCode] at contained
      split at contained
      case isTrue => cases contained
      case isFalse reached =>
          rcases Bool.or_eq_true_iff.mp contained with here | later
          · exact ⟨(first, last), List.mem_cons_self, by omega, of_decide_eq_true here⟩
          · obtain ⟨range, member, inside⟩ := ih later
            exact ⟨range, List.mem_cons_of_mem _ member, inside⟩

/-- Whether ranges that start at `start` or later, in ascending order, lie within others. -/
def withinFrom (start : Nat) : CharRanges → CharRanges → Bool
  | [], _ => true
  | (first, last) :: inner, outer =>
      match outer.dropWhile fun range => range.1 ≤ first && range.2 < first with
      | [] => false
      | (low, high) :: rest =>
          start ≤ first && low ≤ first && last ≤ high &&
            withinFrom first inner ((low, high) :: rest)

theorem containsCode_of_dropWhile {ranges : CharRanges} {first code : Nat} (reached : first ≤ code)
    (contained : containsCode code (ranges.dropWhile fun range =>
      range.1 ≤ first && range.2 < first) = true) : containsCode code ranges = true := by
  induction ranges with
  | nil => exact contained
  | cons range ranges ih =>
      rw [List.dropWhile_cons] at contained
      split at contained
      case isFalse => exact contained
      case isTrue passed =>
          simp only [Bool.and_eq_true, decide_eq_true_eq] at passed
          rw [containsCode, if_neg (by omega), ih contained, Bool.or_true]

theorem containsCode_of_withinFrom {start : Nat} {inner outer : CharRanges}
    (inside : withinFrom start inner outer = true) {range : Nat × Nat} (member : range ∈ inner) :
    start ≤ range.1 ∧
      ∀ code, range.1 ≤ code → code ≤ range.2 → containsCode code outer = true := by
  induction inner generalizing start outer with
  | nil => cases member
  | cons head inner ih =>
      obtain ⟨first, last⟩ := head
      rw [withinFrom] at inside
      split at inside
      case h_1 => cases inside
      case h_2 low high rest dropped =>
          simp only [Bool.and_eq_true, decide_eq_true_eq] at inside
          obtain ⟨⟨⟨ascends, starts⟩, ends⟩, others⟩ := inside
          cases List.mem_cons.mp member with
          | inl same =>
              subst same
              refine ⟨ascends, fun code lower upper => containsCode_of_dropWhile lower ?_⟩
              rw [dropped, containsCode, if_neg (by omega)]
              simp [show code ≤ high by omega]
          | inr later =>
              obtain ⟨behind, contained⟩ := ih others later
              refine ⟨Nat.le_trans ascends behind, fun code lower upper => ?_⟩
              refine containsCode_of_dropWhile (Nat.le_trans behind lower) ?_
              rw [dropped]
              exact contained code lower upper

theorem contains_of_withinFrom {inner outer : CharRanges} (inside : withinFrom 0 inner outer = true)
    {c : Char} (contained : inner.contains c = true) : outer.contains c = true := by
  obtain ⟨range, member, lower, upper⟩ := exists_mem_of_containsCode contained
  exact (containsCode_of_withinFrom inside member).2 _ lower upper

/-- The characters of ranges, one by one. -/
def chars (ranges : CharRanges) : List Char :=
  ranges.flatMap fun range => (List.range' range.1 (range.2 + 1 - range.1)).map Char.ofNat

theorem mem_chars {ranges : CharRanges} {c : Char} (contained : ranges.contains c = true) :
    c ∈ ranges.chars := by
  obtain ⟨range, member, lower, upper⟩ := exists_mem_of_containsCode contained
  refine List.mem_flatMap.mpr ⟨range, member, List.mem_map.mpr ⟨c.toNat, ?_, c.ofNat_toNat⟩⟩
  rw [List.mem_range'_1]
  omega

end Text.CharRanges

namespace OneScript

/-! ## Kinds of characters -/

/-- The characters that a word starts with. -/
def wordStart : CharRanges :=
  .union Property.letter (.single 0x5F)

/-- The characters that a word goes on with. -/
def wordPart : CharRanges :=
  .union (.union Property.letter Property.number) (.single 0x5F)

/-- The characters up to the end of a line. -/
def lineRest : CharRanges :=
  [(0, 9), (11, 12), (14, CharRanges.lastCode)]

/-- Blank characters. -/
def blanks : List Char :=
  whiteSpace.chars ++ ['\ufeff']

/-- Signs that are tokens, alone or together. -/
def signs : List Char :=
  ['%', '&', '(', ')', '*', '+', ',', '-', '.', '/', ';', '<', '=', '>', '?', '[', ']']

/-- Characters that no word holds. -/
def foreign : List Char :=
  blanks ++ signs ++ ['#', '"', '\'', '|']

theorem mem_blanks {c : Char} (blank : isBlank c = true) : c ∈ blanks := by
  unfold isBlank isWhiteSpace at blank
  cases Bool.or_eq_true_iff.mp blank with
  | inl space => exact List.mem_append_left _ (CharRanges.mem_chars space)
  | inr mark => exact List.mem_append_right _ (by simpa using mark)

/-- What the tables of characters say about words. -/
theorem word_tables :
    (CharRanges.withinFrom 0 wordStart wordPart &&
      CharRanges.withinFrom 0 (wordStart.filter (· != (0x5F, 0x5F))) letters &&
      foreign.all (fun c => !wordPart.contains c) &&
      Property.asciiDigit.chars.all (fun c => !wordStart.contains c)) = true := by
  decide +kernel

theorem blank_tables :
    blanks.all (fun c => !continuesWord c && !Property.asciiDigit.contains c &&
      !(signs ++ ['#', '"', '\'', '|']).contains c) = true := by
  decide +kernel

section words

variable {c : Char}

theorem wordPart_of_wordStart (starts : wordStart.contains c = true) :
    wordPart.contains c = true := by
  have tables := word_tables
  simp only [Bool.and_eq_true] at tables
  exact CharRanges.contains_of_withinFrom tables.1.1.1 starts

theorem not_mem_foreign (part : wordPart.contains c = true) : c ∉ foreign := by
  intro member
  have tables := word_tables
  simp only [Bool.and_eq_true, List.all_eq_true] at tables
  have apart := tables.1.2 c member
  rw [part] at apart
  cases apart

theorem continuesWord_of_wordStart (starts : wordStart.contains c = true) :
    continuesWord c = true := by
  have tables := word_tables
  simp only [Bool.and_eq_true] at tables
  obtain ⟨range, member, lower, upper⟩ := CharRanges.exists_mem_of_containsCode starts
  by_cases lowLine : range = (0x5F, 0x5F)
  · subst lowLine
    have code : c.toNat = 0x5F := Nat.le_antisymm upper lower
    have same : c = '_' := by rw [← c.ofNat_toNat, code]
    rw [same, continuesWord, Bool.or_eq_true]
    exact .inr rfl
  · have letter : letters.contains c = true :=
      (CharRanges.containsCode_of_withinFrom tables.1.1.2
        (List.mem_filter.mpr ⟨member, by simpa using lowLine⟩)).2 _ lower upper
    simp [continuesWord, isAlphanumeric, isAlphabetic, letter]

theorem not_digit_of_wordStart (starts : wordStart.contains c = true) :
    Property.asciiDigit.contains c = false := by
  cases digit : Property.asciiDigit.contains c with
  | false => rfl
  | true =>
      have tables := word_tables
      simp only [Bool.and_eq_true, List.all_eq_true] at tables
      have apart := tables.2 c (CharRanges.mem_chars digit)
      rw [starts] at apart
      cases apart

end words

section blank

variable {c : Char}

theorem not_wordPart_of_blank (blank : isBlank c = true) : wordPart.contains c = false := by
  cases part : wordPart.contains c with
  | false => rfl
  | true =>
      have member : c ∈ foreign := by
        unfold foreign
        rw [List.append_assoc]
        exact List.mem_append_left _ (mem_blanks blank)
      exact absurd member (not_mem_foreign part)

theorem not_wordStart_of_blank (blank : isBlank c = true) : wordStart.contains c = false := by
  cases starts : wordStart.contains c with
  | false => rfl
  | true =>
      have part := wordPart_of_wordStart starts
      rw [not_wordPart_of_blank blank] at part
      cases part

theorem not_continuesWord_of_blank (blank : isBlank c = true) : continuesWord c = false := by
  have tables := List.all_eq_true.mp blank_tables c (mem_blanks blank)
  simp only [Bool.and_eq_true, Bool.not_eq_true'] at tables
  exact tables.1.1

theorem not_digit_of_blank (blank : isBlank c = true) :
    Property.asciiDigit.contains c = false := by
  have tables := List.all_eq_true.mp blank_tables c (mem_blanks blank)
  simp only [Bool.and_eq_true, Bool.not_eq_true'] at tables
  exact tables.1.2

theorem not_mem_of_blank (blank : isBlank c = true) : c ∉ signs ++ ['#', '"', '\'', '|'] := by
  have tables := List.all_eq_true.mp blank_tables c (mem_blanks blank)
  simp only [Bool.and_eq_true, Bool.not_eq_true'] at tables
  simpa using tables.2

end blank

theorem lineRest_contains (c : Char) : lineRest.contains c = !endsLine c := by
  have last : c.toNat < 0x110000 := by
    rcases c.valid with low | ⟨_, high⟩
    · exact Nat.lt_trans low (by decide)
    · exact high
  have code (d : Char) : c = d ↔ c.toNat = d.toNat :=
    ⟨congrArg Char.toNat, fun same => Char.toNat_inj.mp same⟩
  have carriage : (c = '\r') ↔ c.toNat = 13 := code '\r'
  have feed : (c = '\n') ↔ c.toNat = 10 := code '\n'
  rw [Bool.eq_iff_iff]
  simp only [CharRanges.contains, lineRest, CharRanges.containsCode, endsLine, CharRanges.lastCode,
    Bool.not_eq_true', Bool.or_eq_false_iff, beq_eq_false_iff_ne, ne_eq, carriage, feed]
  grind

end OneScript

end Lalr
