import Lalr.Proofs.OneScript.Scanner
import Lalr.Proofs.Text.Bytes

set_option autoImplicit false

/-!
String literals of OneScript. What the scanner accepts as a string is exactly a literal of their
grammar with no further quote behind it.
-/

namespace Lalr

open Lalr.Text

namespace OneScript

/-! ## The grammar of literals -/

/-- What may stand between two lines of a string: blanks and comments, which go on up to the next
line feed. -/
inductive LineGap : List Char → Prop where
  | nil : LineGap []
  | blank {c : Char} {rest : List Char} : c ∈ [' ', '\t', '\r', '\n'] → LineGap rest →
      LineGap (c :: rest)
  | comment {text rest : List Char} : '\n' ∉ text → LineGap ('\n' :: rest) →
      LineGap ('/' :: '/' :: (text ++ '\n' :: rest))

/-- A part of a string: a character, a doubled quote, or a line break and all up to the bar where
the string goes on. -/
inductive StringItem : List Char → Prop where
  | plain {c : Char} : c ≠ '"' → c ≠ '\r' → c ≠ '\n' → StringItem [c]
  | quote : StringItem ['"', '"']
  | lineBreak {c : Char} {gap : List Char} : c = '\r' ∨ c = '\n' → LineGap gap →
      StringItem (c :: (gap ++ ['|']))

/-- What follows the opening quote of a literal. -/
inductive StringRest : List Char → Prop where
  | closing : StringRest ['"']
  | item {item rest : List Char} : StringItem item → StringRest rest → StringRest (item ++ rest)

/-- A string literal. -/
inductive StringLiteral : List Char → Prop where
  | mk {rest : List Char} : StringRest rest → StringLiteral ('"' :: rest)

/-- The first `length` bytes of a text form a literal, and the next byte is not a quote. -/
def StartsWithString (text : List Char) (length : Nat) : Prop :=
  ∃ literal, StringLiteral literal ∧ utf8Length literal = length ∧
    (encodeUtf8 text).take length = encodeUtf8 literal ∧ (encodeUtf8 text)[length]? ≠ some 0x22

/-! ## Reading literals -/

theorem scanStringFrom_comment {text : List Char} (inLine : '\n' ∉ text) (offset : Nat)
    (rest : List Char) :
    scanStringFrom .inComment offset (text ++ '\n' :: rest) =
      scanStringFrom .betweenLines (offset + utf8Length text + 1) rest := by
  induction text generalizing offset with
  | nil => simp [scanStringFrom]
  | cons c text ih =>
      obtain ⟨first, others⟩ := not_or.mp (mt List.mem_cons.mpr inLine)
      rw [List.cons_append, scanStringFrom, if_neg (Ne.symm first), ih others, utf8Length_cons,
        Nat.add_assoc offset]

theorem scanStringFrom_gap {gap : List Char} (isGap : LineGap gap) (offset : Nat)
    (rest : List Char) :
    scanStringFrom .betweenLines offset (gap ++ '|' :: rest) =
      scanStringFrom .inside (offset + utf8Length gap + 1) rest := by
  induction isGap generalizing offset with
  | nil => rfl
  | @blank c gap member _ ih =>
      simp only [List.mem_cons, List.not_mem_nil, or_false] at member
      rcases member with rfl | rfl | rfl | rfl
      all_goals
        rw [List.cons_append, scanStringFrom, if_pos (by decide), ih, utf8Length_cons,
          Nat.add_assoc offset]
        rfl
  | @comment text gap inLine _ ih =>
      have between := ih (offset + 2 + utf8Length text)
      have line : '\n' ∉ '/' :: text := by simpa using inLine
      rw [List.cons_append, scanStringFrom, if_pos (by decide)] at between
      have opened : scanStringFrom .betweenLines offset
          ('/' :: '/' :: (text ++ '\n' :: gap) ++ '|' :: rest) =
          scanStringFrom .inComment (offset + 1) ('/' :: text ++ '\n' :: (gap ++ '|' :: rest)) := by
        simp [scanStringFrom, endsLine]
      have slash : '/'.utf8Size = 1 := rfl
      have feed : '\n'.utf8Size = 1 := rfl
      rw [opened, scanStringFrom_comment line]
      simp only [utf8Length_cons, utf8Length_append, slash, feed] at between ⊢
      rw [show offset + 1 + (1 + utf8Length text) + 1 = offset + 2 + utf8Length text + 1 by omega,
        between]
      exact congrArg (scanStringFrom .inside · rest) (by omega)

theorem scanStringFrom_item {item : List Char} (isItem : StringItem item) (offset : Nat)
    (rest : List Char) :
    scanStringFrom .inside offset (item ++ rest) =
      scanStringFrom .inside (offset + utf8Length item) rest := by
  cases isItem with
  | @plain c quote carriage feed =>
      have inLine : endsLine c = false := by simp [endsLine, carriage, feed]
      simp [scanStringFrom, quote, inLine]
  | quote => rfl
  | @lineBreak c gap line isGap =>
      have ends : endsLine c = true := by simpa [endsLine] using line
      have quote : c ≠ '"' := by
        rintro rfl
        exact absurd ends (by decide)
      have bar : '|'.utf8Size = 1 := rfl
      have opened : scanStringFrom .inside offset (c :: (gap ++ ['|']) ++ rest) =
          scanStringFrom .betweenLines (offset + 1) (gap ++ '|' :: rest) := by
        simp [scanStringFrom, quote, ends]
      rw [opened, scanStringFrom_gap isGap]
      simp only [utf8Length_cons, utf8Length_append, utf8Length_nil, utf8Size_of_endsLine ends, bar]
      exact congrArg (scanStringFrom .inside · rest) (by omega)

/-- A literal is read to its end. -/
theorem length_scanStringFrom {content behind : List Char} (closes : StringRest content)
    (further : behind.head? ≠ some '"') (offset : Nat) :
    (scanStringFrom .inside offset (content ++ behind)).length =
      some (offset + utf8Length content) := by
  induction closes generalizing offset with
  | closing =>
      cases behind with
      | nil => rfl
      | cons c behind =>
          have other : c ≠ '"' := fun same => further (congrArg some same)
          have quote : '"'.utf8Size = 1 := rfl
          simp [scanStringFrom, other, quote]
  | item isItem _ ih =>
      rw [List.append_assoc, scanStringFrom_item isItem, ih, utf8Length_append, Nat.add_assoc]

/-! ## What is read -/

/-- What leads from a place in a string to its end. -/
def ClosesFrom : StringPlace → List Char → Prop
  | .inside, content => StringRest content
  | .betweenLines, content => ∃ gap rest, LineGap gap ∧ StringRest rest ∧
      content = gap ++ '|' :: rest
  | .inComment, content => ∃ text gap rest, '\n' ∉ text ∧ LineGap ('\n' :: gap) ∧
      StringRest rest ∧ content = text ++ '\n' :: (gap ++ '|' :: rest)

theorem exists_closesFrom {place : StringPlace} {offset length : Nat} {text : List Char}
    (found : (scanStringFrom place offset text).length = some length) :
    ∃ content behind, text = content ++ behind ∧ ClosesFrom place content ∧
      behind.head? ≠ some '"' := by
  fun_induction scanStringFrom place offset text with
  | case1 => cases found
  | case2 offset rest ih =>
      obtain ⟨content, behind, rfl, closes, further⟩ := ih found
      exact ⟨_, behind, rfl, .item .quote closes, further⟩
  | case3 offset rest single =>
      refine ⟨['"'], rest, rfl, .closing, fun doubled => ?_⟩
      obtain ⟨behind, rfl⟩ := List.head?_eq_some_iff.mp doubled
      exact single behind rfl rfl
  | case4 offset c rest _ _ line ih =>
      obtain ⟨content, behind, rfl, ⟨gap, inside, isGap, closes, rfl⟩, further⟩ := ih found
      have line : c = '\r' ∨ c = '\n' := by simpa [endsLine] using line
      refine ⟨c :: (gap ++ ['|']) ++ inside, behind, by simp, ?_, further⟩
      exact .item (.lineBreak line isGap) closes
  | case5 offset c rest _ quote line ih =>
      obtain ⟨content, behind, rfl, closes, further⟩ := ih found
      have inLine : c ≠ '\r' ∧ c ≠ '\n' := by simpa [endsLine] using line
      exact ⟨[c] ++ content, behind, rfl, .item (.plain quote inLine.1 inLine.2) closes, further⟩
  | case6 offset c rest blank ih =>
      obtain ⟨content, behind, rfl, ⟨gap, inside, isGap, closes, rfl⟩, further⟩ := ih found
      have member : c ∈ [' ', '\t', '\r', '\n'] := by
        simpa [endsLine, or_assoc] using blank
      exact ⟨_, behind, rfl, ⟨c :: gap, inside, .blank member isGap, closes, rfl⟩, further⟩
  | case7 offset rest _ ih =>
      obtain ⟨content, behind, rfl, closes, further⟩ := ih found
      exact ⟨_, behind, rfl, ⟨[], content, .nil, closes, rfl⟩, further⟩
  | case8 offset c rest _ _ comment ih =>
      obtain ⟨content, behind, rfl, ⟨text, gap, inside, inLine, isGap, closes, rfl⟩, further⟩ :=
        ih found
      simp only [Bool.and_eq_true, decide_eq_true_eq, beq_iff_eq] at comment
      obtain ⟨rfl, second⟩ := comment
      -- the second slash is the first character of the comment that was read
      cases text with
      | nil => cases second
      | cons slash text =>
          obtain rfl : slash = '/' := Option.some.inj second
          have line : '\n' ∉ text := fun member => inLine (List.mem_cons_of_mem _ member)
          refine ⟨'/' :: '/' :: (text ++ '\n' :: gap) ++ '|' :: inside, behind, by simp, ?_, further⟩
          exact ⟨_, inside, .comment line isGap, closes, rfl⟩
  | case9 => cases found
  | case10 offset rest ih =>
      obtain ⟨content, behind, rfl, ⟨gap, inside, isGap, closes, rfl⟩, further⟩ := ih found
      refine ⟨'\n' :: (gap ++ '|' :: inside), behind, rfl, ?_, further⟩
      exact ⟨[], gap, inside, List.not_mem_nil, .blank (by decide) isGap, closes, rfl⟩
  | case11 offset c rest feed ih =>
      obtain ⟨content, behind, rfl, ⟨text, gap, inside, inLine, isGap, closes, rfl⟩, further⟩ :=
        ih found
      refine ⟨c :: (text ++ '\n' :: (gap ++ '|' :: inside)), behind, rfl, ?_, further⟩
      refine ⟨c :: text, gap, inside, ?_, isGap, closes, rfl⟩
      intro member
      exact (List.mem_cons.mp member).elim (Ne.symm feed) inLine

/-! ## Bytes -/

/-- A literal in front of a text, seen in its bytes. -/
theorem startsWithString_iff {text : List Char} {length : Nat} :
    StartsWithString text length ↔ ∃ literal behind, text = literal ++ behind ∧
      StringLiteral literal ∧ behind.head? ≠ some '"' ∧ utf8Length literal = length := by
  have next (literal behind : List Char) :
      (encodeUtf8 (literal ++ behind))[utf8Length literal]? = (encodeUtf8 behind).head? := by
    rw [encodeUtf8_append, ← length_encodeUtf8, List.getElem?_append_right (Nat.le_refl _),
      Nat.sub_self, List.head?_eq_getElem?]
  have quoted (behind : List Char) :
      (encodeUtf8 behind).head? = some 0x22 ↔ behind.head? = some '"' := by
    cases behind with
    | nil => simp
    | cons c behind =>
        rw [head?_encodeUtf8_cons, List.head?_cons, Option.some.injEq]
        constructor
        · intro same
          exact eq_of_head_encodeUtf8Char (c := '"') rfl (same.trans rfl)
        · rintro rfl
          rfl
  constructor
  · rintro ⟨literal, isLiteral, rfl, bytes, further⟩
    have starts : encodeUtf8 literal <+: encodeUtf8 text := bytes ▸ List.take_prefix _ _
    obtain ⟨behind, rfl⟩ := prefix_of_encodeUtf8_prefix starts
    rw [next, ne_eq, quoted] at further
    exact ⟨literal, behind, rfl, isLiteral, further, rfl⟩
  · rintro ⟨literal, behind, rfl, isLiteral, further, rfl⟩
    refine ⟨literal, isLiteral, rfl, ?_, ?_⟩
    · rw [encodeUtf8_append, ← length_encodeUtf8, List.take_left]
    · rwa [next, ne_eq, quoted]

/-- A text that starts with a quote is read as a string of some length if and only if it starts
with a literal of this length that no further quote follows. There is at most one such length, and
a character ends there. -/
theorem string_scan_accepts_iff (body : List Char) :
    let text := '"' :: body
    (∀ length, (scanString text).length = some length ↔ StartsWithString text length) ∧
      (∀ length other, StartsWithString text length → StartsWithString text other →
        length = other) ∧
      ∀ length, StartsWithString text length → (dropBytes? length text).isSome = true := by
  intro text
  have accepts (length : Nat) :
      (scanString text).length = some length ↔ StartsWithString text length := by
    rw [startsWithString_iff]
    constructor
    · intro found
      obtain ⟨content, behind, split, closes, further⟩ := exists_closesFrom found
      have read := length_scanStringFrom closes further 1
      rw [← split] at read
      refine ⟨'"' :: content, behind, congrArg ('"' :: ·) split, .mk closes, further, ?_⟩
      exact Option.some.inj (read.symm.trans found)
    · rintro ⟨literal, behind, split, ⟨closes⟩, further, rfl⟩
      obtain rfl := (List.cons.inj split).2
      exact length_scanStringFrom closes further 1
  refine ⟨accepts, fun length other first second => ?_, fun length starts => ?_⟩
  · exact Option.some.inj (((accepts length).mpr first).symm.trans ((accepts other).mpr second))
  · obtain ⟨literal, behind, split, _, _, rfl⟩ := startsWithString_iff.mp starts
    rw [dropBytes?, splitBytes?_eq_some_iff.mpr ⟨split, rfl⟩]
    rfl

/-- A string of two lines with a comment between them and a doubled quote. -/
theorem string_scan_accepts_two_lines :
    let text := "\"a\r\n // \"b|\n\t|\"\"\";".toList
    StartsWithString text 17 ∧ (dropBytes? 17 text).isSome = true ∧
      ∀ other, StartsWithString text other → other = 17 := by
  intro text
  have accepts := string_scan_accepts_iff (text.drop 1)
  have starts : StartsWithString text 17 := (accepts.1 17).mp (by decide)
  exact ⟨starts, accepts.2.2 17 starts, fun other found => accepts.2.1 other 17 found starts⟩

end OneScript

end Lalr
