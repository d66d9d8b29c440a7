import Mathlib.Data.List.DropRight
import Mathlib.Data.Prod.Lex
import Mathlib.Order.Monotone.Basic
import Lalr.Proofs.Text.Bytes
import Lalr.Proofs.Text.Runs
import Lalr.Text.Position

set_option autoImplicit false

/-!
Lines and columns of byte offsets. On a boundary between two characters the line counts the line
feeds in front of it and the column the characters behind the last of them; so a later boundary
has a later position, and two boundaries never share one.
-/

namespace Lalr.Text

/-! ## Line feeds -/

/-- Only the form of a line feed holds its byte. -/
theorem count_lineFeed_encodeUtf8Char (c : Char) :
    (encodeUtf8Char c).count 0x0A = if c = '\n' then 1 else 0 := by
  by_cases feed : c = '\n'
  · subst feed
    rfl
  · have code : c.toNat ≠ 0x0A := fun same => feed (Char.toNat_inj.mp same)
    rw [if_neg feed, List.count_eq_zero]
    rcases encodeUtf8Char_cases c with ⟨upper, _, form⟩ | ⟨lower, upper, _, form⟩ |
      ⟨lower, upper, _, form⟩ | ⟨lower, upper, _, form⟩
    all_goals
      simp only [form, List.mem_cons, List.not_mem_nil, or_false, ← UInt8.toNat_inj,
        UInt8.toNat_ofNat', Nat.toUInt8, UInt8.reduceToNat]
      omega

theorem count_lineFeed_encodeUtf8 (text : List Char) :
    (encodeUtf8 text).count 0x0A = text.count '\n' := by
  induction text with
  | nil => rfl
  | cons c text ih =>
      rw [encodeUtf8_cons, List.count_append, count_lineFeed_encodeUtf8Char, ih, List.count_cons,
        Nat.add_comm]
      simp only [beq_iff_eq]

/-- The characters of a text behind its last line feed. -/
def lastLine (text : List Char) : List Char :=
  text.rtakeWhile (· ≠ '\n')

theorem not_mem_lastLine (text : List Char) : '\n' ∉ lastLine text := by
  intro member
  simpa using List.mem_rtakeWhile_imp member

/-- The last line follows a line feed, if it is not the whole text. -/
theorem exists_append_lastLine (text : List Char) :
    ∃ lines, text = lines ++ lastLine text ∧ (lines = [] ∨ ∃ before, lines = before ++ ['\n']) := by
  refine ⟨text.rdropWhile (· ≠ '\n'), ?_, ?_⟩
  · rw [lastLine, List.rdropWhile, List.rtakeWhile, ← List.reverse_append,
      List.takeWhile_append_dropWhile, List.reverse_reverse]
  · by_cases empty : text.rdropWhile (· ≠ '\n') = []
    · exact .inl empty
    · have last : (text.rdropWhile (· ≠ '\n')).getLast empty = '\n' := by
        simpa using List.rdropWhile_last_not (· ≠ '\n') text empty
      exact .inr ⟨_, (List.dropLast_concat_getLast empty).symm.trans (by rw [last])⟩

theorem lastLine_append {text more : List Char} (one : '\n' ∉ more) :
    lastLine (text ++ more) = lastLine text ++ more := by
  have inside : ∀ c ∈ more.reverse, decide (c ≠ '\n') = true := by
    intro c member
    exact decide_eq_true fun feed => one (feed ▸ List.mem_reverse.mp member)
  rw [lastLine, List.rtakeWhile, List.reverse_append, List.takeWhile_append_of_pos inside,
    List.reverse_append, List.reverse_reverse]
  rfl

namespace LineIndex

/-! ## Where lines start -/

theorem startsBehind_append (offset : Nat) (front back : List Char) :
    startsBehind offset (front ++ back) =
      (startsBehind offset front).map (fun start => ⟨start.offset, start.rest ++ back⟩) ++
        startsBehind (offset + utf8Length front) back := by
  induction front generalizing offset with
  | nil => rfl
  | cons c front ih =>
      rw [List.cons_append, startsBehind, startsBehind, ih, utf8Length_cons, Nat.add_assoc]
      split <;> rfl

theorem length_startsBehind (offset : Nat) (text : List Char) :
    (startsBehind offset text).length = text.count '\n' := by
  induction text generalizing offset with
  | nil => rfl
  | cons c text ih =>
      rw [startsBehind]
      split <;> rename_i feed
      · rw [List.length_cons, ih, feed, List.count_cons_self]
      · rw [ih, List.count_cons_of_ne feed]

theorem startsBehind_eq_nil {offset : Nat} {text : List Char} (one : '\n' ∉ text) :
    startsBehind offset text = [] := by
  rw [← List.length_eq_zero_iff, length_startsBehind, List.count_eq_zero]
  exact one

/-- Lines start behind a line feed, and none starts behind the end of the text. -/
theorem bounds_startsBehind {offset : Nat} {text : List Char} :
    ∀ start ∈ startsBehind offset text,
      offset < start.offset ∧ start.offset ≤ offset + utf8Length text := by
  induction text generalizing offset with
  | nil => exact fun _ member => absurd member List.not_mem_nil
  | cons c text ih =>
      have positive := c.utf8Size_pos
      have later : ∀ start ∈ startsBehind (offset + c.utf8Size) text,
          offset < start.offset ∧ start.offset ≤ offset + utf8Length (c :: text) := by
        intro start member
        have bounds := ih start member
        rw [utf8Length_cons]
        omega
      intro start member
      rw [startsBehind] at member
      split at member
      · rcases List.mem_cons.mp member with rfl | inside
        · rw [utf8Length_cons]
          exact ⟨by simp only; omega, by simp only; omega⟩
        · exact later start inside
      · exact later start member

/-! ## The search for a line -/

/-- Halving finds the last of the starts that are not behind the offset. -/
theorem lineAt_eq {index : LineIndex} {offset low count : Nat} {before behind : List Cursor}
    (starts : index.starts.toList = before ++ behind)
    (notBehind : ∀ start ∈ before, start.offset ≤ offset)
    (isBehind : ∀ start ∈ behind, offset < start.offset) (low_lt : low < before.length)
    (le_high : before.length ≤ low + count) :
    index.lineAt offset low count = before.length - 1 := by
  induction count using Nat.strongRecOn generalizing low with
  | ind count ih =>
      rw [lineAt]
      split
      case isTrue single => omega
      case isFalse several =>
          dsimp only
          rw [← Array.getElem?_toList, starts]
          split
          case isTrue reached =>
              refine ih _ (by omega) ?_ (by omega)
              by_contra beyond
              rw [List.getElem?_append_right (by omega)] at reached
              obtain ⟨start, found, le⟩ := Option.any_eq_true _ _ |>.mp reached
              have lt := isBehind start (List.mem_of_getElem? found)
              simp only [decide_eq_true_eq] at le
              omega
          case isFalse missed =>
              refine ih _ (by omega) low_lt ?_
              by_contra inside
              rw [List.getElem?_append_left (by omega), List.getElem?_eq_getElem (by omega),
                Option.any_some, decide_eq_true_eq] at missed
              exact missed (notBehind _ (List.getElem_mem _))

theorem columnFrom_append (passed : Nat) (front back : List Char) :
    columnFrom passed (utf8Length front) (front ++ back) = some (passed + front.length) := by
  induction front generalizing passed with
  | nil => cases back <;> rfl
  | cons c front ih =>
      have positive := c.utf8Size_pos
      obtain ⟨count, total⟩ : ∃ count, c.utf8Size + utf8Length front = count + 1 :=
        ⟨_, (Nat.succ_pred (by omega)).symm⟩
      have left : count + 1 - c.utf8Size = utf8Length front := by omega
      rw [utf8Length_cons, total, List.cons_append, columnFrom, if_pos (by omega), left, ih,
        List.length_cons]
      congr 1
      omega

/-- The lines of a text that start at or before a boundary: as many as there are line feeds in
front of it, and one more, the line that the boundary is on. -/
theorem exists_starts (front back : List Char) :
    ∃ before lines, (ofText (front ++ back)).starts.toList =
        (before ++ [⟨utf8Length lines, lastLine front ++ back⟩]) ++
          startsBehind (utf8Length front) back ∧
      before.length = front.count '\n' ∧ front = lines ++ lastLine front ∧
      ∀ start ∈ before, start.offset ≤ utf8Length front := by
  have starts : (ofText (front ++ back)).starts.toList =
      ⟨0, front ++ back⟩ :: (startsBehind 0 front).map (fun start =>
        ⟨start.offset, start.rest ++ back⟩) ++ startsBehind (utf8Length front) back := by
    rw [ofText, startsBehind_append, Nat.zero_add]
    rfl
  rw [starts]
  have one := not_mem_lastLine front
  obtain ⟨lines, parts, first | ⟨earlier, rfl⟩⟩ := exists_append_lastLine front
  · rw [first, List.nil_append] at parts
    refine ⟨[], [], ?_, ?_, parts, nofun⟩
    · rw [startsBehind_eq_nil (parts ▸ one), ← parts]
      rfl
    · rw [List.count_eq_zero.mpr (parts ▸ one)]
      rfl
  · have feeds : front.count '\n' = earlier.count '\n' + 1 := by
      rw [parts, List.count_append, List.count_append, List.count_eq_zero.mpr one]
      simp
    have behind : startsBehind 0 front = (startsBehind 0 earlier).map (fun start =>
        ⟨start.offset, start.rest ++ '\n' :: lastLine front⟩) ++
          [⟨utf8Length (earlier ++ ['\n']), lastLine front⟩] := by
      have split := startsBehind_append 0 earlier ('\n' :: lastLine front)
      rw [List.append_cons, ← parts, startsBehind, if_pos rfl, startsBehind_eq_nil one,
        Nat.zero_add] at split
      rw [split, utf8Length_append]
      rfl
    refine ⟨⟨0, front ++ back⟩ :: (startsBehind 0 earlier).map (fun start =>
      ⟨start.offset, (start.rest ++ '\n' :: lastLine front) ++ back⟩), _, ?_, ?_, parts, ?_⟩
    · rw [behind, List.map_append, List.map_map]
      simp
    · rw [feeds, List.length_cons, List.length_map, length_startsBehind]
    · intro start member
      rcases List.mem_cons.mp member with rfl | inside
      · exact Nat.zero_le _
      · obtain ⟨origin, listed, rfl⟩ := List.mem_map.mp inside
        have bounds := bounds_startsBehind origin listed
        rw [parts, utf8Length_append, utf8Length_append]
        simp only
        omega

end LineIndex

/-! ## Positions of boundaries -/

namespace Position

open LineIndex

/-- The position of a boundary. -/
theorem ofOffset_append (front back : List Char) :
    ofOffset (front ++ back) (utf8Length front) =
      ⟨front.count '\n', (lastLine front).length, utf8Length front⟩ := by
  obtain ⟨before, lines, starts, counted, parts, notBehind⟩ := exists_starts front back
  have length := congrArg utf8Length parts
  rw [utf8Length_append] at length
  have offset : min (utf8Length front) (utf8Length (front ++ back)) = utf8Length front := by
    rw [utf8Length_append]
    omega
  have line : (LineIndex.ofText (front ++ back)).lineAt (utf8Length front) 0
      (LineIndex.ofText (front ++ back)).starts.size = front.count '\n' := by
    refine (lineAt_eq starts ?_ (fun start member => (bounds_startsBehind start member).1)
      (by simp) ?_).trans (by simp [counted])
    · intro start member
      rcases List.mem_append.mp member with earlier | last
      · exact notBehind start earlier
      · obtain rfl := List.mem_singleton.mp last
        simp only
        omega
    · rw [← Array.length_toList, starts]
      simp
  have start : (LineIndex.ofText (front ++ back)).starts.getD (front.count '\n') default =
      ⟨utf8Length lines, lastLine front ++ back⟩ := by
    rw [Array.getD_eq_getD_getElem?, ← Array.getElem?_toList, starts, ← counted]
    simp
  have column : utf8Length front - utf8Length lines = utf8Length (lastLine front) := by omega
  rw [ofOffset, position]
  simp only [LineIndex.ofText] at line start ⊢
  rw [offset, line, start]
  simp only [column, columnFrom_append, Option.getD_some, Nat.zero_add]

theorem ofOffset_beyond (text : List Char) {offset : Nat} (beyond : utf8Length text ≤ offset) :
    ofOffset text offset = ofOffset text (utf8Length text) := by
  simp only [ofOffset, position, LineIndex.ofText, Nat.min_eq_right beyond, Nat.min_self]

/-- The order in which positions follow each other: by line, then by column. -/
def place (position : Position) : Nat ×ₗ Nat :=
  toLex (position.line, position.column)

/-- A later boundary has a later position. -/
theorem place_lt_of_lt {text : List Char} {first second : Nat}
    (firstCut : (splitBytes? first text).isSome) (secondCut : (splitBytes? second text).isSome)
    (later : first < second) : (ofOffset text first).place < (ofOffset text second).place := by
  obtain ⟨⟨front, back⟩, firstSplit⟩ := Option.isSome_iff_exists.mp firstCut
  obtain ⟨⟨longer, rest⟩, secondSplit⟩ := Option.isSome_iff_exists.mp secondCut
  obtain ⟨rfl, rfl⟩ := splitBytes?_eq_some_iff.mp firstSplit
  obtain ⟨same, rfl⟩ := splitBytes?_eq_some_iff.mp secondSplit
  obtain ⟨between, rfl⟩ : front <+: longer :=
    prefix_of_utf8Length_le ⟨back, rfl⟩ ⟨rest, same.symm⟩ later.le
  have filled : 0 < between.length := by
    refine List.length_pos_iff.mpr fun empty => ?_
    simp [empty] at later
  rw [ofOffset_append, same, ofOffset_append, place, place, Prod.Lex.toLex_lt_toLex,
    List.count_append]
  by_cases feed : '\n' ∈ between
  · have more := List.count_pos_iff.mpr feed
    exact .inl (by simp only; omega)
  · rw [List.count_eq_zero.mpr feed, lastLine_append feed, List.length_append]
    exact .inr ⟨rfl, by simp only; omega⟩

end Position

/-- The position of a boundary between two characters has as its line the number of line feeds
among the bytes before it, and as its column the number of characters behind the last line feed
before it. Boundaries and their lines and columns follow each other in the same order, so no two
boundaries share a line and a column. All offsets beyond the text have the position of its end. -/
theorem position_of_boundary (text : List Char) :
    (∀ offset front back, splitBytes? offset text = some (front, back) →
      Position.ofOffset text offset =
        ⟨((encodeUtf8 text).take offset).count 0x0A, (lastLine front).length, offset⟩) ∧
    StrictMonoOn (fun offset => (Position.ofOffset text offset).place)
      {offset | (splitBytes? offset text).isSome} ∧
    Set.InjOn (fun offset => (Position.ofOffset text offset).place)
      {offset | (splitBytes? offset text).isSome} ∧
    ∀ offset, utf8Length text ≤ offset →
      Position.ofOffset text offset = Position.ofOffset text (utf8Length text) := by
  have increasing : StrictMonoOn (fun offset => (Position.ofOffset text offset).place)
      {offset | (splitBytes? offset text).isSome} :=
    fun _ firstCut _ secondCut later => Position.place_lt_of_lt firstCut secondCut later
  refine ⟨fun offset front back split => ?_, increasing, increasing.injOn,
    fun offset => Position.ofOffset_beyond text⟩
  obtain ⟨rfl, rfl⟩ := splitBytes?_eq_some_iff.mp split
  rw [Position.ofOffset_append, encodeUtf8_append, ← length_encodeUtf8 front, List.take_left,
    count_lineFeed_encodeUtf8]

theorem position_of_boundary_in_letters :
    splitBytes? 3 ['я', '\n', 'é', '𐍈'] = some (['я', '\n'], ['é', '𐍈']) ∧
    splitBytes? 5 ['я', '\n', 'é', '𐍈'] = some (['я', '\n', 'é'], ['𐍈']) ∧
    Position.ofOffset ['я', '\n', 'é', '𐍈'] 5 = ⟨1, 1, 5⟩ ∧
    (Position.ofOffset ['я', '\n', 'é', '𐍈'] 3).place <
      (Position.ofOffset ['я', '\n', 'é', '𐍈'] 5).place ∧
    Position.ofOffset ['я', '\n', 'é', '𐍈'] 20 = Position.ofOffset ['я', '\n', 'é', '𐍈'] 9 := by
  have first : splitBytes? 3 ['я', '\n', 'é', '𐍈'] = some (['я', '\n'], ['é', '𐍈']) := by decide
  have second : splitBytes? 5 ['я', '\n', 'é', '𐍈'] = some (['я', '\n', 'é'], ['𐍈']) := by decide
  obtain ⟨atBoundary, increasing, _, beyond⟩ := position_of_boundary ['я', '\n', 'é', '𐍈']
  refine ⟨first, second, (atBoundary 5 _ _ second).trans (by decide), ?_, beyond 20 (by decide)⟩
  exact increasing (by simp [first]) (by simp [second]) (by decide)

end Lalr.Text
