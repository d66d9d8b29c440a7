import Lalr.OneScript.Scanner
import Lalr.Proofs.Parser.Lexing

set_option autoImplicit false

/-!
The tokens of the known scanners fit into the text: every length that is reported is that of
some characters at its start, and nothing behind the text is examined.
-/

namespace Lalr

open Lalr.Text

theorem isSome_splitBytes? {text first rest : List Char} (split : text = first ++ rest) :
    (splitBytes? (utf8Length first) text).isSome = true := by
  rw [splitBytes?_eq_some_iff.mpr ⟨split, rfl⟩]
  rfl

theorem Scanner.fits_noExternals : Scanner.noExternals.Fits :=
  nofun

/-- A scanner examines nothing but the text. -/
def Scanner.StaysInside (scanner : Scanner) : Prop :=
  ∀ text valid state, text ≠ [] → (scanner.scan text valid state).examined ≤ utf8Length text

theorem Scanner.staysInside_noExternals : Scanner.noExternals.StaysInside :=
  fun _ _ _ _ => Nat.zero_le _

namespace OneScript

theorem eq_append_of_stripWord? {word text rest : List Char}
    (stripped : stripWord? word text = some rest) : ∃ passed, text = passed ++ rest := by
  induction word generalizing text with
  | nil => exact ⟨[], Option.some.inj stripped⟩
  | cons w word ih =>
      cases text with
      | nil => cases stripped
      | cons c text =>
          rw [stripWord?] at stripped
          split at stripped
          case isTrue =>
              obtain ⟨passed, rfl⟩ := ih stripped
              exact ⟨c :: passed, rfl⟩
          case isFalse => cases stripped

/-! ## Regions -/

theorem eq_append_of_regionMarker? {text rest : List Char} {marker : RegionMarker}
    (found : regionMarker? text = some (marker, rest)) : ∃ passed, text = passed ++ rest := by
  obtain ⟨⟨word, kind⟩, _, stripped⟩ := List.exists_of_findSome?_eq_some found
  obtain ⟨behind, strips, same⟩ := Option.map_eq_some_iff.mp stripped
  obtain ⟨_, rfl⟩ := Prod.mk.inj same
  exact eq_append_of_stripWord? strips

theorem fits_scanRegion {text : List Char} {valid : ValidExternals} {state next : ScannerState}
    {index length examined : Nat}
    (scanned : scanRegion text valid state = .token index length next examined) :
    (splitBytes? length text).isSome = true := by
  unfold scanRegion at scanned
  dsimp only at scanned
  split at scanned
  case h_1 => cases scanned
  case h_2 marker rest found =>
      obtain ⟨word, split⟩ := eq_append_of_regionMarker? found
      have whole : text = (text.take 1 ++
          (text.drop 1).takeWhile (fun c => c == ' ' || c == '\t') ++ word) ++ rest := by
        rw [List.append_assoc, List.append_assoc, ← split, List.takeWhile_append_dropWhile,
          List.take_append_drop]
      have measured := congrArg utf8Length whole
      rw [utf8Length_append] at measured
      have fits := isSome_splitBytes? whole
      split at scanned
      case isTrue => cases scanned
      case isFalse =>
          cases marker with
          | opening =>
              dsimp only at scanned
              split at scanned
              · cases scanned
                rwa [measured, Nat.add_sub_cancel]
              · cases scanned
          | closing =>
              dsimp only at scanned
              split at scanned
              · cases scanned
                rwa [measured, Nat.add_sub_cancel]
              · cases scanned

/-! ## Literals -/

/-- From a byte offset on, a length ends behind some characters of a text. -/
def EndsIn (offset : Nat) (text : List Char) (length : Nat) : Prop :=
  ∃ passed rest, text = passed ++ rest ∧ length = offset + utf8Length passed

theorem EndsIn.cons {c : Char} {offset size length : Nat} {text : List Char}
    (ends : EndsIn (offset + size) text length) (sized : c.utf8Size = size) :
    EndsIn offset (c :: text) length := by
  obtain ⟨passed, rest, rfl, rfl⟩ := ends
  refine ⟨c :: passed, rest, rfl, ?_⟩
  rw [utf8Length_cons, sized]
  omega

theorem EndsIn.isSome_splitBytes? {text : List Char} {length : Nat}
    (ends : EndsIn 0 text length) : (splitBytes? length text).isSome = true := by
  obtain ⟨passed, rest, split, rfl⟩ := ends
  rw [Nat.zero_add]
  exact Lalr.isSome_splitBytes? split

theorem utf8Size_of_endsLine {c : Char} (line : endsLine c = true) : c.utf8Size = 1 := by
  simp only [endsLine, Bool.or_eq_true, beq_iff_eq] at line
  rcases line with rfl | rfl <;> rfl

theorem endsIn_of_scanStringFrom {place : StringPlace} {offset length : Nat} {text : List Char}
    (found : (scanStringFrom place offset text).length = some length) :
    EndsIn offset text length := by
  fun_induction scanStringFrom place offset text with
  | case1 => cases found
  | case2 offset rest ih =>
      have inside : EndsIn (offset + 1 + 1) rest length := ih found
      have quoted : EndsIn (offset + 1) ('"' :: rest) length := inside.cons rfl
      exact quoted.cons rfl
  | case3 offset rest =>
      obtain rfl := Option.some.inj found
      exact ⟨['"'], rest, rfl, rfl⟩
  | case4 offset c rest _ _ line ih => exact (ih found).cons (utf8Size_of_endsLine line)
  | case5 offset c rest _ _ _ ih => exact (ih found).cons rfl
  | case6 offset c rest blank ih =>
      refine (ih found).cons ?_
      simp only [Bool.or_eq_true, decide_eq_true_eq] at blank
      rcases blank with (rfl | rfl) | line
      · rfl
      · rfl
      · exact utf8Size_of_endsLine line
  | case7 offset rest _ ih => exact (ih found).cons rfl
  | case8 offset c rest _ _ comment ih =>
      refine (ih found).cons ?_
      simp only [Bool.and_eq_true, decide_eq_true_eq] at comment
      rw [comment.1]
      rfl
  | case9 => cases found
  | case10 offset rest ih => exact (ih found).cons rfl
  | case11 offset c rest _ ih => exact (ih found).cons rfl

/-- A date is closed by the quote behind its content. -/
theorem endsIn_of_scanDate {text : List Char} {length : Nat}
    (found : (scanDate ('\'' :: text)).length = some length) : EndsIn 0 ('\'' :: text) length := by
  unfold scanDate at found
  simp only [List.drop_one, List.tail_cons] at found
  split at found
  case h_1 => cases found
  case h_2 close ahead =>
      split at found
      case isFalse => cases found
      case isTrue closed =>
          simp only [Bool.and_eq_true, decide_eq_true_eq] at closed
          obtain rfl := Option.some.inj found
          obtain ⟨rest, behind⟩ := List.head?_eq_some_iff.mp ahead
          rw [closed.1] at behind
          refine ⟨'\'' :: text.takeWhile (fun c => !(c == '\'' || endsLine c)) ++ ['\''], rest,
            ?_, ?_⟩
          · rw [List.append_assoc, List.cons_append, List.singleton_append, ← behind,
              List.takeWhile_append_dropWhile]
          · have quote : Char.utf8Size '\'' = 1 := rfl
            simp only [List.cons_append, utf8Length_cons, utf8Length_append, utf8Length_nil, quote]
            omega

theorem LiteralScan.length_of_outcome {scan : LiteralScan} {kind index length examined : Nat}
    {state next : ScannerState}
    (found : scan.outcome kind state = .token index length next examined) :
    scan.length = some length := by
  unfold outcome at found
  split at found
  case h_1 known =>
      cases found
      exact known
  case h_2 => cases found

/-- The scanner of OneScript reports tokens of the text. -/
theorem fits_scanner : scanner.Fits := by
  intro text valid state index length next examined scanned
  change scan text valid state = _ at scanned
  unfold scan at scanned
  split at scanned
  case h_1 => cases scanned
  case h_2 c text =>
      split at scanned
      case isTrue => exact fits_scanRegion scanned
      case isFalse =>
          split at scanned
          case isTrue quote =>
              have found := LiteralScan.length_of_outcome scanned
              simp only [Bool.and_eq_true, decide_eq_true_eq] at quote
              obtain rfl := quote.1
              have inside : EndsIn (0 + 1) text length := endsIn_of_scanStringFrom found
              have quoted : EndsIn 0 ('"' :: text) length := inside.cons rfl
              exact quoted.isSome_splitBytes?
          case isFalse =>
              split at scanned
              case isTrue quote =>
                  simp only [Bool.and_eq_true, decide_eq_true_eq] at quote
                  obtain rfl := quote.1
                  exact (endsIn_of_scanDate
                    (LiteralScan.length_of_outcome scanned)).isSome_splitBytes?
              case isFalse => cases scanned

/-! ## What is examined -/

theorem examined_scanRegion_le (text : List Char) (valid : ValidExternals)
    (state : ScannerState) : (scanRegion text valid state).examined ≤ utf8Length text := by
  have bound := Nat.min_le_right
    (utf8Length (text.takeWhile fun c => !endsLine c) + 1) (utf8Length text)
  unfold scanRegion
  dsimp only
  split
  case h_1 => exact bound
  case h_2 marker rest found =>
      split
      case isTrue => exact bound
      case isFalse => cases marker <;> dsimp only <;> split <;> exact bound

theorem le_utf8Length_cons {offset examined : Nat} {text : List Char} (c : Char)
    (inside : examined ≤ offset + 1 + utf8Length text) :
    examined ≤ offset + utf8Length (c :: text) := by
  have positive := c.utf8Size_pos
  rw [utf8Length_cons]
  omega

theorem examined_scanStringFrom_le (place : StringPlace) (offset : Nat) (text : List Char) :
    (scanStringFrom place offset text).examined ≤ offset + utf8Length text := by
  fun_induction scanStringFrom place offset text with
  | case1 => exact Nat.le_refl _
  | case2 offset rest ih => exact le_utf8Length_cons _ (le_utf8Length_cons _ ih)
  | case3 offset rest =>
      refine le_utf8Length_cons _ ?_
      cases rest with
      | nil => exact Nat.le_refl _
      | cons c rest => exact le_utf8Length_cons c (Nat.le_add_right _ _)
  | case4 offset c rest _ _ _ ih | case6 offset c rest _ ih | case8 offset c rest _ _ _ ih =>
      exact le_utf8Length_cons c ih
  | case7 offset rest _ ih | case10 offset rest ih => exact le_utf8Length_cons _ ih
  | case5 offset c rest _ _ _ ih | case11 offset c rest _ ih => rwa [Nat.add_assoc] at ih
  | case9 offset c rest => exact le_utf8Length_cons c (Nat.le_add_right _ _)

theorem examined_scanDate_le {text : List Char} (more : text ≠ []) :
    (scanDate text).examined ≤ utf8Length text := by
  unfold scanDate
  dsimp only
  split
  case h_1 => exact Nat.le_refl _
  case h_2 close ahead =>
      obtain ⟨c, body, rfl⟩ := List.exists_cons_of_ne_nil more
      obtain ⟨rest, behind⟩ := List.head?_eq_some_iff.mp ahead
      -- the quote, the content and the character that ends it are all of the text
      have whole := congrArg utf8Length (List.takeWhile_append_dropWhile
        (p := fun c => !(c == '\'' || endsLine c)) (l := body))
      simp only [List.drop_one, List.tail_cons] at behind ⊢
      rw [behind, utf8Length_append, utf8Length_cons] at whole
      have opening := c.utf8Size_pos
      have closing := close.utf8Size_pos
      have inside : utf8Length (body.takeWhile fun c => !(c == '\'' || endsLine c)) + 2 ≤
          utf8Length (c :: body) := by
        rw [utf8Length_cons]
        omega
      split <;> exact inside

theorem LiteralScan.examined_outcome (scan : LiteralScan) (index : Nat) (state : ScannerState) :
    (scan.outcome index state).examined = scan.examined := by
  unfold outcome
  split <;> rfl

/-- The scanner of OneScript examines nothing but the text. -/
theorem staysInside_scanner : scanner.StaysInside := by
  intro text valid state more
  change (scan text valid state).examined ≤ _
  unfold scan
  split
  case h_1 => exact absurd rfl more
  case h_2 c rest =>
      split
      case isTrue => exact examined_scanRegion_le _ _ _
      case isFalse =>
          split
          case isTrue =>
              rw [LiteralScan.examined_outcome]
              refine Nat.le_trans (examined_scanStringFrom_le .inside 1 rest) ?_
              exact Nat.zero_add (utf8Length (c :: rest)) ▸
                le_utf8Length_cons c (Nat.le_refl _)
          case isFalse =>
              split
              case isTrue =>
                  rw [LiteralScan.examined_outcome]
                  exact examined_scanDate_le more
              case isFalse => exact Nat.le_trans c.utf8Size_pos (Nat.le_add_right _ _)

end OneScript

end Lalr
