import Lalr.Proofs.OneScript.Characters
import Lalr.Proofs.OneScript.Scanner
import Lalr.Proofs.Text.Runs

set_option autoImplicit false

/-!
Markers of regions. Whether a number sign starts one depends on its line only, and blanks behind
it do not matter.
-/

namespace Lalr

open Lalr.Text

namespace OneScript

/-- What may stand between the number sign and the word of a marker. -/
def isGap (c : Char) : Bool :=
  c == ' ' || c == '\t'

/-- The marker at a number sign, and its length. -/
def markerAt? (text : List Char) : Option (RegionMarker × Nat) :=
  (regionMarker? ((text.drop 1).dropWhile isGap)).bind fun found =>
    if found.2.head?.any continuesWord then none
    else some (found.1, utf8Length text - utf8Length found.2)

/-- A marker of a length is a token where it is acceptable. -/
def RegionMarker.outcome (marker : RegionMarker) (length : Nat) (valid : ValidExternals)
    (state : ScannerState) (examined : Nat) : ScanOutcome :=
  match marker with
  | .opening =>
      if valid.contains 0 then .token 0 length (ofRegionDepth (deeper (regionDepth state))) examined
      else .decline examined
  | .closing =>
      if valid.contains 1 && regionDepth state != 0 then
        .token 1 length (ofRegionDepth (regionDepth state - 1)) examined
      else .decline examined

theorem scanRegion_eq (text : List Char) (valid : ValidExternals) (state : ScannerState) :
    scanRegion text valid state =
      (markerAt? text).elim
        (.decline (min (utf8Length (text.takeWhile fun c => !endsLine c) + 1) (utf8Length text)))
        fun found => found.1.outcome found.2 valid state
          (min (utf8Length (text.takeWhile fun c => !endsLine c) + 1) (utf8Length text)) := by
  have gap : (fun c : Char => c == ' ' || c == '\t') = isGap := rfl
  unfold scanRegion markerAt?
  dsimp only
  rw [gap]
  cases regionMarker? ((text.drop 1).dropWhile isGap) with
  | none => rfl
  | some found =>
      obtain ⟨marker, rest⟩ := found
      dsimp only [Option.bind_some]
      by_cases continues : rest.head?.any continuesWord = true
      · rw [if_pos continues, if_pos continues]
        rfl
      · rw [if_neg continues, if_neg continues]
        cases marker <;> rfl

theorem examined_scanRegion (text : List Char) (valid : ValidExternals) (state : ScannerState) :
    (scanRegion text valid state).examined =
      min (utf8Length (text.takeWhile fun c => !endsLine c) + 1) (utf8Length text) := by
  rw [scanRegion_eq]
  cases markerAt? text with
  | none => rfl
  | some found =>
      obtain ⟨marker, length⟩ := found
      cases marker <;> simp only [Option.elim_some, RegionMarker.outcome] <;> split <;> rfl

/-! ## Words -/

section words

variable {word passed front behind rest other : List Char}

theorem length_of_stripWord? (stripped : stripWord? word front = some rest) :
    word.length + rest.length = front.length := by
  induction word generalizing front with
  | nil => rw [Option.some.inj stripped, List.length_nil, Nat.zero_add]
  | cons w word ih =>
      cases front with
      | nil => cases stripped
      | cons c front =>
          rw [stripWord?] at stripped
          split at stripped
          · rw [List.length_cons, List.length_cons, ← ih stripped]
            omega
          · cases stripped

/-- A word is found whatever follows it. -/
theorem stripWord?_front (stripped : stripWord? word (passed ++ rest) = some rest) :
    stripWord? word (passed ++ other) = some other := by
  induction word generalizing passed with
  | nil =>
      have empty : passed = [] := List.append_left_eq_self.mp (Option.some.inj stripped)
      rw [empty]
      rfl
  | cons w word ih =>
      have lengths := length_of_stripWord? stripped
      cases passed with
      | nil =>
          rw [List.length_cons, List.nil_append] at lengths
          omega
      | cons p passed =>
          rw [List.cons_append, stripWord?] at stripped ⊢
          split at stripped
          case isTrue same => rw [if_pos same, ih stripped]
          case isFalse => cases stripped

theorem stripWord?_append
    (apart : ∀ w ∈ word, ∀ c, behind.head? = some c → foldChar w ≠ foldChar c) :
    stripWord? word (front ++ behind) = (stripWord? word front).map (· ++ behind) := by
  induction word generalizing front with
  | nil => rfl
  | cons w word ih =>
      cases front with
      | nil =>
          cases behind with
          | nil => rfl
          | cons c behind => exact if_neg (apart w List.mem_cons_self c rfl)
      | cons p front =>
          rw [List.cons_append, stripWord?, stripWord?]
          split
          · exact ih fun w later => apart w (List.mem_cons_of_mem _ later)
          · rfl

end words

/-! ## Markers -/

/-- No letter of a marker is compared like a blank. -/
theorem letters_apart :
    regionWords.all (fun entry => entry.1.toList.all fun w =>
      !(blanks.map foldChar).contains (foldChar w)) = true := by
  decide +kernel

/-- The words of the markers start with different letters. -/
theorem words_apart :
    regionWords.Pairwise fun first second =>
      first.1.toList.head?.map foldChar ≠ second.1.toList.head?.map foldChar := by
  decide +kernel

theorem regionWords_ne_nil : ∀ entry ∈ regionWords, entry.1.toList ≠ [] := by
  decide +kernel

/-- A text that starts with a blank, if with anything. -/
def BlankStart (text : List Char) : Prop :=
  ∀ c, text.head? = some c → isBlank c = true

section markers

variable {passed front behind rest other : List Char} {marker : RegionMarker} {length : Nat}

theorem foldChar_ne_of_blank {entry : String × RegionMarker} (listed : entry ∈ regionWords)
    {w : Char} (letter : w ∈ entry.1.toList) {c : Char} (blank : isBlank c = true) :
    foldChar w ≠ foldChar c := by
  intro same
  have apart := List.all_eq_true.mp (List.all_eq_true.mp letters_apart entry listed) w letter
  have member : foldChar w ∈ blanks.map foldChar :=
    same ▸ List.mem_map.mpr ⟨c, mem_blanks blank, rfl⟩
  simp [member] at apart

theorem findSome?_change {α β γ : Type} {values : List α} {found : α → Option β}
    {found' : α → Option γ} {change : β → γ}
    (changed : ∀ value ∈ values, found' value = (found value).map change) :
    values.findSome? found' = (values.findSome? found).map change := by
  induction values with
  | nil => rfl
  | cons value values ih =>
      rw [List.findSome?_cons, List.findSome?_cons, changed value List.mem_cons_self]
      cases found value with
      | none => exact ih fun other later => changed other (List.mem_cons_of_mem _ later)
      | some => rfl

theorem regionMarker?_eq (text : List Char) :
    regionMarker? text = regionWords.findSome? fun entry =>
      (stripWord? entry.1.toList text).map fun rest => (entry.2, rest) := rfl

theorem regionMarker?_append (blank : BlankStart behind) :
    regionMarker? (front ++ behind) =
      (regionMarker? front).map fun found => (found.1, found.2 ++ behind) := by
  rw [regionMarker?_eq, regionMarker?_eq]
  refine findSome?_change fun entry listed => ?_
  rw [stripWord?_append fun w letter c first => foldChar_ne_of_blank listed letter (blank c first)]
  cases stripWord? entry.1.toList front <;> rfl

theorem regionMarker?_of_blankStart (blank : BlankStart behind) : regionMarker? behind = none := by
  have appended : regionMarker? ([] ++ behind) = _ := regionMarker?_append blank
  exact appended

/-- A marker is found whatever follows it. -/
theorem regionMarker?_front (found : regionMarker? (passed ++ rest) = some (marker, rest))
    (other : List Char) :
    passed ≠ [] ∧ regionMarker? (passed ++ other) = some (marker, other) := by
  rw [regionMarker?_eq] at found ⊢
  obtain ⟨before, entry, later, listed, here, _⟩ := List.findSome?_eq_some_iff.mp found
  obtain ⟨_, stripped, same⟩ := Option.map_eq_some_iff.mp here
  obtain ⟨kind, rfl⟩ := Prod.mk.inj same
  have member : entry ∈ regionWords := listed ▸ List.mem_append_right _ List.mem_cons_self
  obtain ⟨v, word, spelled⟩ := List.exists_cons_of_ne_nil (regionWords_ne_nil entry member)
  cases passed with
  | nil =>
      have lengths := length_of_stripWord? stripped
      rw [spelled, List.length_cons, List.nil_append] at lengths
      omega
  | cons p passed =>
      refine ⟨List.cons_ne_nil _ _, List.findSome?_eq_some_iff.mpr
        ⟨before, entry, later, listed, ?_, fun earlier early => ?_⟩⟩
      · rw [stripWord?_front stripped, Option.map_some, kind]
      · -- its first letter tells the word from those before it
        have apart := (List.pairwise_append.mp (listed ▸ words_apart)).2.2 earlier early entry
          List.mem_cons_self
        have earlierListed : earlier ∈ regionWords := listed ▸ List.mem_append_left _ early
        obtain ⟨w, others, start⟩ := List.exists_cons_of_ne_nil
          (regionWords_ne_nil earlier earlierListed)
        rw [spelled, List.cons_append, stripWord?] at stripped
        rw [spelled, start] at apart
        split at stripped
        case isTrue first =>
            have other_letter : foldChar w ≠ foldChar p := fun same =>
              apart (congrArg some (same.trans first.symm))
            rw [start, List.cons_append, stripWord?, if_neg other_letter]
            rfl
        case isFalse => cases stripped

theorem markerAt?_append (more : front ≠ []) (blank : BlankStart behind)
    (blank' : BlankStart (behind.dropWhile isGap)) :
    markerAt? (front ++ behind) = markerAt? front := by
  obtain ⟨mark, front, rfl⟩ := List.exists_cons_of_ne_nil more
  unfold markerAt?
  rw [List.cons_append, List.drop_one, List.drop_one, List.tail_cons, List.tail_cons,
    List.dropWhile_append]
  split
  case isTrue gaps =>
      have none_left : front.dropWhile isGap = [] := List.isEmpty_iff.mp gaps
      rw [none_left, regionMarker?_of_blankStart blank']
      rfl
  case isFalse =>
      rw [regionMarker?_append blank]
      cases regionMarker? (front.dropWhile isGap) with
      | none => rfl
      | some found =>
          obtain ⟨marker, rest⟩ := found
          have continues : (rest ++ behind).head?.any continuesWord =
              rest.head?.any continuesWord := by
            cases rest with
            | cons => rfl
            | nil =>
                cases behind with
                | nil => rfl
                | cons c behind => exact not_continuesWord_of_blank (blank c rfl)
          simp only [Option.map_some, Option.bind_some, continues, ← List.cons_append,
            utf8Length_append, Nat.add_sub_add_right]

/-- A marker that ends in front of a text is found in front of every text with which its word does
not go on. -/
theorem markerAt?_replace (found : markerAt? (front ++ behind) = some (marker, length))
    (inside : length ≤ utf8Length front)
    (stops : other.head?.any continuesWord = true → behind.head?.any continuesWord = true) :
    markerAt? (front ++ other) = some (marker, length) := by
  obtain ⟨⟨kind, rest⟩, strips, chosen⟩ := Option.bind_eq_some_iff.mp found
  obtain ⟨word, split⟩ := eq_append_of_regionMarker? strips
  rw [split] at strips
  have filled := (regionMarker?_front strips rest).1
  obtain ⟨closed, same⟩ := Option.ite_none_left_eq_some.mp chosen
  obtain ⟨rfl, measured⟩ := Prod.mk.inj (Option.some.inj same)
  cases whole : front ++ behind with
  | nil =>
      rw [whole] at split
      exact absurd (List.append_eq_nil_iff.mp split.symm).1 filled
  | cons mark text =>
      rw [whole, List.drop_one, List.tail_cons] at split
      -- the marker is the sign, the gap and the word
      have parts : front ++ behind = mark :: (text.takeWhile isGap ++ word) ++ rest := by
        rw [whole, List.cons_append, List.append_assoc, ← split, List.takeWhile_append_dropWhile]
      have front_is : mark :: (text.takeWhile isGap ++ word) <+: front := by
        refine prefix_of_utf8Length_le ⟨rest, parts.symm⟩ (List.prefix_append front behind) ?_
        rw [parts, utf8Length_append, Nat.add_sub_cancel] at measured
        exact Nat.le_trans (Nat.le_of_eq measured) inside
      obtain ⟨more, rfl⟩ := front_is
      rw [List.append_assoc] at parts
      obtain rfl := List.append_cancel_left parts
      obtain ⟨w, letters, rfl⟩ := List.exists_cons_of_ne_nil filled
      have open_ : isGap w = false := by
        have first := List.head?_dropWhile_not isGap text
        rwa [split] at first
      have gap_ends (behind : List Char) :
          (text.takeWhile isGap ++ (w :: letters ++ behind)).dropWhile isGap =
            w :: letters ++ behind := by
        rw [List.dropWhile_append_of_pos fun c => List.mem_takeWhile_imp, List.cons_append,
          List.dropWhile_cons, open_]
        rfl
      have here := (regionMarker?_front strips (more ++ other)).2
      have refused : ¬ (more ++ other).head?.any continuesWord = true := by
        cases more with
        | nil => exact fun continues => closed (stops continues)
        | cons => exact closed
      have same_length :
          utf8Length (mark :: (text.takeWhile isGap ++ w :: letters) ++ more ++ other) -
            utf8Length (more ++ other) = length := by
        rw [← measured, List.append_assoc, List.append_assoc, utf8Length_append,
          utf8Length_append _ (more ++ behind), Nat.add_sub_cancel, Nat.add_sub_cancel]
      unfold markerAt?
      rw [same_length.symm]
      simp only [List.cons_append, List.append_assoc, List.drop_one, List.tail_cons]
        at here gap_ends ⊢
      rw [gap_ends, here, Option.bind_some, if_neg refused]

end markers

end OneScript

end Lalr
