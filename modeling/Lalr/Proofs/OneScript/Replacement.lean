import Lalr.Proofs.OneScript.Context
import Lalr.Proofs.OneScript.Examined
import Lalr.Proofs.OneScript.StringLiteral
import Lalr.Proofs.Parser.Rereading

set_option autoImplicit false

/-!
Tokens in front of a text that is replaced. A token that ends before the replaced text is found
again, whether the scanner finds it or not.
-/

namespace Lalr

open Lalr.Text

/-- The token of an outcome. -/
def ScanOutcome.token? : ScanOutcome → Option (Nat × Nat × ScannerState)
  | .token index length state _ => some (index, length, state)
  | .decline _ => none

theorem Language.Declines.congr {language : Language} {mode : ValidExternals}
    {state : ScannerState} {text other : List Char} (declines : language.Declines mode state text)
    (same : (language.scanner.scan other mode state).token? =
      (language.scanner.scan text mode state).token?) : language.Declines mode state other := by
  rcases declines with idle | refused
  · exact .inl idle
  · refine .inr fun index length after examined found => ?_
    rw [found] at same
    cases there : language.scanner.scan text mode state with
    | decline => rw [there] at same; cases same
    | token index' length' after' examined' =>
        rw [there] at same
        obtain ⟨rfl, rfl, rfl⟩ : index = index' ∧ length = length' ∧ after = after' := by
          simpa [ScanOutcome.token?] using same
        exact refused _ _ _ _ there

namespace OneScript

/-! ## The scanner -/

section scanner

variable {c : Char} {text other rest front behind : List Char} {valid : ValidExternals}
  {state after : ScannerState} {index length examined : Nat}

theorem token?_outcome (marker : RegionMarker) (length first second : Nat) :
    (marker.outcome length valid state first).token? =
      (marker.outcome length valid state second).token? := by
  cases marker <;> simp only [RegionMarker.outcome] <;> split <;> rfl

theorem token?_scanRegion_congr (same : markerAt? other = markerAt? text) :
    (scanRegion other valid state).token? = (scanRegion text valid state).token? := by
  rw [scanRegion_eq, scanRegion_eq, same]
  cases markerAt? text with
  | none => rfl
  | some found => exact token?_outcome _ _ _ _

theorem token?_literal_congr {first second : LiteralScan} (same : second.length = first.length) :
    (second.outcome index state).token? = (first.outcome index state).token? := by
  unfold LiteralScan.outcome
  rw [same]
  cases first.length <;> rfl

/-- The scanner finds the same tokens where its parts do. -/
theorem token?_scan_congr
    (regions : c = '#' → markerAt? (c :: other) = markerAt? (c :: rest))
    (strings : c = '"' → (scanString (c :: other)).length = (scanString (c :: rest)).length)
    (dates : c = '\'' → (scanDate (c :: other)).length = (scanDate (c :: rest)).length) :
    (scan (c :: other) valid state).token? = (scan (c :: rest) valid state).token? := by
  rw [scan_cons, scan_cons]
  split
  case isTrue marked =>
      exact token?_scanRegion_congr (regions (of_decide_eq_true (Bool.and_eq_true_iff.mp marked).1))
  case isFalse =>
      split
      case isTrue quoted =>
          exact token?_literal_congr
            (strings (of_decide_eq_true (Bool.and_eq_true_iff.mp quoted).1))
      case isFalse =>
          split
          case isTrue quoted =>
              exact token?_literal_congr
                (dates (of_decide_eq_true (Bool.and_eq_true_iff.mp quoted).1))
          case isFalse => rfl

theorem index_of_outcome {scan : LiteralScan} {kind : Nat}
    (found : scan.outcome kind state = .token index length after examined) : index = kind := by
  unfold LiteralScan.outcome at found
  split at found
  · exact (ScanOutcome.token.inj found).1.symm
  · cases found

theorem markerAt?_of_scanRegion
    (found : scanRegion text valid state = .token index length after examined) :
    ∃ marker, markerAt? text = some (marker, length) := by
  rw [scanRegion_eq] at found
  cases here : markerAt? text with
  | none =>
      rw [here] at found
      cases found
  | some place =>
      obtain ⟨marker, size⟩ := place
      rw [here, Option.elim_some] at found
      cases marker with
      | opening =>
          simp only [RegionMarker.outcome] at found
          split at found
          · exact ⟨_, congrArg (fun size => some (_, size)) (ScanOutcome.token.inj found).2.1⟩
          · cases found
      | closing =>
          simp only [RegionMarker.outcome] at found
          split at found
          · exact ⟨_, congrArg (fun size => some (_, size)) (ScanOutcome.token.inj found).2.1⟩
          · cases found

/-- What the scanner finds is a marker, a string or a date. -/
theorem scan_cases (found : scan (c :: rest) valid state = .token index length after examined) :
    (c = '#' ∧ ∃ marker, markerAt? (c :: rest) = some (marker, length)) ∨
      (c = '"' ∧ index = 2 ∧ (scanString (c :: rest)).length = some length) ∨
      (c = '\'' ∧ index = 3 ∧ (scanDate (c :: rest)).length = some length) := by
  rw [scan_cons] at found
  split at found
  case isTrue marked =>
      exact .inl ⟨of_decide_eq_true (Bool.and_eq_true_iff.mp marked).1,
        markerAt?_of_scanRegion found⟩
  case isFalse =>
      split at found
      case isTrue quoted =>
          exact .inr (.inl ⟨of_decide_eq_true (Bool.and_eq_true_iff.mp quoted).1,
            index_of_outcome found, LiteralScan.length_of_outcome found⟩)
      case isFalse =>
          split at found
          case isTrue quoted =>
              exact .inr (.inr ⟨of_decide_eq_true (Bool.and_eq_true_iff.mp quoted).1,
                index_of_outcome found, LiteralScan.length_of_outcome found⟩)
          case isFalse => cases found

/-- A date is closed on its line, and its digits make a date. -/
theorem exists_of_scanDate (found : (scanDate ('\'' :: text)).length = some length) :
    ∃ content behind, text = content ++ '\'' :: behind ∧ (∀ c ∈ content, endsDate c = false) ∧
      length = utf8Length content + 2 ∧
      isValidDate ((content.filter Char.isDigit).map fun c => c.toNat - 48) = true := by
  rcases run_cases (fun c => !endsDate c) text with
    whole | ⟨content, close, behind, rfl, inside, closed⟩
  · rw [scanDate_open (by simpa using whole)] at found
    cases found
  · have going : ∀ c ∈ content, endsDate c = false := by simpa using inside
    rw [scanDate_closed going (by simpa using closed)] at found
    split at found
    case isTrue valid =>
        simp only [Bool.and_eq_true, decide_eq_true_eq] at valid
        exact ⟨content, behind, by rw [valid.1], going, (Option.some.inj found).symm, valid.2⟩
    case isFalse => cases found

end scanner

/-! ## Tokens that end in front of a text -/

section inside

variable {front behind other : List Char} {valid : ValidExternals} {state after : ScannerState}
  {index length examined : Nat}

theorem length_scanString_replace (quote : '"' ∉ other.head?)
    (found : (scanString ('"' :: (front ++ behind))).length = some length)
    (inside : length ≤ utf8Length ('"' :: front)) :
    (scanString ('"' :: (front ++ other))).length = some length := by
  have starts (rest : List Char) : scanString ('"' :: rest) = scanStringFrom .inside 1 rest := rfl
  rw [starts] at found ⊢
  obtain ⟨content, rest, split, closes, further⟩ := exists_closesFrom found
  have read := length_scanStringFrom closes further 1
  rw [← split, found] at read
  have length_eq := Option.some.inj read
  have single : '"'.utf8Size = 1 := rfl
  rw [utf8Length_cons, single] at inside
  obtain ⟨more, rfl⟩ : content <+: front :=
    prefix_of_utf8Length_le ⟨rest, split.symm⟩ (List.prefix_append front behind) (by omega)
  rw [List.append_assoc] at split ⊢
  obtain rfl := List.append_cancel_left split
  have further' : (more ++ other).head? ≠ some '"' := by
    cases more with
    | nil => exact quote
    | cons => exact further
  rw [length_scanStringFrom closes further', length_eq]

theorem length_scanDate_replace
    (found : (scanDate ('\'' :: (front ++ behind))).length = some length)
    (inside : length ≤ utf8Length ('\'' :: front)) :
    (scanDate ('\'' :: (front ++ other))).length = some length := by
  obtain ⟨content, rest, split, going, rfl, valid⟩ := exists_of_scanDate found
  have quote : '\''.utf8Size = 1 := rfl
  rw [utf8Length_cons, quote] at inside
  have whole : front ++ behind = content ++ ['\''] ++ rest := by
    rw [split, List.append_assoc]
    rfl
  obtain ⟨more, rfl⟩ : content ++ ['\''] <+: front := by
    refine prefix_of_utf8Length_le ⟨rest, whole.symm⟩ (List.prefix_append front behind) ?_
    rw [utf8Length_append, utf8Length_cons, quote, utf8Length_nil]
    omega
  rw [List.append_assoc, List.append_assoc, List.singleton_append,
    scanDate_closed going (by decide), if_pos (by simpa using valid)]

/-- A token of the scanner that ends in front of a text is found in front of a text in its
place. -/
theorem token?_scan_replace {c : Char} (replaces : Replaces other behind)
    (found : scan (c :: front ++ behind) valid state = .token index length after examined)
    (inside : length ≤ utf8Length (c :: front)) :
    (scan (c :: front ++ other) valid state).token? = some (index, length, after) := by
  have same : (scan (c :: front ++ other) valid state).token? =
      (scan (c :: front ++ behind) valid state).token? := by
    apply token?_scan_congr
    · rintro rfl
      rcases scan_cases found with ⟨_, marker, here⟩ | ⟨wrong, _⟩ | ⟨wrong, _⟩
      · exact (markerAt?_replace here inside replaces.goesOn).trans here.symm
      · cases wrong
      · cases wrong
    · rintro rfl
      rcases scan_cases found with ⟨wrong, _⟩ | ⟨_, _, here⟩ | ⟨wrong, _⟩
      · cases wrong
      · refine (length_scanString_replace (fun quote => ?_) here inside).trans here.symm
        exact (replaces.plain' _ quote).1 (by decide)
      · cases wrong
    · rintro rfl
      rcases scan_cases found with ⟨wrong, _⟩ | ⟨wrong, _⟩ | ⟨_, _, here⟩
      · cases wrong
      · cases wrong
      · exact (length_scanDate_replace here inside).trans here.symm
  rw [same, found]
  rfl

end inside

/-! ## Lines -/

section lines

variable {c : Char} {text rest front behind other content : List Char} {symbol : SymbolId}

theorem blankStart_of_endsLine {e : Char} (ends : endsLine e = true) (rest : List Char) :
    BlankStart (e :: rest) ∧ BlankStart ((e :: rest).dropWhile isGap) := by
  have sign : e = '\r' ∨ e = '\n' := by simpa [endsLine] using ends
  have kinds : isBlank e = true ∧ isGap e = false := by
    rcases sign with rfl | rfl
    · exact ⟨rfl, rfl⟩
    · exact ⟨rfl, rfl⟩
  have starts : BlankStart (e :: rest) := fun d first => Option.some.inj first ▸ kinds.1
  refine ⟨starts, ?_⟩
  rw [List.dropWhile_cons, kinds.2]
  exact starts

/-- A marker depends on its line only. -/
theorem markerAt?_line (rest : List Char) :
    markerAt? ('#' :: rest) = markerAt? (('#' :: rest).takeWhile lineRest.contains) := by
  rcases run_cases lineRest.contains ('#' :: rest) with
    whole | ⟨first, e, more, split, inside, stops⟩
  · rw [List.takeWhile_eq_self_iff.mpr whole]
  · have filled : first ≠ [] := by
      rintro rfl
      obtain ⟨rfl, _⟩ := List.cons.inj split
      cases stops
    have ends : endsLine e = true := by simpa [lineRest_contains] using stops
    obtain ⟨starts, starts'⟩ := blankStart_of_endsLine ends more
    rw [split, takeWhile_closed inside stops, markerAt?_append filled starts starts']

end lines

/-! ## Tokens of the lexer -/

section lexer

variable {language : Language} {forms : List (TokenForm × SymbolId)} {c : Char}
  {text rest front behind other content : List Char} {symbol : SymbolId}
  {mode : ValidExternals} {state after : ScannerState}

/-- No token of the lexer starts with a quote. -/
theorem Spells.matchToken?_quote {lexer : Lexer} (spells : Spells lexer forms)
    (quote : c = '"' ∨ c = '\'') (rest : List Char) : lexer.matchToken? (c :: rest) = none := by
  rw [spells.matchToken?]
  cases chosen : findForm? forms (c :: rest) with
  | none => rfl
  | some found =>
      obtain ⟨⟨form, id⟩, listed, content, here, _⟩ := exists_form_of_found chosen
      have known := spells.isKnown listed
      cases form with
      | literal sign =>
          simp only [TokenForm.content?, Option.ite_none_right_eq_some] at here
          obtain ⟨filled, made⟩ := known
          obtain ⟨s, sign, rfl⟩ := List.exists_cons_of_ne_nil filled
          obtain ⟨rfl, _⟩ := List.cons_prefix_cons.mp here.1
          have member := made List.mem_cons_self
          rcases quote with rfl | rfl
          · exact absurd member (by decide)
          · exact absurd member (by decide)
      | identifier =>
          simp only [TokenForm.content?, Option.ite_none_right_eq_some] at here
          have starts : wordStart.contains c = true := here.1
          have apart := not_mem_foreign (wordPart_of_wordStart starts)
          rcases quote with rfl | rfl
          · exact absurd (by decide) apart
          · exact absurd (by decide) apart
      | number =>
          rcases quote with rfl | rfl
          · cases here
          · cases here
      | line mark =>
          simp only [TokenForm.content?, Option.ite_none_right_eq_some] at here
          rcases known with rfl | rfl
          all_goals
            obtain ⟨rfl, _⟩ := List.cons_prefix_cons.mp here.1
            rcases quote with wrong | wrong <;> cases wrong

/-- At a number sign the lexer finds at least the rest of the line. -/
theorem Spells.line_le {lexer : Lexer} (spells : Spells lexer forms) (rest : List Char) :
    ∃ found, lexer.matchToken? ('#' :: rest) = some found ∧
      utf8Length (('#' :: rest).takeWhile lineRest.contains) ≤ found.length := by
  obtain ⟨id, listed⟩ := spells.directive
  rw [spells.matchToken?]
  exact exists_longest listed (by simp [TokenForm.content?])

theorem scanned_replace (scans : language.scanner = OneScript.scanner)
    (replaces : Replaces other behind) {index examined : Nat} (nonempty : content ≠ [])
    (asked : mode.isEmpty = false)
    (found : language.scanner.scan (content ++ rest) mode state =
      .token index (utf8Length content) after examined)
    (declared : language.lexer.externals[index]? = some symbol)
    (split : front ++ behind = content ++ rest) (inside : content <+: front) :
    ∃ rest', front ++ other = content ++ rest' ∧
      language.Finds mode state content rest' symbol after := by
  obtain ⟨more, rfl⟩ := inside
  obtain ⟨c, content, rfl⟩ := List.exists_cons_of_ne_nil nonempty
  rw [scans, ← split] at found
  have within : utf8Length (c :: content) ≤ utf8Length (c :: (content ++ more)) := by
    simp only [utf8Length_cons, utf8Length_append]
    omega
  have same : (scan (c :: (content ++ more) ++ other) mode state).token? =
      some (index, utf8Length (c :: content), after) := token?_scan_replace replaces found within
  refine ⟨more ++ other, List.append_assoc _ _ _, ?_⟩
  cases there : scan (c :: (content ++ more) ++ other) mode state with
  | decline =>
      rw [there] at same
      cases same
  | token index' length' after' examined' =>
      rw [there] at same
      obtain ⟨rfl, rfl, rfl⟩ : index' = index ∧ length' = utf8Length (c :: content) ∧
          after' = after := by simpa [ScanOutcome.token?] using same
      have found' : language.scanner.scan (c :: content ++ (more ++ other)) mode state =
          .token index' (utf8Length (c :: content)) after' examined' := by
        rw [scans, ← List.append_assoc]
        exact there
      exact .scanned nonempty asked found' declared

theorem matched_replace (spells : Spells language.lexer forms)
    (scans : language.scanner = OneScript.scanner) (replaces : Replaces other behind)
    (line : KeepsLine forms (c :: front) behind other)
    (declines : language.Declines mode state (content ++ rest))
    (found : language.lexer.matchToken? (content ++ rest) =
      some ⟨symbol, utf8Length content, rest⟩)
    (split : c :: front ++ behind = content ++ rest) (inside : content <+: c :: front) :
    ∃ rest', c :: front ++ other = content ++ rest' ∧
      language.Finds mode state content rest' symbol state := by
  rw [← split] at found declines
  obtain ⟨rest', split', found'⟩ := spells.matchToken?_replace replaces found inside line
  refine ⟨rest', split', ?_⟩
  have declines' : language.Declines mode state (c :: front ++ other) := by
    refine declines.congr ?_
    rw [scans]
    apply token?_scan_congr
    · rintro rfl
      obtain ⟨longest, chosen, le⟩ := spells.line_le (front ++ behind)
      obtain rfl := Option.some.inj (found.symm.trans chosen)
      have short : ('#' :: front ++ behind).takeWhile lineRest.contains <+: '#' :: front :=
        (prefix_of_utf8Length_le (List.takeWhile_prefix _)
          (inside.trans (List.prefix_append _ _)) le).trans inside
      have marked : ['#'] <+: '#' :: front ++ behind := ⟨front ++ behind, rfl⟩
      obtain ⟨id, listed⟩ := spells.directive
      have same := takeWhile_replace short (line ['#'] id listed marked)
      exact (markerAt?_line _).trans ((congrArg markerAt? same).trans (markerAt?_line _).symm)
    · rintro rfl
      exact absurd (found.symm.trans (spells.matchToken?_quote (.inl rfl) _)) (by simp)
    · rintro rfl
      exact absurd (found.symm.trans (spells.matchToken?_quote (.inr rfl) _)) (by simp)
  rw [split'] at found' declines'
  exact .matched (split' ▸ List.cons_ne_nil _ _) declines' found'

end lexer

end OneScript

end Lalr
