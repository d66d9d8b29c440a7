import Lalr.Proofs.OneScript.Marker
import Lalr.Proofs.Text.Bytes

set_option autoImplicit false

/-!
The bytes that the scanner reports as examined. Its outcome depends on nothing behind them, except
where it gives up on a string at a single slash between two lines: there it has looked at the byte
behind the slash too.
-/

namespace Lalr

open Lalr.Text

namespace OneScript

/-! ## Regions -/

theorem blank_of_endsLine {c : Char} (line : endsLine c = true) :
    isBlank c = true ∧ isGap c = false := by
  rcases Bool.or_eq_true_iff.mp line with same | same
  all_goals
    obtain rfl := beq_iff_eq.mp same
    exact ⟨rfl, rfl⟩

section

variable {text other : List Char} {valid : ValidExternals} {state : ScannerState}

/-- On a line that is closed, the rest of the text does not matter. -/
theorem scanRegion_line {line : List Char} {c : Char} (marked : line.head? = some '#')
    (inLine : ∀ d ∈ line, endsLine d = false) (ends : endsLine c = true) (behind : List Char)
    (valid : ValidExternals) (state : ScannerState) :
    scanRegion (line ++ c :: behind) valid state =
      (markerAt? line).elim (.decline (utf8Length line + 1))
        fun found => found.1.outcome found.2 valid state (utf8Length line + 1) := by
  have filled : line ≠ [] := by
    rintro rfl
    cases marked
  obtain ⟨blank, open_⟩ := blank_of_endsLine ends
  have start : BlankStart (c :: behind) := fun d first => Option.some.inj first ▸ blank
  have stays : (c :: behind).dropWhile isGap = c :: behind := by
    rw [List.dropWhile_cons, open_]
    rfl
  have taken : (line ++ c :: behind).takeWhile (fun d => !endsLine d) = line :=
    takeWhile_closed (by simpa using inLine) (by simpa using ends)
  have room : utf8Length line + 1 ≤ utf8Length (line ++ c :: behind) := by
    have positive := c.utf8Size_pos
    rw [utf8Length_append, utf8Length_cons]
    omega
  rw [scanRegion_eq, taken, Nat.min_eq_left room,
    markerAt?_append filled start (stays.symm ▸ start)]

theorem scanRegion_of_agree (marked : text.head? = some '#')
    (agree : AgreeOn (scanRegion text valid state).examined text other) :
    scanRegion other valid state = scanRegion text valid state := by
  rw [examined_scanRegion] at agree
  rcases run_cases (fun c => !endsLine c) text with
    whole | ⟨line, c, behind, rfl, inside, closed⟩
  · have more := agree.more
    rw [List.takeWhile_eq_self_iff.mpr whole] at more
    omega
  · have inLine : ∀ d ∈ line, endsLine d = false := by simpa using inside
    have ends : endsLine c = true := by simpa using closed
    have taken : (line ++ c :: behind).takeWhile (fun c => !endsLine c) = line :=
      takeWhile_closed inside closed
    have single := utf8Size_of_endsLine ends
    have measured : utf8Length (line ++ [c]) = utf8Length line + 1 := by
      rw [utf8Length_append, utf8Length_cons, single, utf8Length_nil]
    have room : utf8Length line + 1 ≤ utf8Length (line ++ c :: behind) := by
      rw [utf8Length_append, utf8Length_cons]
      omega
    have first : line.head? = some '#' := by
      cases line with
      | nil =>
          obtain rfl := Option.some.inj marked
          cases ends
      | cons => exact marked
    rw [taken, Nat.min_eq_left room, ← measured] at agree
    have whole : AgreeOn (utf8Length (line ++ [c]) + 0) ((line ++ [c]) ++ behind) other := by
      rwa [List.append_assoc]
    obtain ⟨behind', rfl, _⟩ := whole.split
    rw [← List.append_cons, scanRegion_line first inLine ends, scanRegion_line first inLine ends]

end

/-! ## Strings -/

/-- Two texts go on alike through a slash that ends their first `count` bytes, and in the second
one another slash follows it. -/
def ForkAtSlash (count : Nat) (text other : List Char) : Prop :=
  ∃ front behind behind', text = front ++ '/' :: behind ∧ other = front ++ '/' :: '/' :: behind' ∧
    utf8Length front + 1 = count

theorem forkAtSlash_cons {c : Char} {count : Nat} {text other : List Char} (positive : 0 < count) :
    ForkAtSlash (c.utf8Size + count) (c :: text) (c :: other) ↔ ForkAtSlash count text other := by
  constructor
  · rintro ⟨front, behind, behind', here, there, length⟩
    cases front with
    | nil =>
        obtain ⟨rfl, rfl⟩ := List.cons.inj here
        have slash : '/'.utf8Size = 1 := rfl
        rw [slash, utf8Length_nil] at length
        omega
    | cons d front =>
        obtain ⟨rfl, rfl⟩ := List.cons.inj here
        obtain ⟨_, rfl⟩ := List.cons.inj there
        rw [utf8Length_cons] at length
        exact ⟨front, behind, behind', rfl, rfl, by omega⟩
  · rintro ⟨front, behind, behind', rfl, rfl, length⟩
    exact ⟨c :: front, behind, behind', rfl, rfl, by rw [utf8Length_cons]; omega⟩

theorem le_examined (place : StringPlace) (offset : Nat) (text : List Char) :
    offset ≤ (scanStringFrom place offset text).examined := by
  fun_induction scanStringFrom place offset text with
  | case1 => exact Nat.le_refl _
  | case3 offset rest =>
      dsimp only
      split <;> omega
  | case9 => exact Nat.le_succ _
  | _ => rename_i ih; exact Nat.le_trans (Nat.le_add_right _ _) ih

/-- Some of a text that goes on is examined. -/
theorem lt_examined (place : StringPlace) (offset : Nat) (c : Char) (text : List Char) :
    offset < (scanStringFrom place offset (c :: text)).examined := by
  have later (place : StringPlace) {more : Nat} (rest : List Char) (grows : 0 < more) :
      offset < (scanStringFrom place (offset + more) rest).examined :=
    Nat.lt_of_lt_of_le (Nat.lt_add_of_pos_right grows) (le_examined place _ rest)
  generalize whole : c :: text = line
  fun_cases scanStringFrom place offset line with
  | case1 => cases whole
  | case2 => exact later _ _ (by decide)
  | case3 =>
      dsimp only
      split <;> omega
  | case9 => exact Nat.lt_succ_self _
  | case4 | case6 | case7 | case8 | case10 => exact later _ _ Nat.one_pos
  | case5 | case11 => exact later _ _ (Char.utf8Size_pos _)

theorem forkAtSlash_append {count : Nat} (positive : 0 < count) (front text other : List Char) :
    ForkAtSlash (utf8Length front + count) (front ++ text) (front ++ other) ↔
      ForkAtSlash count text other := by
  induction front with
  | nil => rw [utf8Length_nil, Nat.zero_add, List.nil_append, List.nil_append]
  | cons c front ih =>
      rw [utf8Length_cons, Nat.add_assoc, List.cons_append, List.cons_append,
        forkAtSlash_cons (Nat.lt_of_lt_of_le positive (Nat.le_add_left _ _)), ih]

/-- A scan goes on alike in two texts, or parts at a slash. -/
def SameUnlessFork (first second : LiteralScan) (count : Nat) (text other : List Char) : Prop :=
  second = first ↔ ¬ (first.length = none ∧ ForkAtSlash count text other)

section

variable {place : StringPlace} {offset next : Nat} {c : Char} {rest other : List Char}

/-- Behind what a scan has passed, it goes on in both texts. -/
theorem sameUnlessFork_behind {place' : StringPlace} (front : List Char)
    (passed : next = offset + utf8Length front)
    (agree : AgreeOn ((scanStringFrom place' next rest).examined - offset) (front ++ rest) other)
    (goes : ∀ rest', AgreeOn 1 rest rest' →
      scanStringFrom place offset (front ++ rest') = scanStringFrom place' next rest')
    (later : ∀ {rest' : List Char},
      AgreeOn ((scanStringFrom place' next rest).examined - next) rest rest' →
        SameUnlessFork (scanStringFrom place' next rest) (scanStringFrom place' next rest')
          ((scanStringFrom place' next rest).examined - next) rest rest') :
    SameUnlessFork (scanStringFrom place' next rest) (scanStringFrom place offset other)
      ((scanStringFrom place' next rest).examined - offset) (front ++ rest) other := by
  obtain ⟨count, counted⟩ := Nat.exists_eq_add_of_le (le_examined place' next rest)
  have examined_all : (scanStringFrom place' next rest).examined - offset =
      utf8Length front + count := by omega
  have examined_behind : (scanStringFrom place' next rest).examined - next = count := by omega
  rw [examined_all] at agree ⊢
  rw [examined_behind] at later
  obtain ⟨rest', rfl, behind⟩ := agree.split
  have positive : 0 < count := by
    cases rest with
    | nil => exact absurd behind.more (Nat.not_lt_zero _)
    | cons d rest =>
        have := lt_examined place' next d rest
        omega
  rw [goes rest' (behind.mono positive)]
  exact (later behind).trans (not_congr (and_congr_right' (forkAtSlash_append positive _ _ _).symm))

/-- The characters that matter between two lines are single bytes. -/
theorem isBreak_congr {d : Char}
    (same : ∀ single : Char, single.utf8Size = 1 → (c = single ↔ d = single)) :
    (decide (c = ' ') || decide (c = '\t') || endsLine c) =
      (decide (d = ' ') || decide (d = '\t') || endsLine d) := by
  rw [Bool.eq_iff_iff]
  simp only [endsLine, Bool.or_eq_true, decide_eq_true_eq, beq_iff_eq, same ' ' rfl, same '\t' rfl,
    same '\r' rfl, same '\n' rfl]

theorem forkAtSlash_one {text : List Char} :
    ForkAtSlash 1 text other ↔ text.head? = some '/' ∧ ∃ behind, other = '/' :: '/' :: behind := by
  constructor
  · rintro ⟨front, behind, behind', rfl, rfl, length⟩
    have none_before : front.length = 0 := by
      have := length_le_utf8Length front
      omega
    obtain rfl := List.length_eq_zero_iff.mp none_before
    exact ⟨rfl, behind', rfl⟩
  · rintro ⟨first, behind', rfl⟩
    obtain ⟨behind, rfl⟩ := List.head?_eq_some_iff.mp first
    exact ⟨[], behind, behind', rfl, rfl, rfl⟩

/-- Giving up at a character between two lines. -/
theorem sameUnlessFork_givesUp (agree : AgreeOn 1 (c :: rest) other)
    (blank : ¬ ((decide (c = ' ') || decide (c = '\t') || endsLine c) = true)) (bar : c ≠ '|') :
    SameUnlessFork ⟨none, offset + 1⟩ (scanStringFrom .betweenLines offset other) 1 (c :: rest)
      other := by
  cases other with
  | nil => exact absurd agree.more' (Nat.not_lt_zero _)
  | cons d other =>
      have same (single : Char) (size : single.utf8Size = 1) : c = single ↔ d = single := by
        have heads : _ ↔ (d :: other).head? = _ := AgreeOn.head_iff (Nat.zero_add 1 ▸ agree) size
        simpa using heads
      rw [isBreak_congr same] at blank
      rw [Ne, same '|' rfl] at bar
      unfold SameUnlessFork
      rw [scanStringFrom, if_neg blank, if_neg bar, forkAtSlash_one]
      by_cases opened : (decide (d = '/') && other.head? == some '/') = true
      · rw [if_pos opened]
        simp only [Bool.and_eq_true, decide_eq_true_eq, beq_iff_eq] at opened
        obtain ⟨rfl, first⟩ := opened
        obtain ⟨behind, rfl⟩ := List.head?_eq_some_iff.mp first
        have further := lt_examined .inComment (offset + 1) '/' behind
        constructor
        · intro alike
          rw [alike] at further
          exact absurd further (Nat.lt_irrefl _)
        · intro apart
          exact absurd ⟨rfl, congrArg some ((same '/' rfl).mpr rfl), behind, rfl⟩ apart
      · rw [if_neg opened]
        refine iff_of_true rfl ?_
        rintro ⟨_, _, behind, fork⟩
        obtain ⟨rfl, rfl⟩ := List.cons.inj fork
        exact opened rfl

/-- A scan of a string comes to the same end on texts that agree on what it examined, unless it
gave up at a slash. -/
theorem scanStringFrom_of_agree {text : List Char}
    (agree : AgreeOn ((scanStringFrom place offset text).examined - offset) text other) :
    SameUnlessFork (scanStringFrom place offset text) (scanStringFrom place offset other)
      ((scanStringFrom place offset text).examined - offset) text other := by
  fun_induction scanStringFrom place offset text generalizing other with
  | case1 => exact absurd agree.more (by simp)
  | case2 offset rest ih =>
      exact sameUnlessFork_behind ['"', '"'] rfl agree (fun _ _ => rfl) ih
  | case3 offset rest single =>
      cases rest with
      | nil => exact absurd agree.more (by simp [show '"'.utf8Size = 1 from rfl])
      | cons c rest =>
          have whole : AgreeOn ('"'.utf8Size + 1) ('"' :: c :: rest) other := by
            simpa [show '"'.utf8Size = 1 from rfl, Nat.add_sub_cancel_left] using agree
          obtain ⟨rest', rfl, behind⟩ := whole.cons
          refine iff_of_true ?_ (by simp)
          have first : rest'.head? ≠ some '"' := by
            intro quote
            have quote := (AgreeOn.head_iff (Nat.zero_add 1 ▸ behind) rfl).mpr quote
            exact single rest rfl (congrArg (· :: rest) (Option.some.inj quote))
          cases rest' with
          | nil => exact absurd behind.more' (Nat.not_lt_zero _)
          | cons d rest' =>
              have other_char : d ≠ '"' := fun same => first (congrArg some same)
              simp [scanStringFrom, other_char]
  | case4 offset c rest _ quote ends ih =>
      have single := utf8Size_of_endsLine ends
      exact sameUnlessFork_behind [c] (by simp [single]) agree
        (fun rest' _ => by simp [scanStringFrom, quote, ends]) ih
  | case5 offset c rest _ quote ends ih =>
      exact sameUnlessFork_behind [c] rfl agree
        (fun rest' _ => by simp [scanStringFrom, quote, ends]) ih
  | case6 offset c rest blank ih =>
      have single : c.utf8Size = 1 := by
        rcases Bool.or_eq_true_iff.mp blank with space | ends
        · rcases Bool.or_eq_true_iff.mp space with same | same
          all_goals rw [of_decide_eq_true same]; rfl
        · exact utf8Size_of_endsLine ends
      exact sameUnlessFork_behind [c] (by simp [single]) agree
        (fun rest' _ => by rw [List.singleton_append, scanStringFrom, if_pos blank]) ih
  | case7 offset rest _ ih =>
      exact sameUnlessFork_behind ['|'] rfl agree (fun _ _ => rfl) ih
  | case8 offset c rest blank bar slash ih =>
      simp only [Bool.and_eq_true, decide_eq_true_eq, beq_iff_eq] at slash
      obtain ⟨rfl, first⟩ := slash
      refine sameUnlessFork_behind ['/'] rfl agree (fun rest' behind => ?_) ih
      have first' := (AgreeOn.head_iff (Nat.zero_add 1 ▸ behind) rfl).mp first
      simp [scanStringFrom, endsLine, first']
  | case9 offset c rest blank bar _ =>
      rw [Nat.add_sub_cancel_left] at agree ⊢
      exact sameUnlessFork_givesUp agree blank bar
  | case10 offset rest ih =>
      exact sameUnlessFork_behind ['\n'] rfl agree (fun _ _ => rfl) ih
  | case11 offset c rest feed ih =>
      exact sameUnlessFork_behind [c] rfl agree
        (fun rest' _ => by rw [List.singleton_append, scanStringFrom, if_neg feed]) ih

theorem scanString_of_agree
    (agree : AgreeOn (scanString ('"' :: rest)).examined ('"' :: rest) other) :
    ∃ rest', other = '"' :: rest' ∧
      SameUnlessFork (scanString ('"' :: rest)) (scanString other)
        (scanString ('"' :: rest)).examined ('"' :: rest) other := by
  have starts : ∀ rest, scanString ('"' :: rest) = scanStringFrom .inside 1 rest := fun _ => rfl
  rw [starts] at agree ⊢
  obtain ⟨count, counted⟩ := Nat.exists_eq_add_of_le (le_examined .inside 1 rest)
  have examined_behind : (scanStringFrom .inside 1 rest).examined - 1 = count := by omega
  have quote : '"'.utf8Size = 1 := rfl
  rw [counted, ← quote] at agree
  obtain ⟨rest', rfl, behind⟩ := agree.cons
  have positive : 0 < count := by
    cases rest with
    | nil => exact absurd behind.more (Nat.not_lt_zero _)
    | cons c rest =>
        have := lt_examined .inside 1 c rest
        omega
  have later := scanStringFrom_of_agree (examined_behind.symm ▸ behind)
  refine ⟨rest', rfl, later.trans (not_congr (and_congr_right' ?_))⟩
  rw [examined_behind, counted]
  exact (forkAtSlash_cons positive).symm

end

/-! ## Dates -/

/-- A character up to which a date is read. -/
def endsDate (c : Char) : Bool :=
  c == '\'' || endsLine c

section dates

variable {content behind text other : List Char} {close : Char}

theorem scanDate_closed (inside : ∀ c ∈ content, endsDate c = false) (ends : endsDate close = true) :
    scanDate ('\'' :: (content ++ close :: behind)) =
      if close = '\'' && isValidDate ((content.filter Char.isDigit).map fun c => c.toNat - 48) then
        ⟨some (utf8Length content + 2), utf8Length content + 2⟩
      else ⟨none, utf8Length content + 2⟩ := by
  have fold : (fun c => !(c == '\'' || endsLine c)) = fun c => !endsDate c := rfl
  have going : ∀ c ∈ content, (!endsDate c) = true := by simpa using inside
  have stops : (!endsDate close) = false := by simpa using ends
  unfold scanDate
  dsimp only
  rw [fold, List.drop_one, List.tail_cons, takeWhile_closed going stops,
    dropWhile_closed going stops]
  rfl

theorem scanDate_open (inside : ∀ c ∈ text, endsDate c = false) :
    scanDate ('\'' :: text) = ⟨none, utf8Length ('\'' :: text)⟩ := by
  have fold : (fun c => !(c == '\'' || endsLine c)) = fun c => !endsDate c := rfl
  have going : ∀ c ∈ text, (!endsDate c) = true := by simpa using inside
  unfold scanDate
  dsimp only
  rw [fold, List.drop_one, List.tail_cons, List.dropWhile_eq_nil_iff.mpr going]
  rfl

theorem scanDate_of_agree (marked : text.head? = some '\'')
    (agree : AgreeOn (scanDate text).examined text other) : scanDate other = scanDate text := by
  obtain ⟨body, rfl⟩ := List.head?_eq_some_iff.mp marked
  rcases run_cases (fun c => !endsDate c) body with
    whole | ⟨content, close, behind, rfl, inside, closed⟩
  · rw [scanDate_open (by simpa using whole)] at agree
    exact absurd agree.more (Nat.lt_irrefl _)
  · have going : ∀ c ∈ content, endsDate c = false := by simpa using inside
    have ends : endsDate close = true := by simpa using closed
    have single : close.utf8Size = 1 := by
      rcases Bool.or_eq_true_iff.mp ends with same | line
      · rw [beq_iff_eq.mp same]
        rfl
      · exact utf8Size_of_endsLine line
    have quote : '\''.utf8Size = 1 := rfl
    have read : (scanDate ('\'' :: (content ++ close :: behind))).examined =
        utf8Length ('\'' :: (content ++ [close])) + 0 := by
      rw [scanDate_closed going ends, utf8Length_cons, utf8Length_append, utf8Length_cons, single,
        quote, utf8Length_nil]
      split <;> dsimp only <;> omega
    have whole : AgreeOn (utf8Length ('\'' :: (content ++ [close])) + 0)
        ('\'' :: (content ++ [close]) ++ behind) other := by
      rw [← read, List.cons_append, List.append_assoc]
      exact agree
    obtain ⟨behind', rfl, _⟩ := whole.split
    rw [List.cons_append, List.append_assoc, List.singleton_append, scanDate_closed going ends,
      scanDate_closed going ends]

end dates

/-! ## The scanner -/

section scanner

variable {text other rest rest' : List Char} {offset : Nat} {valid : ValidExternals}
  {state : ScannerState}

theorem outcome_eq_iff {first second : LiteralScan} {index : Nat} :
    second.outcome index state = first.outcome index state ↔ second = first := by
  obtain ⟨length, examined⟩ := first
  obtain ⟨length', examined'⟩ := second
  cases length <;> cases length' <;> simp [LiteralScan.outcome]

theorem outcome_eq_decline_iff {scan : LiteralScan} {index : Nat} :
    scan.outcome index state = .decline (scan.outcome index state).examined ↔
      scan.length = none := by
  obtain ⟨length, examined⟩ := scan
  cases length <;> simp [LiteralScan.outcome, ScanOutcome.examined]

theorem scan_cons (c : Char) (rest : List Char) :
    scan (c :: rest) valid state =
      if (decide (c = '#') && (valid.contains 0 || valid.contains 1)) = true then
        scanRegion (c :: rest) valid state
      else if (decide (c = '"') && valid.contains 2) = true then
        (scanString (c :: rest)).outcome 2 state
      else if (decide (c = '\'') && valid.contains 3) = true then
        (scanDate (c :: rest)).outcome 3 state
      else .decline 1 := rfl

theorem examined_scan_pos {c : Char} {rest : List Char} :
    0 < (scan (c :: rest) valid state).examined := by
  have positive := c.utf8Size_pos
  rw [scan_cons]
  split
  · rw [examined_scanRegion, utf8Length_cons]
    omega
  · split
    · rw [LiteralScan.examined_outcome]
      exact le_examined .inside 1 rest
    · split
      · rw [LiteralScan.examined_outcome]
        unfold scanDate
        dsimp only
        split
        · exact Nat.lt_of_lt_of_le positive (Nat.le_add_right _ _)
        · split <;> exact Nat.succ_pos _
      · exact Nat.one_pos

/-- The outcome of a scan is that on every text with the examined bytes, unless it gave up on a
string at a slash. -/
theorem scan_of_agree (agree : AgreeOn (scan text valid state).examined text other) :
    scan other valid state = scan text valid state ↔
      ¬ (text.head? = some '"' ∧
        scan text valid state = .decline (scan text valid state).examined ∧
        ForkAtSlash (scan text valid state).examined text other) := by
  cases text with
  | nil => exact absurd agree.more (Nat.not_lt_zero _)
  | cons c rest =>
      cases other with
      | nil => exact absurd agree.more' (Nat.not_lt_zero _)
      | cons d rest' =>
          have first : AgreeOn (0 + 1) (c :: rest) (d :: rest') := agree.mono examined_scan_pos
          have same (single : Char) (size : single.utf8Size = 1) (valid : Bool) :
              (decide (d = single) && valid) = (decide (c = single) && valid) := by
            have heads := first.head_iff size
            simp only [List.head?_cons, Option.some.injEq] at heads
            rw [decide_eq_decide.mpr heads]
          rw [scan_cons c] at agree ⊢
          rw [scan_cons d, same '#' rfl, same '"' rfl, same '\'' rfl]
          split
          case isTrue region =>
              rw [if_pos region] at agree
              have mark := of_decide_eq_true (Bool.and_eq_true_iff.mp region).1
              refine iff_of_true (scanRegion_of_agree (congrArg some mark) agree) ?_
              rintro ⟨quote, _⟩
              cases mark.symm.trans (Option.some.inj quote)
          case isFalse region =>
              rw [if_neg region] at agree
              split
              case isTrue string =>
                  obtain rfl := of_decide_eq_true (Bool.and_eq_true_iff.mp string).1
                  rw [if_pos string, LiteralScan.examined_outcome] at agree
                  obtain ⟨_, quote, later⟩ := scanString_of_agree agree
                  obtain ⟨rfl, _⟩ := List.cons.inj quote
                  rw [outcome_eq_iff, outcome_eq_decline_iff, LiteralScan.examined_outcome]
                  exact later.trans (not_congr (and_iff_right rfl).symm)
              case isFalse string =>
                  rw [if_neg string] at agree
                  split
                  case isTrue date =>
                      rw [if_pos date, LiteralScan.examined_outcome] at agree
                      have mark := of_decide_eq_true (Bool.and_eq_true_iff.mp date).1
                      refine iff_of_true (outcome_eq_iff.mpr
                        (scanDate_of_agree (congrArg some mark) agree)) ?_
                      rintro ⟨quote, _⟩
                      cases mark.symm.trans (Option.some.inj quote)
                  case isFalse date =>
                      rw [if_neg date] at agree
                      refine iff_of_true rfl ?_
                      rintro ⟨quote, _, fork⟩
                      have slash := (forkAtSlash_one.mp fork).1
                      cases quote.symm.trans slash

/-- The outcome of the scanner at a place is that on every text with the bytes that it examined
there, unless it gave up on a string at a single slash and the other text goes on with a comment
there. -/
theorem scan_examined_iff (here : dropBytes? offset text = some rest)
    (there : dropBytes? offset other = some rest')
    (agree : AgreeOn (scanner.scanAt text offset valid state).examined rest rest') :
    scanner.scanAt other offset valid state = scanner.scanAt text offset valid state ↔
      ¬ (rest.head? = some '"' ∧
        scanner.scanAt text offset valid state =
          .decline (scanner.scanAt text offset valid state).examined ∧
        ForkAtSlash (scanner.scanAt text offset valid state).examined rest rest') := by
  have scans : scanner.scanAt text offset valid state = scan rest valid state := by
    rw [Scanner.scanAt, here]
    rfl
  have scans' : scanner.scanAt other offset valid state = scan rest' valid state := by
    rw [Scanner.scanAt, there]
    rfl
  rw [scans] at agree ⊢
  rw [scans']
  exact scan_of_agree agree

/-- A string that is given up at a slash goes on where there are two. -/
theorem scan_examined_at_slash :
    let text := "\"a\n/x".toList
    let other := "\"a\n//\n|\" ".toList
    scanner.scanAt text 0 (.all 4) .empty = .decline 4 ∧ AgreeOn 4 text other ∧
      scanner.scanAt other 0 (.all 4) .empty ≠ .decline 4 := by
  intro text other
  have declined : scanner.scanAt text 0 (.all 4) .empty = .decline 4 := by decide
  have agree : AgreeOn 4 text other := ⟨by decide, by decide, by decide⟩
  have here : dropBytes? 0 text = some text := by decide
  have there : dropBytes? 0 other = some other := by decide
  have examined : AgreeOn (scanner.scanAt text 0 (.all 4) .empty).examined text other := by
    rw [declined]
    exact agree
  have either := scan_examined_iff here there examined
  rw [declined] at either
  refine ⟨declined, agree, fun same => either.mp same ⟨rfl, rfl, ?_⟩⟩
  exact ⟨"\"a\n".toList, ['x'], "\n|\" ".toList, rfl, rfl, rfl⟩

end scanner

end OneScript

end Lalr
