import Lalr.Proofs.OneScript.Replacement

set_option autoImplicit false

/-!
Where tokens end. Of the text behind a token its end depends on the first character only; and it
does not matter either which comment, directive or blank space begins there, unless the token is a
slash.
-/

namespace Lalr

open Lalr.Text

namespace OneScript

/-! ## What stands behind a token -/

/-- A text that starts with blank space, a comment or a directive, or is empty. -/
def IdleStart (text : List Char) : Prop :=
  BlankStart text ∨ ['#'] <+: text ∨ ['/', '/'] <+: text

/-- No word, no number, no string and no marker goes on with a text if it does not go on with
another one. -/
structure Abuts (rest other : List Char) : Prop where
  part : other.head?.any wordPart.contains = true → rest.head?.any wordPart.contains = true
  digit : other.head?.any Property.asciiDigit.contains = true →
    rest.head?.any Property.asciiDigit.contains = true
  goesOn : other.head?.any continuesWord = true → rest.head?.any continuesWord = true
  quote : '"' ∈ other.head? → '"' ∈ rest.head?

/-- A token that the lexer finds in front of a text does not go on with another one. -/
structure Borders (forms : List (TokenForm × SymbolId)) (content rest other : List Char) : Prop
    extends Abuts rest other where
  sign : ∀ sign id, (.literal sign, id) ∈ forms → sign <+: content ++ other →
    sign <+: content ++ rest
  point : content.head?.any Property.asciiDigit.contains = true →
    '.' ∉ rest.head? ∧ '.' ∉ other.head?
  mark : ∀ mark id, (.line mark, id) ∈ forms → mark <+: content ++ other →
    mark <+: content ++ rest
  line : ∀ mark id, (.line mark, id) ∈ forms → mark <+: content →
    other.head?.any lineRest.contains = true → rest.head?.any lineRest.contains = true

theorem IdleStart.head_cases {text : List Char} {c : Char} (idle : IdleStart text)
    (first : text.head? = some c) : isBlank c = true ∨ c = '#' ∨ c = '/' := by
  rcases idle with blank | ⟨rest, rfl⟩ | ⟨rest, rfl⟩
  · exact .inl (blank c first)
  · exact .inr (.inl (Option.some.inj first).symm)
  · exact .inr (.inr (Option.some.inj first).symm)

theorem signs_tables :
    (['#', '/'].all (fun c => !wordPart.contains c && !Property.asciiDigit.contains c &&
        !continuesWord c && c != '"' && c != '.') &&
      signs.all (fun c => !Property.asciiDigit.contains c) &&
      signTexts.all fun sign => sign.toList.length ≤ 2 &&
        (sign.toList.length != 2 || sign.toList.getLast? != some '/')) = true := by
  decide +kernel

theorem point_alone : ∀ sign ∈ signTexts, sign.toList.head? = some '.' → sign.toList = ['.'] := by
  decide +kernel

/-- What an idle text starts with belongs to no word and to no number. -/
theorem IdleStart.head?_any {text : List Char} (idle : IdleStart text) :
    text.head?.any wordPart.contains = false ∧
      text.head?.any Property.asciiDigit.contains = false ∧
      text.head?.any continuesWord = false ∧ '"' ∉ text.head? ∧ '.' ∉ text.head? := by
  cases text with
  | nil => simp
  | cons c text =>
      have kinds : wordPart.contains c = false ∧ Property.asciiDigit.contains c = false ∧
          continuesWord c = false ∧ c ≠ '"' ∧ c ≠ '.' := by
        rcases idle.head_cases (List.head?_cons ..) with blank | known
        · have apart := not_mem_of_blank blank
          refine ⟨not_wordPart_of_blank blank, not_digit_of_blank blank,
            not_continuesWord_of_blank blank, ?_, ?_⟩
          · rintro rfl
            exact apart (by decide)
          · rintro rfl
            exact apart (by decide)
        · have tables := signs_tables
          simp only [Bool.and_eq_true] at tables
          have here := List.all_eq_true.mp tables.1.1 c (by simpa using known)
          simpa [and_assoc] using here
      simpa [and_assoc, Option.mem_def] using kinds

theorem IdleStart.abuts {rest other : List Char} (idle : IdleStart other) : Abuts rest other := by
  obtain ⟨part, digit, goesOn, quote, _⟩ := idle.head?_any
  exact ⟨by simp [part], by simp [digit], by simp [goesOn], fun first => absurd first quote⟩

theorem abuts_cons (c : Char) (rest other : List Char) : Abuts (c :: rest) (c :: other) :=
  ⟨id, id, id, id⟩

section signs

variable {lexer : Lexer} {forms : List (TokenForm × SymbolId)} {content rest other : List Char}

/-- No sign is longer than two characters, and no longer one ends with a slash. -/
theorem Spells.sign_length_le (spells : Spells lexer forms) {sign : List Char} {id : SymbolId}
    (listed : (.literal sign, id) ∈ forms) :
    sign.length ≤ 2 ∧ (sign.length = 2 → sign.getLast? ≠ some '/') := by
  have tables := signs_tables
  simp only [Bool.and_eq_true] at tables
  have here := List.all_eq_true.mp tables.2 _ (spells.sign sign id listed)
  rw [String.toList_ofList] at here
  simp only [Bool.and_eq_true, decide_eq_true_eq, Bool.or_eq_true, bne_iff_ne, ne_eq] at here
  exact ⟨here.1, fun two => here.2.resolve_left (fun other => other two)⟩

/-- A sign that goes on behind a token goes on with one character. -/
theorem Spells.sign_cases (spells : Spells lexer forms) {sign : List Char} {id : SymbolId}
    (listed : (.literal sign, id) ∈ forms) (filled : content ≠ [])
    (found : sign <+: content ++ other) :
    sign <+: content ∨ ∃ c, sign = content ++ [c] ∧ other.head? = some c := by
  rcases List.prefix_or_prefix_of_prefix found (List.prefix_append content other) with
    inside | ⟨more, rfl⟩
  · exact .inl inside
  · have starts := (List.prefix_append_right_inj content).mp found
    have short := (spells.sign_length_le listed).1
    have positive := List.length_pos_of_ne_nil filled
    rw [List.length_append] at short
    cases more with
    | nil => exact .inl (by simp)
    | cons c more =>
        obtain rfl : more = [] := by
          rw [List.length_cons] at short
          exact List.eq_nil_of_length_eq_zero (by omega)
        obtain ⟨tail, rfl⟩ := starts
        exact .inr ⟨c, rfl, rfl⟩

/-! ## Borders -/

/-- Behind a token another text may start with the same character, unless a number could go on
with a point. -/
theorem Spells.borders_cons (spells : Spells lexer forms) (filled : content ≠ []) {c : Char}
    (point : content.head?.any Property.asciiDigit.contains = true → c ≠ '.')
    (rest other : List Char) : Borders forms content (c :: rest) (c :: other) := by
  have prefix_of (text : List Char) : content ++ [c] <+: content ++ c :: text :=
    (List.prefix_append_right_inj content).mpr (List.prefix_append [c] text)
  refine ⟨abuts_cons c rest other, ?_, ?_, ?_, fun _ _ _ _ => id⟩
  · intro sign id listed found
    rcases spells.sign_cases listed filled found with inside | ⟨d, rfl, first⟩
    · exact inside.trans (List.prefix_append _ _)
    · obtain rfl := Option.some.inj first
      exact prefix_of rest
  · intro digit
    simpa [Option.mem_def] using point digit
  · intro mark id listed found
    have short : mark <+: content ++ [c] := by
      refine List.prefix_of_prefix_length_le found (prefix_of other) ?_
      have positive := List.length_pos_of_ne_nil filled
      rw [List.length_append, List.length_singleton]
      rcases spells.mark mark id listed with rfl | rfl
      · exact Nat.succ_le_succ positive
      · exact Nat.le_add_left 1 _
    exact short.trans (prefix_of rest)

/-- Idle texts may replace each other behind a token that is no slash and starts with no mark. -/
theorem Spells.borders_of_idle (spells : Spells lexer forms) (filled : content ≠ [])
    (idle : IdleStart rest) (idle' : IdleStart other) (slash : content ≠ ['/'])
    (plain : ∀ mark id, (.line mark, id) ∈ forms → ¬ mark <+: content) :
    Borders forms content rest other := by
  refine ⟨idle'.abuts, ?_, fun _ => ⟨idle.head?_any.2.2.2.2, idle'.head?_any.2.2.2.2⟩, ?_,
    fun mark id listed marked => absurd marked (plain mark id listed)⟩
  · intro sign id listed found
    rcases spells.sign_cases listed filled found with inside | ⟨c, rfl, first⟩
    · exact inside.trans (List.prefix_append _ _)
    · have known : c ∈ signs := (spells.isKnown listed).2 (by simp)
      have length := spells.sign_length_le listed
      have positive := List.length_pos_of_ne_nil filled
      rw [List.length_append, List.length_singleton] at length
      rcases idle'.head_cases first with blank | rfl | rfl
      · exact absurd (List.mem_append_left _ known) (not_mem_of_blank blank)
      · exact absurd known (by decide)
      · exact absurd List.getLast?_concat (length.2 (by omega))
  · intro mark id listed found
    have inside := plain mark id listed
    refine absurd ?_ inside
    rcases List.prefix_or_prefix_of_prefix found (List.prefix_append content other) with
      here | ⟨more, whole⟩
    · exact here
    · rcases spells.mark mark id listed with rfl | rfl
      · rcases List.append_eq_cons_iff.mp whole with ⟨rfl, _⟩ | ⟨first, rfl, second⟩
        · exact absurd rfl filled
        · rcases List.append_eq_cons_iff.mp second.symm with ⟨rfl, _⟩ | ⟨last, rfl, _⟩
          · exact absurd rfl slash
          · exact List.prefix_append ['/', '/'] last
      · rcases List.append_eq_cons_iff.mp whole with ⟨rfl, _⟩ | ⟨first, rfl, _⟩
        · exact absurd rfl filled
        · exact List.prefix_append ['#'] first

/-! ## Tokens of the lexer -/

variable {symbol : SymbolId}

theorem Spells.exists_form (spells : Spells lexer forms)
    (found : lexer.matchToken? (content ++ rest) = some ⟨symbol, utf8Length content, rest⟩) :
    ∃ form, (form, symbol) ∈ forms ∧ form.content? (content ++ rest) = some content := by
  rw [spells.matchToken?] at found
  obtain ⟨⟨form, id⟩, listed, text, here, same⟩ := exists_form_of_found found
  obtain ⟨rfl, length, _⟩ := TokenMatch.mk.inj same
  have whole : content <+: content ++ rest := List.prefix_append _ _
  obtain rfl : content = text := eq_of_prefix_of_utf8Length_le
    (prefix_of_utf8Length_le whole (prefix_of_content? here) (Nat.le_of_eq length))
    (Nat.le_of_eq length.symm)
  exact ⟨form, listed, here⟩

theorem not_wordPart_of_mark {c : Char} (sign : c = '#' ∨ c = '/') :
    wordPart.contains c = false ∧ Property.asciiDigit.contains c = false := by
  have tables := signs_tables
  simp only [Bool.and_eq_true] at tables
  have here := List.all_eq_true.mp tables.1.1 c (by simpa using sign)
  simp only [Bool.and_eq_true, Bool.not_eq_true'] at here
  exact ⟨here.1.1.1.1, here.1.1.1.2⟩

/-- A token that starts with a mark is an extra. -/
theorem Spells.isExtra_of_mark (spells : Spells lexer forms)
    (found : lexer.matchToken? (content ++ rest) = some ⟨symbol, utf8Length content, rest⟩)
    {mark : List Char} {id : SymbolId} (listed : (.line mark, id) ∈ forms)
    (marked : mark <+: content) : lexer.isExtra symbol = true := by
  obtain ⟨form, known, here⟩ := spells.exists_form found
  have first : ∃ c, content.head? = some c ∧ (c = '#' ∨ c = '/') := by
    obtain ⟨more, rfl⟩ := marked
    rcases spells.mark mark id listed with rfl | rfl
    · exact ⟨'/', rfl, .inr rfl⟩
    · exact ⟨'#', rfl, .inl rfl⟩
  obtain ⟨c, first, sign⟩ := first
  obtain ⟨tail, rfl⟩ := List.head?_eq_some_iff.mp first
  obtain ⟨notPart, notDigit⟩ := not_wordPart_of_mark sign
  cases form with
  | line mark => exact spells.extra mark symbol known
  | literal sign_ =>
      simp only [TokenForm.content?, Option.ite_none_right_eq_some, Option.some.injEq] at here
      obtain ⟨_, rfl⟩ := here
      have length := spells.sign_length_le known
      rcases spells.mark mark id listed with rfl | rfl
      · obtain ⟨more, whole⟩ := marked
        rw [← whole] at length
        obtain rfl : more = [] := List.eq_nil_of_length_eq_zero (by simpa using length.1)
        exact absurd rfl (length.2 rfl)
      · obtain ⟨more, whole⟩ := marked
        obtain ⟨rfl, rfl⟩ := List.cons.inj whole
        exact absurd ((spells.isKnown known).2 List.mem_cons_self) (by decide)
  | identifier =>
      simp only [TokenForm.content?, Option.ite_none_right_eq_some] at here
      have starts : wordStart.contains c = true := here.1
      rw [wordPart_of_wordStart starts] at notPart
      cases notPart
  | number =>
      have none_ : TokenForm.number? (c :: tail ++ rest) = none := by
        simp [TokenForm.number?, notDigit]
      rw [TokenForm.content?, none_] at here
      cases here

/-- A token that starts with a digit is a number. -/
theorem Spells.number_of_digit (spells : Spells lexer forms)
    (found : lexer.matchToken? (content ++ rest) = some ⟨symbol, utf8Length content, rest⟩)
    (digit : content.head?.any Property.asciiDigit.contains = true) :
    (.number, symbol) ∈ forms ∧ TokenForm.number? (content ++ rest) = some content := by
  obtain ⟨form, known, here⟩ := spells.exists_form found
  cases content with
  | nil => cases digit
  | cons c content =>
  have digit : Property.asciiDigit.contains c = true := digit
  cases form with
  | number => exact ⟨known, here⟩
  | literal sign =>
      simp only [TokenForm.content?, Option.ite_none_right_eq_some, Option.some.injEq] at here
      obtain ⟨_, rfl⟩ := here
      have listed := (spells.isKnown known).2 List.mem_cons_self
      have tables := signs_tables
      simp only [Bool.and_eq_true] at tables
      have apart := List.all_eq_true.mp tables.1.2 c listed
      rw [digit] at apart
      cases apart
  | identifier =>
      simp only [TokenForm.content?, Option.ite_none_right_eq_some] at here
      rw [not_digit_of_wordStart here.1] at digit
      cases digit
  | line mark =>
      simp only [TokenForm.content?, Option.ite_none_right_eq_some] at here
      have sign : c = '#' ∨ c = '/' := by
        obtain ⟨⟨more, whole⟩, _⟩ := here
        rcases spells.mark mark symbol known with rfl | rfl
        · exact .inr (List.cons.inj whole).1.symm
        · exact .inl (List.cons.inj whole).1.symm
      rw [(not_wordPart_of_mark sign).2] at digit
      cases digit

/-- Digits that end in front of a text end in front of another one too. -/
theorem Abuts.digits_stop (abuts : Abuts rest other) {digits text : List Char}
    (taken : text.takeWhile Property.asciiDigit.contains = digits)
    (left : text.dropWhile Property.asciiDigit.contains = rest) :
    (digits ++ other).takeWhile Property.asciiDigit.contains = digits ∧
      (digits ++ other).dropWhile Property.asciiDigit.contains = other := by
  subst taken
  have closed : rest.head?.any Property.asciiDigit.contains = false := by
    rw [← left]
    cases shape : text.dropWhile Property.asciiDigit.contains with
    | nil => rfl
    | cons c behind =>
        have first := List.head?_dropWhile_not Property.asciiDigit.contains text
        simpa [shape] using first
  have closed' : other.head?.any Property.asciiDigit.contains = false := by
    cases digit : other.head?.any Property.asciiDigit.contains with
    | false => rfl
    | true => exact closed ▸ (abuts.digit digit).symm
  rw [takeWhile_append_of_stops closed', dropWhile_append_of_stops closed']
  have inside : ∀ c ∈ text.takeWhile Property.asciiDigit.contains,
      Property.asciiDigit.contains c = true := fun _ => List.mem_takeWhile_imp
  rw [List.takeWhile_eq_self_iff.mpr inside, List.dropWhile_eq_nil_iff.mpr inside]
  exact ⟨rfl, rfl⟩

theorem number?_border {forms : List (TokenForm × SymbolId)}
    (found : TokenForm.number? (content ++ rest) = some content) (filled : content ≠ [])
    (borders : Borders forms content rest other) :
    TokenForm.number? (content ++ other) = some content := by
  simp only [TokenForm.number?, Option.ite_none_left_eq_some] at found
  obtain ⟨more, found⟩ := found
  generalize taken : (content ++ rest).takeWhile Property.asciiDigit.contains = whole at found more
  have parted := List.takeWhile_append_dropWhile (p := Property.asciiDigit.contains)
    (l := content ++ rest)
  rw [taken] at parted
  have digits : ∀ c ∈ whole, Property.asciiDigit.contains c = true :=
    fun _ member => List.mem_takeWhile_imp (taken ▸ member)
  have first : content.head?.any Property.asciiDigit.contains = true := by
    obtain ⟨d, tail, rfl⟩ := List.exists_cons_of_ne_nil more
    obtain ⟨c, content, rfl⟩ := List.exists_cons_of_ne_nil filled
    obtain ⟨rfl, _⟩ := List.cons.inj parted
    simpa using digits d List.mem_cons_self
  obtain ⟨noPoint, noPoint'⟩ := borders.point first
  split at found
  case h_1 tail drop =>
      rw [drop] at parted
      split at found
      case isTrue none_ =>
          obtain rfl := Option.some.inj found
          obtain rfl := List.append_cancel_left parted
          exact absurd (List.head?_cons ..) noPoint
      case isFalse some_ =>
          generalize fractioned : tail.takeWhile Property.asciiDigit.contains = fraction at found some_
          obtain rfl := Option.some.inj found
          have behind := List.takeWhile_append_dropWhile (p := Property.asciiDigit.contains) (l := tail)
          rw [fractioned] at behind
          rw [List.append_assoc, List.cons_append] at parted
          have rest_ := (List.cons.inj (List.append_cancel_left parted)).2
          rw [← behind] at rest_
          obtain ⟨take, drop'⟩ :=
            borders.digits_stop fractioned (List.append_cancel_left rest_)
          rw [List.append_assoc, List.cons_append, TokenForm.number?, takeWhile_closed digits (by decide),
            dropWhile_closed digits (by decide)]
          simp only [if_neg more, take, if_neg some_]
  case h_2 other_ =>
      obtain rfl := Option.some.inj found
      obtain ⟨take, drop⟩ := borders.digits_stop taken (List.append_cancel_left parted)
      rw [TokenForm.number?, take, drop]
      simp only [if_neg more]
      split
      case h_1 => exact absurd (List.head?_cons ..) noPoint'
      case h_2 => rfl

section found

variable (spells : Spells lexer forms)
  (found : lexer.matchToken? (content ++ rest) = some ⟨symbol, utf8Length content, rest⟩)
  (filled : content ≠ []) (borders : Borders forms content rest other)

include spells found filled borders

/-- Behind a border the lexer meets the same contents. -/
theorem Borders.content?_eq {entry : TokenForm × SymbolId} (listed : entry ∈ forms) :
    entry.1.content? (content ++ other) = entry.1.content? (content ++ rest) := by
  have inside : ∀ text, entry.1.content? (content ++ rest) = some text → text <+: content := by
    intro text here
    have chosen := found
    rw [spells.matchToken?] at chosen
    obtain ⟨longest, chosen', le⟩ := exists_longest listed here
    obtain rfl := Option.some.inj (chosen.symm.trans chosen')
    exact prefix_of_utf8Length_le (prefix_of_content? here) (List.prefix_append _ _) le
  obtain ⟨form, id⟩ := entry
  obtain ⟨c, tail, rfl⟩ := List.exists_cons_of_ne_nil filled
  cases form with
  | literal sign =>
      simp only [TokenForm.content?, Option.ite_none_right_eq_some, Option.some.injEq] at inside
      have same : sign <+: c :: tail ++ other ↔ sign <+: c :: tail ++ rest :=
        ⟨borders.sign sign id listed, fun here =>
          (inside sign ⟨here, rfl⟩).trans (List.prefix_append _ _)⟩
      simp only [TokenForm.content?, same]
  | identifier =>
      simp only [TokenForm.content?, Option.ite_none_right_eq_some, Option.some.injEq] at inside
      by_cases starts : wordStart.contains c = true
      · simp only [TokenForm.content?, List.cons_append, List.head?_cons, Option.any_some,
          starts, if_true]
        refine congrArg some (takeWhile_replace (inside _ ⟨starts, rfl⟩) fun _ stopped => ?_)
        cases part : other.head?.any wordPart.contains with
        | false => rfl
        | true => exact stopped ▸ (borders.part part).symm
      · simp [TokenForm.content?, starts]
  | number =>
      by_cases digit : Property.asciiDigit.contains c = true
      · have here := (spells.number_of_digit found digit).2
        exact (number?_border here filled borders).trans here.symm
      · simp [TokenForm.content?, TokenForm.number?, digit]
  | line mark =>
      simp only [TokenForm.content?, Option.ite_none_right_eq_some, Option.some.injEq] at inside
      have marked : mark <+: c :: tail ++ rest → mark <+: c :: tail := by
        intro here
        have run := inside _ ⟨here, rfl⟩
        obtain ⟨more, whole⟩ := here
        rw [← whole, List.takeWhile_append_of_pos (lineRest_of_mark (spells.isKnown listed))] at run
        exact (List.prefix_append _ _).trans run
      have same : mark <+: c :: tail ++ other ↔ mark <+: c :: tail ++ rest :=
        ⟨borders.mark mark id listed, fun here => (marked here).trans (List.prefix_append _ _)⟩
      simp only [TokenForm.content?, same]
      split
      case isTrue here =>
          refine congrArg some (takeWhile_replace (inside _ ⟨here, rfl⟩) fun _ stopped => ?_)
          cases goes : other.head?.any lineRest.contains with
          | false => rfl
          | true => exact stopped ▸ (borders.line mark id listed (marked here) goes).symm
      case isFalse => rfl

theorem Borders.matchToken?_eq : lexer.matchToken? (content ++ other) =
    some ⟨symbol, utf8Length content, other⟩ := by
  have contents : ∀ entry ∈ forms, entry.1.content? (content ++ other) =
      (entry.1.content? (content ++ rest)).map id := fun entry listed => by
    rw [borders.content?_eq spells found filled listed, Option.map_id, id]
  have both := findForm?_change contents fun _ _ _ _ _ _ _ _ => Iff.rfl
  rw [← spells.matchToken?, found] at both
  obtain ⟨entry, listed, text, here, same, chosen⟩ := both.exists
  obtain ⟨rfl, length, _⟩ := TokenMatch.mk.inj same
  have whole : content <+: content ++ rest := List.prefix_append _ _
  obtain rfl : content = text := eq_of_prefix_of_utf8Length_le
    (prefix_of_utf8Length_le whole (prefix_of_content? here) (Nat.le_of_eq length))
    (Nat.le_of_eq length.symm)
  rw [spells.matchToken?, chosen]
  simp

/-- A token of the lexer is found behind its border as before. -/
theorem Borders.matched {language : Language} (own : language.lexer = lexer)
    (scans : language.scanner = OneScript.scanner) {mode : ValidExternals} {state : ScannerState}
    (declines : language.Declines mode state (content ++ rest)) :
    language.Finds mode state content other symbol state := by
  have again := borders.matchToken?_eq spells found filled
  refine .matched (by simp [filled]) (declines.congr ?_) (own ▸ again)
  obtain ⟨c, tail, rfl⟩ := List.exists_cons_of_ne_nil filled
  rw [scans]
  apply token?_scan_congr
  · rintro rfl
    obtain ⟨id, listed⟩ := spells.directive
    have same := borders.content?_eq spells found filled listed
    simp only [TokenForm.content?, List.cons_append, List.cons_prefix_cons, List.nil_prefix,
      and_self, if_true, Option.some.injEq] at same
    exact (markerAt?_line _).trans ((congrArg markerAt? same).trans (markerAt?_line _).symm)
  · rintro rfl
    exact absurd (found.symm.trans (spells.matchToken?_quote (.inl rfl) _)) (by simp)
  · rintro rfl
    exact absurd (found.symm.trans (spells.matchToken?_quote (.inr rfl) _)) (by simp)

end found

end signs

/-! ## Tokens of the scanner -/

/-- A string ends where no other quote follows. -/
theorem not_mem_of_scanString {content rest : List Char}
    (found : (scanString ('"' :: (content ++ rest))).length = some (utf8Length ('"' :: content))) :
    '"' ∉ rest.head? := by
  have starts (rest : List Char) : scanString ('"' :: rest) = scanStringFrom .inside 1 rest := rfl
  rw [starts] at found
  obtain ⟨inner, behind, split, closes, further⟩ := exists_closesFrom found
  have read := length_scanStringFrom closes further 1
  rw [← split, found, utf8Length_cons] at read
  have single : '"'.utf8Size = 1 := rfl
  have length : utf8Length content = utf8Length inner := by
    have same := Option.some.inj read
    omega
  obtain rfl := eq_of_prefix_of_utf8Length_le
    (prefix_of_utf8Length_le (split ▸ List.prefix_append inner behind) (List.prefix_append _ _)
      (Nat.le_of_eq length.symm)) (Nat.le_of_eq length)
  rwa [List.append_cancel_left split]

/-- A token of the scanner is found behind its border as before. -/
theorem Abuts.scanned {language : Language} (scans : language.scanner = OneScript.scanner)
    {content rest other : List Char} (abuts : Abuts rest other) (filled : content ≠ [])
    {mode : ValidExternals} (asked : mode.isEmpty = false) {state after : ScannerState}
    {index examined : Nat} (found : language.scanner.scan (content ++ rest) mode state =
      .token index (utf8Length content) after examined) {symbol : SymbolId}
    (declared : language.lexer.externals[index]? = some symbol) :
    language.Finds mode state content other symbol after := by
  obtain ⟨c, content, rfl⟩ := List.exists_cons_of_ne_nil filled
  rw [scans] at found
  have found : scan (c :: content ++ rest) mode state =
    .token index (utf8Length (c :: content)) after examined := found
  have same : (scan (c :: content ++ other) mode state).token? =
      (scan (c :: content ++ rest) mode state).token? := by
    apply token?_scan_congr
    · rintro rfl
      rcases scan_cases found with ⟨_, marker, here⟩ | ⟨wrong, _⟩ | ⟨wrong, _⟩
      · exact (markerAt?_replace here (Nat.le_refl _) abuts.goesOn).trans here.symm
      · cases wrong
      · cases wrong
    · rintro rfl
      rcases scan_cases found with ⟨wrong, _⟩ | ⟨_, _, here⟩ | ⟨wrong, _⟩
      · cases wrong
      · exact (length_scanString_replace (fun quote => not_mem_of_scanString here (abuts.quote quote))
          here (Nat.le_refl _)).trans here.symm
      · cases wrong
    · rintro rfl
      rcases scan_cases found with ⟨wrong, _⟩ | ⟨wrong, _⟩ | ⟨_, _, here⟩
      · cases wrong
      · cases wrong
      · exact (length_scanDate_replace here (Nat.le_refl _)).trans here.symm
  rw [found] at same
  cases there : scan (c :: content ++ other) mode state with
  | decline =>
      rw [there] at same
      cases same
  | token index' length' after' examined' =>
      rw [there] at same
      obtain ⟨rfl, rfl, rfl⟩ : index' = index ∧ length' = utf8Length (c :: content) ∧
          after' = after := by simpa [ScanOutcome.token?] using same
      have again : language.scanner.scan (c :: content ++ other) mode state =
          .token index' (utf8Length (c :: content)) after' examined' := by
        rw [scans]
        exact there
      exact .scanned filled asked again declared

/-! ## Tokens of a language -/

section languages

variable {language : Language} {forms : List (TokenForm × SymbolId)}
  (spells : Spells language.lexer forms) (scans : language.scanner = OneScript.scanner)
  {mode : ValidExternals} {state after : ScannerState} {content rest : List Char}
  {symbol : SymbolId}

include spells scans

/-- A token is found in front of every text that starts with the same character; for a number
this character may be no point. -/
theorem finds_cons {c : Char} (finds : language.Finds mode state content (c :: rest) symbol after)
    (filled : content ≠ []) (real : symbol ≠ errorSymbol)
    (point : (.number, symbol) ∈ forms → content.head?.any Property.asciiDigit.contains = true →
      c ≠ '.') (other : List Char) :
    language.Finds mode state content (c :: other) symbol after := by
  cases finds with
  | scanned _ asked found declared =>
      exact (abuts_cons c rest other).scanned scans filled asked found declared
  | matched _ declines found =>
      have borders := spells.borders_cons filled (fun digit =>
        point (spells.number_of_digit found digit).1 digit) rest other
      exact borders.matched spells found filled rfl scans declines
  | unmatched => exact absurd rfl real

/-- A token that is no extra and no slash is found in front of every idle text. -/
theorem finds_of_idle (finds : language.Finds mode state content rest symbol after)
    (filled : content ≠ []) (real : symbol ≠ errorSymbol)
    (ordinary : language.lexer.isExtra symbol = false) (slash : (.literal ['/'], symbol) ∉ forms)
    (idle : IdleStart rest) {other : List Char} (idle' : IdleStart other) :
    language.Finds mode state content other symbol after := by
  cases finds with
  | atEnd => exact absurd rfl filled
  | scanned _ asked found declared => exact idle'.abuts.scanned scans filled asked found declared
  | unmatched => exact absurd rfl real
  | matched _ declines found =>
      have notSlash : content ≠ ['/'] := by
        rintro rfl
        obtain ⟨form, known, here⟩ := spells.exists_form found
        obtain ⟨notPart, notDigit⟩ := not_wordPart_of_mark (c := '/') (.inr rfl)
        cases form with
        | literal sign =>
            simp only [TokenForm.content?, Option.ite_none_right_eq_some,
              Option.some.injEq] at here
            exact slash (here.2 ▸ known)
        | identifier =>
            simp only [TokenForm.content?, Option.ite_none_right_eq_some] at here
            have starts : wordStart.contains '/' = true := here.1
            rw [wordPart_of_wordStart starts] at notPart
            cases notPart
        | number =>
            have none_ : TokenForm.number? (['/'] ++ rest) = none := by
              simp [TokenForm.number?, notDigit]
            rw [TokenForm.content?, none_] at here
            cases here
        | line mark =>
            rw [spells.extra mark symbol known] at ordinary
            cases ordinary
      have borders := spells.borders_of_idle filled idle idle' notSlash
        fun mark id listed marked => by
          rw [spells.isExtra_of_mark found listed marked] at ordinary
          cases ordinary
      exact borders.matched spells found filled rfl scans declines

end languages

end OneScript

end Lalr
