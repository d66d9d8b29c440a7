import Lalr.Proofs.OneScript.Replacement

set_option autoImplicit false

/-!
Blank space between tokens. More of it changes no token but the comments and directives in front of
it, which may go on to the end of their line.
-/

namespace Lalr

open Lalr.Text

namespace OneScript

/-! ## Lines that go on -/

/-- No sign starts like a comment or a directive. -/
theorem not_prefix_signs : ∀ sign ∈ signTexts,
    ¬ ['/', '/'] <+: sign.toList ∧ ¬ ['#'] <+: sign.toList := by
  decide

theorem blankStart_of_blank {gap : List Char} (blank : ∀ c ∈ gap, isBlank c = true) :
    BlankStart gap :=
  fun c first => blank c (List.mem_of_head? first)

theorem BlankStart.plainStart {text : List Char} (blank : BlankStart text) : PlainStart text :=
  fun c first => ⟨not_mem_of_blank (blank c first), not_digit_of_blank (blank c first)⟩

theorem prefix_append_iff {sign line text : List Char}
    (made : sign ⊆ signs ++ ['#', '"', '\'', '|']) (plain : PlainStart text) :
    sign <+: line ++ text ↔ sign <+: line :=
  ⟨prefix_of_prefix_append made fun c first => (plain c first).1,
    fun found => found.trans (List.prefix_append _ _)⟩

section lines

variable {lexer : Lexer} {forms : List (TokenForm × SymbolId)} {mark line gap behind other content
  rest : List Char} {id symbol : SymbolId}

/-- A comment or a directive that reaches up to some blank space, with more blanks before the end of
its line. -/
structure LineGrows (forms : List (TokenForm × SymbolId)) (mark : List Char) (id : SymbolId)
    (line gap behind other : List Char) : Prop where
  listed : (.line mark, id) ∈ forms
  marked : mark <+: line
  line : ∀ c ∈ line, lineRest.contains c = true
  gap : ∀ c ∈ gap, isBlank c = true ∧ lineRest.contains c = true
  stops : behind.head?.any lineRest.contains = false
  stops' : other.head?.any lineRest.contains = false
  blank : BlankStart behind
  blank' : BlankStart other

namespace LineGrows

variable (grows : LineGrows forms mark id line gap behind other)
include grows

theorem takeWhile : (line ++ behind).takeWhile lineRest.contains = line := by
  rw [takeWhile_append_of_stops grows.stops, List.takeWhile_eq_self_iff.mpr grows.line]

theorem takeWhile' : (line ++ (gap ++ other)).takeWhile lineRest.contains = line ++ gap := by
  have whole : ∀ c ∈ line ++ gap, lineRest.contains c = true := fun c member =>
    (List.mem_append.mp member).elim (grows.line c) fun later => (grows.gap c later).2
  rw [← List.append_assoc, takeWhile_append_of_stops grows.stops',
    List.takeWhile_eq_self_iff.mpr whole]

theorem blankStart : BlankStart (gap ++ other) := by
  cases gap with
  | nil => exact grows.blank'
  | cons c gap =>
      intro d first
      obtain rfl := Option.some.inj first
      exact (grows.gap c List.mem_cons_self).1

/-- A token that starts like the line is the line itself, or a shorter sign. -/
theorem form_cases (spells : Spells lexer forms) {entry : TokenForm × SymbolId}
    (known : entry ∈ forms) :
    (∃ sign, entry.1 = .literal sign ∧ sign ≠ line) ∨
      (∀ text, entry.1.content? (line ++ text) = none) ∨ ∃ mark, entry.1 = .line mark := by
  obtain ⟨form, number⟩ := entry
  have isMark := spells.mark mark id grows.listed
  obtain ⟨others, start⟩ := grows.marked
  cases form with
  | literal sign =>
      refine .inl ⟨sign, rfl, ?_⟩
      rintro rfl
      have lines := not_prefix_signs _ (spells.sign sign number known)
      rw [String.toList_ofList] at lines
      rcases isMark with rfl | rfl
      · exact lines.1 grows.marked
      · exact lines.2 grows.marked
  | identifier =>
      refine .inr (.inl fun text => ?_)
      rcases isMark with rfl | rfl
      · rw [← start]
        rfl
      · rw [← start]
        rfl
  | number =>
      refine .inr (.inl fun text => ?_)
      rcases isMark with rfl | rfl
      · rw [← start]
        rfl
      · rw [← start]
        rfl
  | line mark => exact .inr (.inr ⟨mark, rfl⟩)

/-- Only the comment or the directive goes on. -/
theorem content?_eq (spells : Spells lexer forms) {entry : TokenForm × SymbolId}
    (known : entry ∈ forms) : entry.1.content? (line ++ (gap ++ other)) =
      (entry.1.content? (line ++ behind)).map
        fun content => if content = line then line ++ gap else content := by
  have plain := grows.blank.plainStart
  have plain' := grows.blankStart.plainStart
  have isKnown := spells.isKnown known
  rcases grows.form_cases spells known with ⟨sign, form, apart⟩ | none_found | ⟨mark, form⟩
  · rw [form] at isKnown ⊢
    have made : sign ⊆ signs ++ ['#', '"', '\'', '|'] :=
      fun c member => List.mem_append_left _ (isKnown.2 member)
    simp only [TokenForm.content?, prefix_append_iff made plain, prefix_append_iff made plain']
    split
    · rw [Option.map_some, if_neg apart]
    · rfl
  · rw [none_found, none_found]
    rfl
  · rw [form] at isKnown ⊢
    have made : mark ⊆ signs ++ ['#', '"', '\'', '|'] := by
      rcases isKnown with rfl | rfl
      · decide
      · decide
    simp only [TokenForm.content?, prefix_append_iff made plain, prefix_append_iff made plain',
      grows.takeWhile, grows.takeWhile']
    split
    · rw [Option.map_some, if_pos rfl]
    · rfl

/-- A token that is found there and does not go beyond the line is the line. -/
theorem matchToken?_eq (spells : Spells lexer forms)
    (found : lexer.matchToken? (line ++ behind) = some ⟨symbol, utf8Length content, rest⟩)
    (inside : content <+: line) : content = line ∧ lexer.isExtra symbol = true ∧
      lexer.matchToken? (line ++ (gap ++ other)) =
        some ⟨symbol, utf8Length (line ++ gap), other⟩ := by
  rw [spells.matchToken?] at found ⊢
  have short {entry : TokenForm × SymbolId} (listed : entry ∈ forms) {text : List Char}
      (here : entry.1.content? (line ++ behind) = some text) : text <+: content := by
    obtain ⟨longest, chosen, le⟩ := exists_longest listed here
    obtain rfl := Option.some.inj (found.symm.trans chosen)
    exact prefix_of_utf8Length_le (prefix_of_content? here)
      (inside.trans (List.prefix_append _ _)) le
  have here : (TokenForm.line mark).content? (line ++ behind) = some line := by
    rw [TokenForm.content?, if_pos (grows.marked.trans (List.prefix_append _ _)), grows.takeWhile]
  obtain rfl : content = line := inside.eq_of_length_le (short grows.listed here).length_le
  have both := findForm?_change (fun entry => grows.content?_eq spells) ?_
  · rw [found] at both
    obtain ⟨entry, listed, text, there, same, chosen⟩ := both.exists
    obtain ⟨rfl, length, _⟩ := TokenMatch.mk.inj same
    obtain rfl : text = content :=
      eq_of_prefix_of_utf8Length_le (short listed there) (Nat.le_of_eq length)
    rw [if_pos rfl] at chosen
    refine ⟨rfl, ?_, ?_⟩
    · rcases grows.form_cases spells listed with ⟨sign, form, apart⟩ | nothing | ⟨mark, form⟩
      · rw [form] at there
        simp only [TokenForm.content?, Option.ite_none_right_eq_some, Option.some.injEq] at there
        exact absurd there.2 apart
      · rw [nothing] at there
        cases there
      · exact spells.extra mark entry.2 (form ▸ listed)
    · rw [chosen, ← List.append_assoc, List.drop_left]
  · intro first firstListed second secondListed text text' left right
    have shorter {text : List Char} (starts : text <+: content) (apart : text ≠ content) :
        utf8Length text < utf8Length content := by
      by_contra long
      exact apart (eq_of_prefix_of_utf8Length_le starts (Nat.le_of_not_lt long))
    have le := shorter (short firstListed left)
    have le' := shorter (short secondListed right)
    by_cases same : text = content
    · rw [if_pos same, same]
      by_cases same' : text' = content
      · rw [if_pos same', same']
        simp
      · rw [if_neg same', utf8Length_append]
        have := le' same'
        exact iff_of_false (by omega) (by omega)
    · rw [if_neg same]
      by_cases same' : text' = content
      · rw [if_pos same', same', utf8Length_append]
        have := le same
        exact iff_of_true this (by omega)
      · rw [if_neg same']

theorem filled (spells : Spells lexer forms) : line ≠ [] := by
  obtain ⟨others, rfl⟩ := grows.marked
  rcases spells.mark mark id grows.listed with rfl | rfl
  · exact List.cons_ne_nil _ _
  · exact List.cons_ne_nil _ _

/-- The line is a marker of a region whatever blanks follow it, or it is none. -/
theorem markerAt?_eq (others : List Char) (start : line = '#' :: others) :
    markerAt? (line ++ (gap ++ other)) = markerAt? (line ++ behind) := by
  have blank : BlankStart gap := blankStart_of_blank fun c member => (grows.gap c member).1
  have blank' : BlankStart (gap.dropWhile isGap) := blankStart_of_blank fun c member =>
    (grows.gap c ((List.dropWhile_sublist _).subset member)).1
  have taken := grows.takeWhile
  have taken' := grows.takeWhile'
  rw [start] at taken taken' ⊢
  rw [List.cons_append, markerAt?_line, ← List.cons_append, taken',
    markerAt?_append (List.cons_ne_nil _ _) blank blank', List.cons_append, markerAt?_line (others ++ behind),
    ← List.cons_append, taken]

theorem finds {language : Language} (spells : Spells language.lexer forms)
    (scans : language.scanner = OneScript.scanner) {mode : ValidExternals} {state : ScannerState}
    (declines : language.Declines mode state (line ++ behind))
    (found : language.lexer.matchToken? (line ++ behind) =
      some ⟨symbol, utf8Length content, rest⟩)
    (inside : content <+: line) : content = line ∧ language.lexer.isExtra symbol = true ∧
      language.Finds mode state (line ++ gap) other symbol state := by
  obtain ⟨rfl, isExtra, found'⟩ := grows.matchToken?_eq spells found inside
  refine ⟨rfl, isExtra, ?_⟩
  obtain ⟨c, others, start⟩ := List.exists_cons_of_ne_nil (grows.filled spells)
  rw [← List.append_assoc] at found'
  refine .matched (by simp [start]) (declines.congr ?_) found'
  rw [scans, List.append_assoc]
  have same := grows.markerAt?_eq others
  rw [start] at found same ⊢
  apply token?_scan_congr
  · rintro rfl
    exact same rfl
  · rintro rfl
    exact absurd (found.symm.trans (spells.matchToken?_quote (.inl rfl) _)) (by simp)
  · rintro rfl
    exact absurd (found.symm.trans (spells.matchToken?_quote (.inr rfl) _)) (by simp)

end LineGrows

end lines

/-! ## Places -/

/-- Blank space with more blanks in it. -/
structure Respaced (exchange : Exchange) : Prop where
  filled : exchange.part ≠ []
  blank : ∀ c ∈ exchange.part, isBlank c = true
  blank' : ∀ c ∈ exchange.part', isBlank c = true
  kept : exchange.part ⊆ exchange.part'

/-- The same place in both texts; or else the place in front of the blank space, and one in what is
left of it behind a comment or a directive. -/
inductive Spaced (exchange : Exchange) : Cursor → Cursor → Prop where
  | beside {cursor other : Cursor} : exchange.Beside cursor other → Spaced exchange cursor other
  | within {offset : Nat} {gap : List Char} : gap ≠ [] → gap ⊆ exchange.part' →
      offset + utf8Length gap = utf8Length exchange.front + utf8Length exchange.part' →
        Spaced exchange ⟨utf8Length exchange.front, exchange.part ++ exchange.behind⟩
          ⟨offset, gap ++ exchange.behind⟩

theorem replaces_of_blankStart {behind other : List Char} (blank : BlankStart behind)
    (blank' : BlankStart other) : Replaces other behind := by
  have nothing {p : Char → Bool} (apart : ∀ c, isBlank c = true → p c = false) :
      other.head?.any p = false := by
    cases first : other.head? with
    | none => rfl
    | some c => exact apart c (blank' c first)
  constructor
  · exact blank.plainStart
  · exact blank'.plainStart
  · intro starts
    rw [nothing fun c => not_wordStart_of_blank] at starts
    cases starts
  · intro part
    rw [nothing fun c => not_wordPart_of_blank] at part
    cases part
  · intro goesOn
    rw [nothing fun c => not_continuesWord_of_blank] at goesOn
    cases goesOn

section places

variable {exchange : Exchange} (respaced : Respaced exchange)
include respaced

theorem Respaced.filled' : exchange.part' ≠ [] := by
  intro empty
  have kept := respaced.kept
  rw [empty] at kept
  exact respaced.filled (List.subset_nil.mp kept)

theorem Respaced.adjacent {cursor other : Cursor} (here : Spaced exchange cursor other) :
    cursor.rest.takeWhile isBlank = [] ↔ other.rest.takeWhile isBlank = [] := by
  have nonempty {gap behind : List Char} (more : gap ≠ [])
      (blank : ∀ c ∈ gap, isBlank c = true) : (gap ++ behind).takeWhile isBlank ≠ [] := by
    obtain ⟨c, gap, rfl⟩ := List.exists_cons_of_ne_nil more
    simp [blank c List.mem_cons_self]
  cases here with
  | beside beside =>
      cases beside with
      | before ahead =>
          cases ahead with
          | nil =>
              rw [List.nil_append, List.nil_append]
              exact iff_of_false (nonempty respaced.filled respaced.blank)
                (nonempty respaced.filled' respaced.blank')
          | cons c ahead => simp [List.takeWhile_cons]
      | behind => rfl
  | within more kept =>
      exact iff_of_false (nonempty respaced.filled respaced.blank)
        (nonempty more fun c member => respaced.blank' c (kept member))

theorem Respaced.blankStart : BlankStart (exchange.part ++ exchange.behind) ∧
    BlankStart (exchange.part' ++ exchange.behind) := by
  have starts {gap : List Char} (more : gap ≠ []) (blank : ∀ c ∈ gap, isBlank c = true) :
      BlankStart (gap ++ exchange.behind) := by
    obtain ⟨c, gap, rfl⟩ := List.exists_cons_of_ne_nil more
    intro d first
    exact blank d (Option.some.inj first ▸ List.mem_cons_self)
  exact ⟨starts respaced.filled respaced.blank, starts respaced.filled' respaced.blank'⟩

/-- A comment or a directive in front of the blank space goes on in it, or the line does not end
there. -/
theorem Respaced.lineGrows {forms : List (TokenForm × SymbolId)} {lexer : Lexer}
    (spells : Spells lexer forms) {ahead : List Char}
    (goesOn : ¬ KeepsLine forms ahead (exchange.part ++ exchange.behind)
      (exchange.part' ++ exchange.behind)) :
    ∃ mark id, LineGrows forms mark id ahead (exchange.part'.takeWhile lineRest.contains)
        (exchange.part ++ exchange.behind)
        (exchange.part'.dropWhile lineRest.contains ++ exchange.behind) ∧
      exchange.part'.dropWhile lineRest.contains ≠ [] := by
  obtain ⟨blank, blank'⟩ := respaced.blankStart
  unfold KeepsLine at goesOn
  push Not at goesOn
  obtain ⟨mark, id, listed, marked, whole, stops, _⟩ := goesOn
  obtain ⟨e, part, shape⟩ := List.exists_cons_of_ne_nil respaced.filled
  have refused : lineRest.contains e = false := by simpa [shape] using stops
  have left : exchange.part'.dropWhile lineRest.contains ≠ [] := by
    intro none_left
    have kept := List.dropWhile_eq_nil_iff.mp none_left e
      (respaced.kept (shape ▸ List.mem_cons_self))
    rw [refused] at kept
    cases kept
  obtain ⟨d, later, rest⟩ := List.exists_cons_of_ne_nil left
  have stops' : lineRest.contains d = false := by
    have first := List.head?_dropWhile_not lineRest.contains exchange.part'
    rw [rest] at first
    simpa using first
  have dBlank : isBlank d = true :=
    respaced.blank' d ((List.dropWhile_sublist _).subset (rest ▸ List.mem_cons_self))
  have known := spells.isKnown listed
  have made : mark ⊆ signs ++ ['#', '"', '\'', '|'] := by
    rcases known with rfl | rfl
    · decide
    · decide
  refine ⟨mark, id, ⟨listed, (prefix_append_iff made blank.plainStart).mp marked, ?_, ?_, stops, ?_,
    blank, ?_⟩, left⟩
  · exact List.takeWhile_eq_self_iff.mp whole
  · intro c member
    exact ⟨respaced.blank' c ((List.takeWhile_sublist _).subset member),
      List.mem_takeWhile_imp member⟩
  · simp [rest, stops']
  · rw [rest]
    intro c first
    exact Option.some.inj first ▸ dBlank

variable {language : Language} {forms : List (TokenForm × SymbolId)}

/-- A token in front of the blank space is found in front of more of it. -/
theorem Respaced.findsAlike (knowsNoEnd : language.lexer.KnowsNoEnd)
    (spells : Spells language.lexer forms) (scans : language.scanner = OneScript.scanner)
    {mode : ValidExternals} {state after : ScannerState} {content rest ahead : List Char} {c : Char}
    {symbol : SymbolId} {offset : Nat}
    (placed : offset + utf8Length (c :: ahead) = utf8Length exchange.front)
    (split : c :: ahead ++ (exchange.part ++ exchange.behind) = content ++ rest)
    (finds : language.Finds mode state content rest symbol after)
    (known : symbol ≠ endSymbol → ∃ raw,
      (raw = symbol ∨ language.lexer.word = some symbol) ∧
        exchange.Spares offset (offset + utf8Length content) ∧ raw ≠ errorSymbol) :
    language.FindsAlike (fun _ _ => True) (Spaced exchange) exchange.Beside mode state after content
      rest symbol ⟨offset, c :: ahead ++ (exchange.part ++ exchange.behind)⟩
      ⟨offset, c :: ahead ++ (exchange.part' ++ exchange.behind)⟩ := by
  obtain ⟨blank, blank'⟩ := respaced.blankStart
  have replaces := replaces_of_blankStart blank blank'
  have inside (other : symbol ≠ endSymbol) : content <+: c :: ahead := by
    obtain ⟨_, _, spares, _⟩ := known other
    exact spares.prefix placed split
  cases finds with
  | atEnd => cases split
  | scanned nonempty asked found declared =>
      have other : symbol ≠ endSymbol := by
        rintro rfl
        exact knowsNoEnd.externals (List.mem_of_getElem? declared)
      obtain ⟨rest', split', finds'⟩ := scanned_replace scans replaces nonempty asked found declared
        split (inside other)
      exact Exchange.findsAlike_before .beside (fun _ => trivial) id placed (inside other) split
        split' finds'
  | matched _ declines found =>
      have other := knowsNoEnd.matchToken? found
      by_cases line : KeepsLine forms (c :: ahead) (exchange.part ++ exchange.behind)
          (exchange.part' ++ exchange.behind)
      · obtain ⟨rest', split', finds'⟩ := matched_replace spells scans replaces line declines found
          split (inside other)
        exact Exchange.findsAlike_before .beside (fun _ => trivial) id placed (inside other) split
          split' finds'
      · obtain ⟨mark, id, grows, left⟩ := respaced.lineGrows spells line
        rw [← split] at declines found
        obtain ⟨rfl, isExtra, finds'⟩ := grows.finds spells scans declines found (inside other)
        obtain rfl := List.append_cancel_left split
        have parts := List.takeWhile_append_dropWhile (p := lineRest.contains) (l := exchange.part')
        have joined : exchange.part' ++ exchange.behind = exchange.part'.takeWhile lineRest.contains ++
            (exchange.part'.dropWhile lineRest.contains ++ exchange.behind) := by
          rw [← List.append_assoc, parts]
        have within : Spaced exchange ⟨utf8Length exchange.front, exchange.part ++ exchange.behind⟩
            ⟨offset + utf8Length (c :: ahead ++ exchange.part'.takeWhile lineRest.contains),
              exchange.part'.dropWhile lineRest.contains ++ exchange.behind⟩ := by
          refine .within left (List.dropWhile_sublist _).subset ?_
          have length := congrArg utf8Length parts
          rw [utf8Length_append] at length ⊢
          omega
        refine ⟨_, _, (congrArg (c :: ahead ++ ·) joined).trans (List.append_assoc ..).symm, finds',
          trivial, placed ▸ within, fun final => ?_⟩
        · rw [isExtra] at final
          simp [other] at final
  | unmatched =>
      obtain ⟨raw, isRaw, _, noError⟩ := known (by decide)
      rcases isRaw with rfl | word
      · exact absurd rfl noError
      · exact absurd word spells.word

/-- More blanks in blank space change no token in front of it or behind it. -/
theorem Respaced.rereads (knowsNoEnd : language.lexer.KnowsNoEnd)
    (spells : Spells language.lexer forms) (scans : language.scanner = OneScript.scanner) :
    Rereads language exchange.Corresponds (fun _ _ => True) (Spaced exchange) exchange.Beside
      fun start finish raw => exchange.Spares start finish ∧ raw ≠ errorSymbol where
  of_settled := .beside
  start := Exchange.Beside.corresponds
  place := fun _ => trivial
  adjacent := respaced.adjacent
  token := by
    intro cursor other mode state after content behind symbol here split finds isKnown
    have blank := respaced.blank
    have blank' := respaced.blank'
    have later (count : Nat) (rest : List Char) (split : rest.dropWhile isBlank = content ++ behind) :
        language.FindsAlike (fun _ _ => True) (Spaced exchange) exchange.Beside mode state after
          content behind symbol
          (Cursor.skipWhile
            ⟨utf8Length exchange.front + utf8Length exchange.part + count, rest⟩ isBlank)
          (Cursor.skipWhile
            ⟨utf8Length exchange.front + utf8Length exchange.part' + count, rest⟩ isBlank) :=
      Exchange.findsAlike_behind .beside (fun _ => trivial) id finds split
    cases here with
    | beside beside =>
        cases beside with
        | @before offset ahead placed =>
            rcases run_cases isBlank ahead with allBlank | ⟨first, c, more, rfl, inside, stops⟩
            · rw [Cursor.skipWhile_passed allBlank, Cursor.skipWhile_passed blank, placed] at split ⊢
              rw [Cursor.skipWhile_passed allBlank, Cursor.skipWhile_passed blank', placed]
              exact later 0 exchange.behind split
            · have reached (rest : List Char) : Cursor.skipWhile
                  ⟨offset, first ++ c :: more ++ rest⟩ isBlank =
                    ⟨offset + utf8Length first, c :: more ++ rest⟩ := by
                rw [List.append_assoc]
                exact Cursor.skipWhile_append inside (by simpa using stops)
              rw [utf8Length_append, ← Nat.add_assoc] at placed
              rw [reached] at split isKnown ⊢
              rw [reached]
              exact respaced.findsAlike knowsNoEnd spells scans placed split finds isKnown
        | behind count rest => exact later count rest split
    | @within offset gap more kept placed =>
        have gapBlank : ∀ c ∈ gap, isBlank c = true := fun c member => blank' c (kept member)
        rw [Cursor.skipWhile_passed blank] at split ⊢
        rw [Cursor.skipWhile_passed gapBlank, placed]
        exact later 0 exchange.behind split

end places

end OneScript

/-! ## A small language -/

deriving instance DecidableEq for Repetition, FlatDraft

/-- The grammar of one keyword in front of a word. -/
def conditionGrammar : Grammar :=
  ⟨{ name := "conditions"
     externals := OneScript.externals
     extras := [.symbol "directive"]
     keywords := [⟨"If", ["if", "если"]⟩]
     word := some "identifier"
     rules := [("start", .seq [.keyword "If", .symbol "identifier"]),
      ("identifier", .pattern "[\\p{L}_][\\p{L}\\p{N}_]*"),
      ("directive", .pattern "#[^\\r\\n]*")] }, by decide⟩

/-- What is found in this grammar. -/
def conditionDraft : FlatDraft :=
  { terminals := [⟨.endOfInput, "end", false, false, false, .none⟩,
      ⟨.named "identifier", "identifier", true, true, false,
        .pattern "[\\p{L}_][\\p{L}\\p{N}_]*"⟩,
      ⟨.external "region_start", "region_start", true, true, false, .none⟩,
      ⟨.external "region_end", "region_end", true, true, false, .none⟩,
      ⟨.external "string", "string", true, true, false, .none⟩,
      ⟨.external "date_literal", "date_literal", true, true, false, .none⟩,
      ⟨.named "directive", "directive", true, true, true, .pattern "#[^\\r\\n]*"⟩,
      ⟨.keyword "If", "If", false, true, false, .keyword⟩]
    productions :=
      [⟨.rule 0, [{ symbol := .terminal 7 }, { symbol := .terminal 1 }], 0⟩] }

theorem conditionGrammar_drafted : conditionGrammar.check = .ok () ∧
    conditionGrammar.unreachableRules = [] ∧
      FlatDraft.ofGrammar conditionGrammar = .ok conditionDraft := by
  decide +kernel

theorem conditionGrammar_speaks : OneScript.speaks conditionGrammar = true := by
  rw [OneScript.speaks, conditionGrammar_drafted.2.2]
  decide +kernel

theorem conditionGrammar_flattened : FlatGrammar.ofGrammar conditionGrammar =
    (conditionDraft.number conditionGrammar).mapError .grammar := by
  obtain ⟨checked, reached, drafted⟩ := conditionGrammar_drafted
  simp only [FlatGrammar.ofGrammar, checked, reached, drafted]
  rfl

theorem conditionGrammar_reads : ((Language.ofGrammar conditionGrammar OneScript.scanner).toOption.bind
    fun language => ((Parser.mk {} (some ⟨0, language⟩)).parse "if a" none).toOption.map
      fun result => (language.tables.lexModes.size, language.tables.productions.size,
        result.1.rootNode.info.hasError,
        result.1.root.leaves.map fun leaf => (leaf.padding, leaf.size))) =
    some (4, 1, false, [(0, 2), (1, 1)]) := by
  rw [Language.ofGrammar, LanguageTables.generate, conditionGrammar_flattened]
  -- the kernel does not unfold the recursions that make the tables, but it can read the result
  generalize made : (conditionDraft.number conditionGrammar).mapError GenerateError.grammar >>=
    LanguageTables.ofFlatGrammar = tables
  cbv at made
  subst made
  decide +kernel

/-- A condition is read without errors. -/
theorem exists_condition : ∃ grammar language tree stats,
    FlatGrammar.ofGrammar conditionGrammar = .ok grammar ∧
      Language.ofGrammar conditionGrammar OneScript.scanner = .ok language ∧
      language.tables.Numbered ∧
      (Parser.mk {} (some ⟨0, language⟩)).parse "if a" none = .ok (tree, stats) ∧
      tree.rootNode.info.hasError = false ∧
      ∃ keyword name, tree.root.leaves = [keyword, name] ∧ keyword.padding = 0 ∧
        keyword.size = 2 ∧ name.padding = 1 := by
  have shown := conditionGrammar_reads
  cases loaded : Language.ofGrammar conditionGrammar OneScript.scanner with
  | error failure => simp [loaded, Except.toOption] at shown
  | ok language =>
      simp only [loaded, Except.toOption, Option.bind_some] at shown
      cases parsed : (Parser.mk {} (some ⟨0, language⟩)).parse "if a" none with
      | error failure => simp [parsed] at shown
      | ok result =>
          obtain ⟨tree, stats⟩ := result
          simp only [parsed, Option.map_some, Option.some.injEq, Prod.mk.injEq] at shown
          obtain ⟨modes, productions, clean, widths⟩ := shown
          obtain ⟨generated, _⟩ := Language.ofGrammar_ok loaded
          obtain ⟨grammar, flattened, _⟩ := LanguageTables.generate_ok generated
          have numbered : language.tables.Numbered :=
            ⟨by simp [modes, UInt32.size], by simp [productions, UInt32.size]⟩
          obtain ⟨keyword, name, leaves⟩ :=
            List.length_eq_two.mp (by simpa using congrArg List.length widths)
          rw [leaves] at widths
          simp only [List.map_cons, List.map_nil, List.cons.injEq, Prod.mk.injEq, and_true]
            at widths
          obtain ⟨⟨first, size⟩, second, _⟩ := widths
          exact ⟨grammar, language, tree, stats, flattened, rfl, numbered, parsed, clean, keyword,
            name, leaves, first, size, second⟩

open OneScript in
/-- Blank space keeps the structure of a text in every language with the tokens and the scanner of
OneScript: more blanks inside or at an end of the padding of a leaf, or behind the last leaf of a
tree without errors, give a tree without errors that reads the same. -/
theorem sexp_eq_of_more_blanks {source : Grammar} {grammar : FlatGrammar} {language : Language}
    (spoken : speaks source = true) (flattened : FlatGrammar.ofGrammar source = .ok grammar)
    (loaded : Language.ofGrammar source OneScript.scanner = .ok language)
    (numbered : language.tables.Numbered) {config : ParseConfig} {number : Nat}
    {front left right behind inserted : List Char} {tree : Tree} {stats : ParseStats}
    (parsed : (Parser.mk config (some ⟨number, language⟩)).parse
      (String.ofList (front ++ (left ++ right) ++ behind)) none = .ok (tree, stats))
    (clean : tree.rootNode.info.hasError = false) (run : left ++ right ≠ [])
    (blank : ∀ c ∈ left ++ right, isBlank c = true) (blank' : ∀ c ∈ inserted, isBlank c = true)
    (padding : (∃ before leaf after, tree.root.leaves = before ++ leaf :: after ∧
        utf8Length front = extent before ∧ utf8Length (left ++ right) = leaf.padding) ∨
      utf8Length front = extent tree.root.leaves ∧ behind = []) :
    speaks OneScript.grammar = true ∧ ∃ tree' stats',
      (Parser.mk config (some ⟨number, language⟩)).parse
        (String.ofList (front ++ (left ++ inserted ++ right) ++ behind)) none =
          .ok (tree', stats') ∧
      tree'.rootNode.info.hasError = false ∧ tree'.rootNode.sexp = tree.rootNode.sexp := by
  refine ⟨grammar_speaks, ?_⟩
  have represents := Language.represents_of_ofGrammar loaded flattened numbered
  have knowsNoEnd := Language.knowsNoEnd_of_ofGrammar loaded
  have scans := (Language.ofTables_ok (Language.ofGrammar_ok loaded).2).2.2.2.2
  obtain ⟨forms, spells⟩ := spells_of_speaks spoken loaded
  let exchange : Exchange := ⟨front, left ++ right, left ++ inserted ++ right, behind⟩
  have respaced : Respaced exchange := by
    refine ⟨run, blank, fun c member => ?_, fun c member => ?_⟩
    · simp only [exchange, List.mem_append, or_assoc] at member
      rcases member with first | new | last
      · exact blank c (List.mem_append_left _ first)
      · exact blank' c new
      · exact blank c (List.mem_append_right _ last)
    · simp only [exchange, List.mem_append] at member ⊢
      exact member.imp_left .inl
  have spares : ∀ piece ∈ piecesFrom 0 tree.root.leaves, exchange.Spares
      (piece.start + piece.padding) (piece.start + piece.padding + piece.size) := by
    intro piece member
    rcases padding with ⟨before, leaf, after, leaves, reached, width⟩ | ⟨reached, _⟩
    · rw [leaves] at member
      rcases mem_piecesFrom_cases member with first | rfl | later
      · exact .inl (by dsimp only [exchange]; omega)
      · exact .inr (by dsimp only [exchange]; omega)
      · exact .inr (by dsimp only [exchange]; omega)
    · have bounds := bounds_of_mem_piecesFrom member
      exact .inl (by dsimp only [exchange]; omega)
  have real := Subtree.real_of_containsError (show tree.root.containsError = false from clean)
  have begins : exchange.Beside
      (Cursor.start (String.ofList (front ++ (left ++ right) ++ behind)).toList)
      (Cursor.start (String.ofList (front ++ (left ++ inserted ++ right) ++ behind)).toList) := by
    rw [String.toList_ofList, String.toList_ofList, List.append_assoc, List.append_assoc front]
    exact .before front (Nat.zero_add _)
  obtain ⟨tree', stats', parsed', same, outline, moved⟩ := Parser.parse_of_rereads represents
    knowsNoEnd spells.progresses (respaced.rereads knowsNoEnd spells scans)
    (Exchange.biUnique_corresponds respaced.filled respaced.filled') begins parsed
    fun piece member => by
      obtain ⟨_, _, leaf, listed, raw⟩ := bounds_of_mem_piecesFrom member
      exact ⟨spares piece member, raw ▸ (real leaf listed).1⟩
  -- where the nodes stand does not matter
  have nodes := @Tree.moved_rootNode tree tree' (fun _ => 0) (fun _ => 0) same outline
    (moved.mono fun _ => rfl)
  refine ⟨tree', stats', parsed', ?_, ?_⟩
  · have flags := congrArg (fun node => node.info.hasError) nodes
    simpa [Node.info_moved, clean] using flags.symm
  · have texts := congrArg Node.sexp nodes
    rw [Node.sexp_moved, Node.sexp_moved] at texts
    exact texts.symm

open OneScript in
/-- A tabulator in front of a word keeps the structure of a condition. -/
theorem sexp_eq_of_tabulator : ∃ grammar language tree stats tree' stats',
    FlatGrammar.ofGrammar conditionGrammar = .ok grammar ∧
      Language.ofGrammar conditionGrammar OneScript.scanner = .ok language ∧
      language.tables.Numbered ∧
      (Parser.mk {} (some ⟨0, language⟩)).parse "if a" none = .ok (tree, stats) ∧
      tree.rootNode.info.hasError = false ∧
      (Parser.mk {} (some ⟨0, language⟩)).parse "if \ta" none = .ok (tree', stats') ∧
      tree'.rootNode.info.hasError = false ∧ tree'.rootNode.sexp = tree.rootNode.sexp := by
  obtain ⟨grammar, language, tree, stats, flattened, loaded, numbered, parsed, clean, keyword, name,
    leaves, first, size, second⟩ := exists_condition
  have padding : (∃ before leaf after, tree.root.leaves = before ++ leaf :: after ∧
      utf8Length ['i', 'f'] = extent before ∧ utf8Length ([' '] ++ []) = leaf.padding) ∨
        utf8Length ['i', 'f'] = extent tree.root.leaves ∧ ['a'] = [] := by
    refine .inl ⟨[keyword], name, [], leaves, ?_, ?_⟩
    · simp only [extent, List.map_cons, List.map_nil, first, size]
      decide
    · rw [second]
      decide
  have blank : ∀ c ∈ [' '] ++ [], isBlank c = true := List.all_eq_true.mp rfl
  have blank' : ∀ c ∈ ['\t'], isBlank c = true := List.all_eq_true.mp rfl
  have text : "if a" = String.ofList (['i', 'f'] ++ ([' '] ++ []) ++ ['a']) := by decide
  have text' : "if \ta" = String.ofList (['i', 'f'] ++ ([' '] ++ ['\t'] ++ []) ++ ['a']) := by decide
  rw [text] at parsed
  obtain ⟨_, tree', stats', parsed', clean', same⟩ := sexp_eq_of_more_blanks
    conditionGrammar_speaks flattened loaded numbered parsed clean (List.cons_ne_nil ' ' [])
    blank blank' padding
  rw [← text] at parsed
  rw [← text'] at parsed'
  exact ⟨grammar, language, tree, stats, tree', stats', flattened, loaded, numbered, parsed, clean,
    parsed', clean', same⟩

end Lalr
