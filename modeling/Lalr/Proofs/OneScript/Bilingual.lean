import Lalr.Proofs.OneScript.Keyword
import Lalr.Proofs.OneScript.Spacing

set_option autoImplicit false

/-!
Keywords in other spellings. Where a word stands for a keyword, another spelling of the same keyword
may stand, and nothing else changes in the tree.
-/

namespace Lalr

open Lalr.Text

theorem Language.Declines.of_token {language : Language} {mode : ValidExternals}
    {state : ScannerState} {text other : List Char} (declines : language.Declines mode state text)
    (token : ∀ index length after examined,
      language.scanner.scan other mode state = .token index length after examined →
        ∃ length' after' examined', 0 < length' ∧
          language.scanner.scan text mode state = .token index length' after' examined') :
    language.Declines mode state other := by
  rcases declines with idle | refused
  · exact .inl idle
  · refine .inr fun index length after examined found => .inl ?_
    obtain ⟨length', after', examined', positive, found'⟩ := token index length after examined found
    exact (refused index length' after' examined' found').resolve_right (Nat.ne_of_gt positive)

/-- Something that is the part or does not meet it. -/
def Exchange.Keeps (exchange : Exchange) (start finish : Nat) : Prop :=
  exchange.Spares start finish ∨
    start = utf8Length exchange.front ∧
      finish = utf8Length exchange.front + utf8Length exchange.part

namespace OneScript

/-! ## Literals that go on over a word -/

section literals

variable {word word' text other rest : List Char} {c : Char}

theorem ne_of_wordPart {d : Char} (part : wordPart.contains c = true) (sign : d ∈ foreign) :
    c ≠ d :=
  fun same => not_mem_foreign part (same ▸ sign)

/-- A text at whose start no string ends and no comment starts. -/
def StringGoesOn (text : List Char) : Prop :=
  ∀ c, text.head? = some c → c ≠ '"' ∧ c ≠ '/'

theorem StringGoesOn.head?_append (goesOn : StringGoesOn text) (sign : c = '"' ∨ c = '/')
    (apart : rest.head? ≠ some c) : (rest ++ text).head? ≠ some c := by
  cases rest with
  | nil =>
      intro first
      obtain ⟨notQuote, notSlash⟩ := goesOn c first
      exact sign.elim notQuote notSlash
  | cons => exact apart

/-- Whether a string is closed does not depend on where it starts, and of what follows its first
part only on how the string goes on from there. -/
theorem isSome_scanStringFrom_front (goesOn : StringGoesOn text) (goesOn' : StringGoesOn other)
    (same : ∀ place offset offset', (scanStringFrom place offset text).length.isSome =
      (scanStringFrom place offset' other).length.isSome)
    (front : List Char) (place : StringPlace) (offset offset' : Nat) :
    (scanStringFrom place offset (front ++ text)).length.isSome =
      (scanStringFrom place offset' (front ++ other)).length.isSome := by
  fun_induction scanStringFrom place offset front generalizing offset' with
  | case1 => exact same _ _ _
  | case2 offset rest ih => exact ih _
  | case3 offset rest further =>
      have apart : rest.head? ≠ some '"' := by
        intro first
        obtain ⟨others, rfl⟩ := List.head?_eq_some_iff.mp first
        exact further others rfl rfl
      have closed (offset : Nat) {rest : List Char} (apart : rest.head? ≠ some '"') :
          (scanStringFrom .inside offset ('"' :: rest)).length = some (offset + 1) :=
        length_scanStringFrom .closing apart offset
      rw [List.cons_append, List.cons_append, closed _ (goesOn.head?_append (.inl rfl) apart),
        closed _ (goesOn'.head?_append (.inl rfl) apart)]
      rfl
  | case4 offset c rest further quote line ih => simpa [scanStringFrom, quote, line] using ih _
  | case5 offset c rest further quote line ih => simpa [scanStringFrom, quote, line] using ih _
  | case6 offset c rest blank ih => simpa [scanStringFrom, blank] using ih _
  | case7 offset rest blank ih => exact ih _
  | case8 offset c rest blank bar comment ih =>
      obtain ⟨slash, next⟩ := Bool.and_eq_true_iff.mp comment
      obtain ⟨others, rfl⟩ := List.head?_eq_some_iff.mp (beq_iff_eq.mp next)
      obtain rfl := of_decide_eq_true slash
      exact ih _
  | case9 offset c rest blank bar comment =>
      have givesUp {behind : List Char} (goesOn : StringGoesOn behind) (offset : Nat) :
          (scanStringFrom .betweenLines offset (c :: rest ++ behind)).length = none := by
        have refused : ¬ (decide (c = '/') && (rest ++ behind).head? == some '/') = true := by
          intro found
          obtain ⟨slash, next⟩ := Bool.and_eq_true_iff.mp found
          refine goesOn.head?_append (.inr rfl) (fun first => comment ?_) (beq_iff_eq.mp next)
          rw [slash, first]
          rfl
        rw [List.cons_append, scanStringFrom, if_neg blank, if_neg bar, if_neg refused]
      rw [givesUp goesOn, givesUp goesOn']
  | case10 offset rest ih => exact ih _
  | case11 offset c rest line ih => simpa [scanStringFrom, line] using ih _

theorem isSome_scanStringFrom_offset (text : List Char) (place : StringPlace)
    (offset offset' : Nat) : (scanStringFrom place offset text).length.isSome =
      (scanStringFrom place offset' text).length.isSome := by
  have atEnd : ∀ place offset offset', (scanStringFrom place offset []).length.isSome =
      (scanStringFrom place offset' []).length.isSome := by
    intro place offset offset'
    cases place <;> rfl
  have empty : StringGoesOn [] := nofun
  have whole := isSome_scanStringFrom_front empty empty atEnd text place offset offset'
  rwa [List.append_nil] at whole

/-- Inside a string and in a comment a word is passed. -/
theorem scanStringFrom_word (parts : ∀ c ∈ word, wordPart.contains c = true) (offset : Nat)
    (rest : List Char) :
    scanStringFrom .inside offset (word ++ rest) =
        scanStringFrom .inside (offset + utf8Length word) rest ∧
      scanStringFrom .inComment offset (word ++ rest) =
        scanStringFrom .inComment (offset + utf8Length word) rest := by
  induction word generalizing offset with
  | nil => exact ⟨rfl, rfl⟩
  | cons c word ih =>
      have part := parts c List.mem_cons_self
      have quote : c ≠ '"' := ne_of_wordPart part (by decide)
      have carriage : c ≠ '\r' := ne_of_wordPart part (by decide)
      have feed : c ≠ '\n' := ne_of_wordPart part (by decide)
      have line : endsLine c = false := by simp [endsLine, carriage, feed]
      obtain ⟨inside, inComment⟩ :=
        ih (fun c later => parts c (List.mem_cons_of_mem _ later)) (offset + c.utf8Size)
      rw [utf8Length_cons, ← Nat.add_assoc]
      constructor
      · rw [← inside, List.cons_append]
        simp [scanStringFrom, quote, line]
      · rw [← inComment, List.cons_append]
        simp [scanStringFrom, feed]

theorem stringGoesOn_word (parts : ∀ c ∈ word, wordPart.contains c = true) (more : word ≠ [])
    (rest : List Char) : StringGoesOn (word ++ rest) := by
  obtain ⟨c, word, rfl⟩ := List.exists_cons_of_ne_nil more
  intro d first
  obtain rfl := Option.some.inj first
  have part := parts c List.mem_cons_self
  exact ⟨ne_of_wordPart part (by decide), ne_of_wordPart part (by decide)⟩

/-- A string that goes on over a word is closed if and only if it is closed with another word in
its place. -/
theorem isSome_scanString_word (parts : ∀ c ∈ word, wordPart.contains c = true)
    (parts' : ∀ c ∈ word', wordPart.contains c = true) (more : word ≠ []) (more' : word' ≠ [])
    (front rest : List Char) :
    (scanString ('"' :: (front ++ (word ++ rest)))).length.isSome =
      (scanString ('"' :: (front ++ (word' ++ rest)))).length.isSome := by
  have goesOn := stringGoesOn_word parts more rest
  have goesOn' := stringGoesOn_word parts' more' rest
  refine isSome_scanStringFrom_front goesOn goesOn' (fun place offset offset' => ?_) front .inside 1 1
  cases place with
  | inside =>
      rw [(scanStringFrom_word parts offset rest).1, (scanStringFrom_word parts' offset' rest).1]
      exact isSome_scanStringFrom_offset _ _ _ _
  | inComment =>
      rw [(scanStringFrom_word parts offset rest).2, (scanStringFrom_word parts' offset' rest).2]
      exact isSome_scanStringFrom_offset _ _ _ _
  | betweenLines =>
      have givesUp {word : List Char} (parts : ∀ c ∈ word, wordPart.contains c = true)
          (more : word ≠ []) (offset : Nat) :
          (scanStringFrom .betweenLines offset (word ++ rest)).length = none := by
        obtain ⟨c, word, rfl⟩ := List.exists_cons_of_ne_nil more
        have part := parts c List.mem_cons_self
        have space : c ≠ ' ' := ne_of_wordPart part (by decide)
        have tabulator : c ≠ '\t' := ne_of_wordPart part (by decide)
        have carriage : c ≠ '\r' := ne_of_wordPart part (by decide)
        have feed : c ≠ '\n' := ne_of_wordPart part (by decide)
        have bar : c ≠ '|' := ne_of_wordPart part (by decide)
        have slash : c ≠ '/' := ne_of_wordPart part (by decide)
        simp [scanStringFrom, endsLine, space, tabulator, carriage, feed, bar, slash]
      rw [givesUp parts more, givesUp parts' more']

theorem isSome_scanDate (text : List Char) : (scanDate ('\'' :: text)).length.isSome =
    ((text.dropWhile fun c => !endsDate c).head? == some '\'' &&
      isValidDate (((text.takeWhile fun c => !endsDate c).filter Char.isDigit).map
        fun c => c.toNat - 48)) := by
  rcases run_cases (fun c => !endsDate c) text with
    whole | ⟨content, close, behind, rfl, inside, stops⟩
  · rw [scanDate_open (by simpa using whole), List.dropWhile_eq_nil_iff.mpr whole]
    rfl
  · rw [scanDate_closed (by simpa using inside) (by simpa using stops), takeWhile_closed inside stops,
      dropWhile_closed inside stops]
    simp only [List.head?_cons]
    split
    case isTrue closed => simpa using closed
    case isFalse closed => simpa using closed

theorem contains_asciiDigit (c : Char) : Property.asciiDigit.contains c = c.isDigit := by
  have code : c.val.toNat = c.toNat := rfl
  simp only [Property.asciiDigit, CharRanges.contains, CharRanges.containsCode, Char.isDigit,
    ge_iff_le, UInt32.le_iff_toNat_le, code]
  grind

/-- Without digits a word may stand in a date that is not closed, and another word in its place. -/
theorem isSome_scanDate_word (parts : ∀ c ∈ word, wordPart.contains c = true)
    (parts' : ∀ c ∈ word', wordPart.contains c = true)
    (plain : ∀ c ∈ word, Property.asciiDigit.contains c = false)
    (plain' : ∀ c ∈ word', Property.asciiDigit.contains c = false) (front rest : List Char) :
    (scanDate ('\'' :: (front ++ (word ++ rest)))).length.isSome =
      (scanDate ('\'' :: (front ++ (word' ++ rest)))).length.isSome := by
  rw [isSome_scanDate, isSome_scanDate]
  rcases run_cases (fun c => !endsDate c) front with
    whole | ⟨content, close, behind, rfl, inside, stops⟩
  · have passes {word : List Char} (parts : ∀ c ∈ word, wordPart.contains c = true) :
        ∀ c ∈ word, (!endsDate c) = true := by
      intro c member
      have part := parts c member
      have quote : c ≠ '\'' := ne_of_wordPart part (by decide)
      have carriage : c ≠ '\r' := ne_of_wordPart part (by decide)
      have feed : c ≠ '\n' := ne_of_wordPart part (by decide)
      simp [endsDate, endsLine, quote, carriage, feed]
    have digits {word : List Char} (plain : ∀ c ∈ word, Property.asciiDigit.contains c = false) :
        word.filter Char.isDigit = [] := by
      refine List.filter_eq_nil_iff.mpr fun c member digit => ?_
      rw [← contains_asciiDigit, plain c member] at digit
      cases digit
    rw [List.takeWhile_append_of_pos whole, List.takeWhile_append_of_pos whole,
      List.takeWhile_append_of_pos (passes parts), List.takeWhile_append_of_pos (passes parts'),
      List.dropWhile_append_of_pos whole, List.dropWhile_append_of_pos whole,
      List.dropWhile_append_of_pos (passes parts), List.dropWhile_append_of_pos (passes parts')]
    simp only [List.filter_append, digits plain, digits plain']
  · simp only [List.append_assoc, List.cons_append, takeWhile_closed inside stops,
      dropWhile_closed inside stops, List.head?_cons]

theorem exists_outcome {first second : LiteralScan} {index index' length examined : Nat}
    {state after : ScannerState} (same : first.length.isSome = second.length.isSome)
    (found : second.outcome index state = .token index' length after examined) :
    index' = index ∧ ∃ length' examined', first.length = some length' ∧
      first.outcome index state = .token index length' state examined' := by
  have closed := LiteralScan.length_of_outcome found
  rw [closed, Option.isSome_some] at same
  obtain ⟨length', closed'⟩ := Option.isSome_iff_exists.mp same
  refine ⟨index_of_outcome found, length', first.examined, closed', ?_⟩
  rw [LiteralScan.outcome, closed']

end literals

/-! ## Words in the place of words -/

section words

variable {word word' behind : List Char}

theorem IsWord.ne_nil (isWord : IsWord word) : word ≠ [] := by
  rintro rfl
  cases (isWord_iff.mp isWord).1

theorem IsWord.not_blank (isWord : IsWord word) : ∀ c ∈ word, isBlank c = false := by
  intro c member
  have part := (isWord_iff.mp isWord).2 c member
  cases blank : isBlank c with
  | false => rfl
  | true =>
      rw [not_wordPart_of_blank blank] at part
      cases part

theorem replaces_of_isWord (isWord : IsWord word) (isWord' : IsWord word') (behind : List Char) :
    Replaces (word' ++ behind) (word ++ behind) := by
  have starts {word : List Char} (isWord : IsWord word) :
      ∃ c, (word ++ behind).head? = some c ∧ wordStart.contains c = true := by
    obtain ⟨c, others, rfl⟩ := List.exists_cons_of_ne_nil isWord.ne_nil
    exact ⟨c, rfl, (isWord_iff.mp isWord).1⟩
  have plain {word : List Char} (isWord : IsWord word) : PlainStart (word ++ behind) := by
    obtain ⟨c, first, start⟩ := starts isWord
    intro d here
    obtain rfl := Option.some.inj (first.symm.trans here)
    refine ⟨fun sign => not_mem_foreign (wordPart_of_wordStart start) ?_,
      not_digit_of_wordStart start⟩
    rw [foreign, List.append_assoc]
    exact List.mem_append_right _ sign
  obtain ⟨c, first, start⟩ := starts isWord
  exact ⟨plain isWord, plain isWord', fun _ => by rw [first]; exact start,
    fun _ => by rw [first]; exact wordPart_of_wordStart start,
    fun _ => by rw [first]; exact continuesWord_of_wordStart start⟩

/-- At a word the scanner finds nothing. -/
theorem not_scan_word (isWord : IsWord word) {valid : ValidExternals} {state after : ScannerState}
    {index length examined : Nat} :
    scan (word ++ behind) valid state ≠ .token index length after examined := by
  obtain ⟨c, others, rfl⟩ := List.exists_cons_of_ne_nil isWord.ne_nil
  have part := (isWord_iff.mp isWord).2 c List.mem_cons_self
  intro found
  rcases scan_cases found with ⟨rfl, _⟩ | ⟨rfl, _⟩ | ⟨rfl, _⟩
  · exact ne_of_wordPart part (by decide) rfl
  · exact ne_of_wordPart part (by decide) rfl
  · exact ne_of_wordPart part (by decide) rfl

/-- The only token at a word is the word. -/
theorem content?_word {form : TokenForm} (known : form.IsKnown) (isWord : IsWord word)
    (stops : behind.head?.any wordPart.contains = false) :
    form.content? (word ++ behind) = if form = .identifier then some word else none := by
  obtain ⟨c, others, rfl⟩ := List.exists_cons_of_ne_nil isWord.ne_nil
  obtain ⟨starts, parts⟩ := isWord_iff.mp isWord
  have part := parts c List.mem_cons_self
  cases form with
  | literal sign =>
      obtain ⟨filled, made⟩ := known
      obtain ⟨s, sign, rfl⟩ := List.exists_cons_of_ne_nil filled
      have apart : c ≠ s := ne_of_wordPart part (by
        rw [foreign, List.append_assoc]
        exact List.mem_append_right _ (List.mem_append_left _ (made List.mem_cons_self)))
      simp [TokenForm.content?, apart.symm]
  | identifier =>
      have starts : (c :: others ++ behind).head?.any wordStart.contains = true := starts
      rw [TokenForm.content?, if_pos starts, takeWhile_append_of_stops stops,
        List.takeWhile_eq_self_iff.mpr parts, if_pos rfl]
  | number =>
      have digit : Property.asciiDigit.contains c = false := not_digit_of_wordStart starts
      simp [TokenForm.content?, TokenForm.number?, digit]
  | line mark =>
      have slash : c ≠ '/' := ne_of_wordPart part (by decide)
      have hash : c ≠ '#' := ne_of_wordPart part (by decide)
      rcases known with rfl | rfl
      · simp [TokenForm.content?, slash.symm]
      · simp [TokenForm.content?, hash.symm]

/-- Where a word is found, another word is found in its place. -/
theorem Spells.matchToken?_word {lexer : Lexer} {forms : List (TokenForm × SymbolId)}
    (spells : Spells lexer forms) (isWord : IsWord word) (isWord' : IsWord word')
    (stops : behind.head?.any wordPart.contains = false) {symbol : SymbolId}
    (found : lexer.matchToken? (word ++ behind) = some ⟨symbol, utf8Length word, behind⟩) :
    lexer.matchToken? (word' ++ behind) = some ⟨symbol, utf8Length word', behind⟩ := by
  rw [spells.matchToken?] at found ⊢
  have contents : ∀ entry ∈ forms, entry.1.content? (word' ++ behind) =
      (entry.1.content? (word ++ behind)).map fun _ => word' := by
    intro entry listed
    have known := spells.isKnown listed
    rw [content?_word known isWord stops, content?_word known isWord' stops]
    split
    · rfl
    · rfl
  have alone : ∀ entry ∈ forms, ∀ content,
      entry.1.content? (word ++ behind) = some content → content = word := by
    intro entry listed content here
    rw [content?_word (spells.isKnown listed) isWord stops,
      Option.ite_none_right_eq_some] at here
    exact (Option.some.inj here.2).symm
  have both : FoundIn forms (word ++ behind) (word' ++ behind) (fun _ => word')
      (findForm? forms (word ++ behind)) (findForm? forms (word' ++ behind)) := by
    refine findForm?_change contents fun first listed second listed' content content' here here' => ?_
    rw [alone first listed content here, alone second listed' content' here']
    exact iff_of_false (Nat.lt_irrefl _) (Nat.lt_irrefl _)
  rw [found] at both
  obtain ⟨entry, _, _, _, same, chosen⟩ := both.exists
  obtain ⟨rfl, _, _⟩ := TokenMatch.mk.inj same
  rw [chosen, List.drop_left]

end words

/-- A word and another one for the same keyword. -/
structure Respelt (language : Language) (exchange : Exchange) : Prop where
  isWord : IsWord exchange.part
  isWord' : IsWord exchange.part'
  plain : ∀ c ∈ exchange.part, Property.asciiDigit.contains c = false
  plain' : ∀ c ∈ exchange.part', Property.asciiDigit.contains c = false
  keyword : language.lexer.keyword? exchange.part = language.lexer.keyword? exchange.part'

section places

variable {language : Language} {exchange : Exchange} {forms : List (TokenForm × SymbolId)}
  {mode : ValidExternals} {state after : ScannerState} {content rest ahead : List Char} {c : Char}
  {symbol : SymbolId} {offset : Nat}

/-- The scanner declines in front of one word where it declines in front of the other. -/
theorem Respelt.declines (respelt : Respelt language exchange)
    (spells : Spells language.lexer forms) (scans : language.scanner = OneScript.scanner)
    (declines : language.Declines mode state
      (c :: ahead ++ (exchange.part ++ exchange.behind)))
    (nothing : language.lexer.matchToken?
      (c :: ahead ++ (exchange.part ++ exchange.behind)) = none) :
    language.Declines mode state (c :: ahead ++ (exchange.part' ++ exchange.behind)) := by
  obtain ⟨_, parts⟩ := isWord_iff.mp respelt.isWord
  obtain ⟨_, parts'⟩ := isWord_iff.mp respelt.isWord'
  refine declines.of_token fun index length after examined found => ?_
  rw [scans] at found ⊢
  change scan (c :: (ahead ++ _)) mode state = _ at found
  change ∃ length' after' examined', _ ∧ scan (c :: (ahead ++ _)) mode state = _
  rw [scan_cons] at found ⊢
  split at found
  case isTrue marked =>
      obtain rfl := of_decide_eq_true (Bool.and_eq_true_iff.mp marked).1
      obtain ⟨longest, chosen, _⟩ :=
        spells.line_le (ahead ++ (exchange.part ++ exchange.behind))
      cases nothing.symm.trans chosen
  case isFalse unmarked =>
      rw [if_neg unmarked]
      split at found
      case isTrue quoted =>
          rw [if_pos quoted]
          obtain rfl := of_decide_eq_true (Bool.and_eq_true_iff.mp quoted).1
          obtain ⟨rfl, length', examined', closed, here⟩ := exists_outcome
            (isSome_scanString_word parts parts' respelt.isWord.ne_nil respelt.isWord'.ne_nil ahead
              exchange.behind) found
          obtain ⟨_, _, _, rfl⟩ := endsIn_of_scanStringFrom closed
          exact ⟨_, _, _, by omega, here⟩
      case isFalse unquoted =>
          rw [if_neg unquoted]
          split at found
          case isTrue quoted =>
              rw [if_pos quoted]
              obtain rfl := of_decide_eq_true (Bool.and_eq_true_iff.mp quoted).1
              obtain ⟨rfl, length', examined', closed, here⟩ := exists_outcome
                (isSome_scanDate_word parts parts' respelt.plain respelt.plain' ahead
                  exchange.behind) found
              obtain ⟨_, _, _, _, rfl, _⟩ := exists_of_scanDate closed
              exact ⟨_, _, _, by omega, here⟩
          case isFalse => cases found

/-- A token in front of the word is found in front of the other word. -/
theorem Respelt.findsAlike_ahead (respelt : Respelt language exchange)
    (knowsNoEnd : language.lexer.KnowsNoEnd) (spells : Spells language.lexer forms)
    (scans : language.scanner = OneScript.scanner)
    (placed : offset + utf8Length (c :: ahead) = utf8Length exchange.front)
    (split : c :: ahead ++ (exchange.part ++ exchange.behind) = content ++ rest)
    (finds : language.Finds mode state content rest symbol after)
    (known : symbol ≠ endSymbol → exchange.Keeps offset (offset + utf8Length content)) :
    language.FindsAlike exchange.Corresponds exchange.Beside exchange.Beside mode state after content
      rest symbol ⟨offset, c :: ahead ++ (exchange.part ++ exchange.behind)⟩
      ⟨offset, c :: ahead ++ (exchange.part' ++ exchange.behind)⟩ := by
  have replaces := replaces_of_isWord respelt.isWord respelt.isWord' exchange.behind
  have inside (other : symbol ≠ endSymbol) : content <+: c :: ahead := by
    rcases known other with spares | ⟨same, _⟩
    · exact spares.prefix placed split
    · have positive := c.utf8Size_pos
      rw [utf8Length_cons] at placed
      omega
  have keeps : KeepsLine forms (c :: ahead) (exchange.part ++ exchange.behind)
      (exchange.part' ++ exchange.behind) := by
    intro mark id _ _ _ stops
    obtain ⟨w, others, start⟩ := List.exists_cons_of_ne_nil respelt.isWord.ne_nil
    have part := (isWord_iff.mp respelt.isWord).2 w (start ▸ List.mem_cons_self)
    have carriage : w ≠ '\r' := ne_of_wordPart part (by decide)
    have feed : w ≠ '\n' := ne_of_wordPart part (by decide)
    simp [start, lineRest_contains, endsLine, carriage, feed] at stops
  have alike {rest' : List Char}
      (other : symbol ≠ endSymbol)
      (split' : c :: ahead ++ (exchange.part' ++ exchange.behind) = content ++ rest')
      (finds' : language.Finds mode state content rest' symbol after) :=
    Exchange.findsAlike_before id Exchange.Beside.corresponds id placed (inside other) split split'
      finds'
  cases finds with
  | atEnd => cases split
  | scanned nonempty asked found declared =>
      have other : symbol ≠ endSymbol := by
        rintro rfl
        exact knowsNoEnd.externals (List.mem_of_getElem? declared)
      obtain ⟨rest', split', finds'⟩ := scanned_replace scans replaces nonempty asked found declared
        split (inside other)
      exact alike other split' finds'
  | matched _ declines found =>
      have other := knowsNoEnd.matchToken? found
      obtain ⟨rest', split', finds'⟩ := matched_replace spells scans replaces keeps declines found
        split (inside other)
      exact alike other split' finds'
  | @unmatched d behind declines nothing =>
      obtain ⟨rfl, rfl⟩ := List.cons.inj split
      change language.lexer.matchToken? (c :: ahead ++ (exchange.part ++ exchange.behind)) = none
        at nothing
      have nothing' := spells.matchToken?_replace_none replaces nothing
      exact alike (by decide) rfl
        (.unmatched (respelt.declines spells scans declines nothing) nothing')

/-- Where the word is found, the other word is found too. -/
theorem Respelt.finds_word (respelt : Respelt language exchange)
    (knowsNoEnd : language.lexer.KnowsNoEnd) (spells : Spells language.lexer forms)
    (scans : language.scanner = OneScript.scanner)
    (split : exchange.part ++ exchange.behind = content ++ rest)
    (finds : language.Finds mode state content rest symbol after)
    (whole : symbol ≠ endSymbol → utf8Length content = utf8Length exchange.part) :
    content = exchange.part ∧ rest = exchange.behind ∧
      language.Finds mode state exchange.part' exchange.behind symbol after := by
  have same (other : symbol ≠ endSymbol) : content = exchange.part ∧ rest = exchange.behind := by
    obtain rfl := eq_of_prefix_of_utf8Length_le (prefix_of_utf8Length_le ⟨rest, split.symm⟩
      (List.prefix_append _ _) (Nat.le_of_eq (whole other))) (Nat.le_of_eq (whole other).symm)
    exact ⟨rfl, (List.append_cancel_left split).symm⟩
  have filled := respelt.isWord.ne_nil
  obtain ⟨id, listed⟩ := spells.identifier
  obtain ⟨starts, parts⟩ := isWord_iff.mp respelt.isWord
  have here : TokenForm.identifier.content? (exchange.part ++ exchange.behind) =
      some (exchange.part ++ exchange.behind.takeWhile wordPart.contains) := by
    obtain ⟨c, others, start⟩ := List.exists_cons_of_ne_nil filled
    rw [start] at starts parts ⊢
    have starts : (c :: others ++ exchange.behind).head?.any wordStart.contains = true := starts
    rw [TokenForm.content?, if_pos starts, List.takeWhile_append_of_pos parts]
  obtain ⟨longest, chosen, le⟩ := exists_longest listed here
  rw [← spells.matchToken?] at chosen
  cases finds with
  | atEnd => exact absurd (List.append_eq_nil_iff.mp split).1 filled
  | scanned _ _ found declared =>
      rw [scans, ← split] at found
      exact absurd found (not_scan_word respelt.isWord)
  | matched _ declines found =>
      obtain ⟨rfl, rfl⟩ := same (knowsNoEnd.matchToken? found)
      rw [found] at chosen
      obtain rfl := Option.some.inj chosen
      have stops : exchange.behind.head?.any wordPart.contains = false := by
        rw [utf8Length_append] at le
        dsimp only at le
        have empty : exchange.behind.takeWhile wordPart.contains = [] :=
          utf8Length_eq_zero.mp (by omega)
        cases start : exchange.behind with
        | nil => rfl
        | cons c behind =>
            rw [start, List.takeWhile_cons] at empty
            simpa using empty
      refine ⟨rfl, rfl, .matched ?_ ?_ ?_⟩
      · simp [respelt.isWord'.ne_nil]
      · refine .inr fun index length after examined scanned => ?_
        rw [scans] at scanned
        exact absurd scanned (not_scan_word respelt.isWord')
      · exact spells.matchToken?_word respelt.isWord respelt.isWord' stops found
  | unmatched _ nothing =>
      rw [split] at chosen
      cases nothing.symm.trans chosen

/-- The texts with either word are read alike. -/
theorem Respelt.rereads (respelt : Respelt language exchange)
    (knowsNoEnd : language.lexer.KnowsNoEnd) (spells : Spells language.lexer forms)
    (scans : language.scanner = OneScript.scanner) :
    Rereads language exchange.Corresponds exchange.Corresponds exchange.Beside exchange.Beside
      fun start finish _ => exchange.Keeps start finish where
  of_settled := id
  start := Exchange.Beside.corresponds
  place := Exchange.Beside.corresponds
  adjacent := by
    intro cursor other beside
    cases beside with
    | before ahead =>
        cases ahead with
        | nil =>
            have stays {word : List Char} (isWord : IsWord word) :
                (word ++ exchange.behind).takeWhile isBlank = [] := by
              obtain ⟨c, others, rfl⟩ := List.exists_cons_of_ne_nil isWord.ne_nil
              simp [isWord.not_blank c List.mem_cons_self]
            rw [List.nil_append, List.nil_append, stays respelt.isWord, stays respelt.isWord']
        | cons c ahead => simp [List.takeWhile_cons]
    | behind => exact Iff.rfl
  token := by
    intro cursor other mode state after content behind symbol beside split finds isKnown
    have known (inside : symbol ≠ endSymbol) : exchange.Keeps (cursor.skipWhile isBlank).offset
        ((cursor.skipWhile isBlank).offset + utf8Length content) := by
      obtain ⟨_, _, keeps⟩ := isKnown inside
      exact keeps
    cases beside with
    | @before offset ahead placed =>
        rcases run_cases isBlank ahead with allBlank | ⟨first, c, more, rfl, inside, stops⟩
        · have reached {word : List Char} (isWord : IsWord word) : Cursor.skipWhile
              ⟨offset, ahead ++ (word ++ exchange.behind)⟩ isBlank =
                ⟨utf8Length exchange.front, word ++ exchange.behind⟩ := by
            rw [← placed]
            refine Cursor.skipWhile_append allBlank ?_
            obtain ⟨c, others, rfl⟩ := List.exists_cons_of_ne_nil isWord.ne_nil
            exact isWord.not_blank c List.mem_cons_self
          rw [reached respelt.isWord] at split known ⊢
          rw [reached respelt.isWord']
          have whole (inside : symbol ≠ endSymbol) :
              utf8Length content = utf8Length exchange.part := by
            have positive := Exchange.utf8Length_pos (finds.content_ne spells.progresses inside)
            have wide := Exchange.utf8Length_pos respelt.isWord.ne_nil
            rcases known inside with (before | behind) | ⟨_, finish⟩
            · dsimp only at before
              omega
            · dsimp only at behind
              omega
            · dsimp only at finish
              omega
          obtain ⟨rfl, rfl, finds'⟩ :=
            respelt.finds_word knowsNoEnd spells scans split finds whole
          have next : exchange.Beside
              ⟨utf8Length exchange.front + utf8Length exchange.part, exchange.behind⟩
              ⟨utf8Length exchange.front + utf8Length exchange.part', exchange.behind⟩ :=
            .behind 0 exchange.behind
          exact ⟨exchange.part', exchange.behind, rfl, finds', .before (Nat.le_refl _), next,
            fun _ => ⟨fun _ => respelt.keyword, next⟩⟩
        · have reached (rest : List Char) : Cursor.skipWhile
              ⟨offset, first ++ c :: more ++ rest⟩ isBlank =
                ⟨offset + utf8Length first, c :: more ++ rest⟩ := by
            rw [List.append_assoc]
            exact Cursor.skipWhile_append inside (by simpa using stops)
          rw [utf8Length_append, ← Nat.add_assoc] at placed
          rw [reached] at split known ⊢
          rw [reached]
          exact respelt.findsAlike_ahead knowsNoEnd spells scans placed split finds known
    | behind count rest =>
        exact Exchange.findsAlike_behind id Exchange.Beside.corresponds id finds split

end places

end OneScript

open OneScript in
/-- A keyword may be written in any of its spellings and in any case, in every language with the
tokens and the scanner of OneScript and with different spellings for different keywords: where a
leaf is a word for a keyword, a text with another word for this keyword gives the same nodes, with
the places behind it shifted, whether there are errors or not. -/
theorem nodes_of_other_spelling {source : Grammar} {grammar : FlatGrammar} {language : Language}
    (spoken : speaks source = true) (apart : SpellsApart source)
    (flattened : FlatGrammar.ofGrammar source = .ok grammar)
    (loaded : Language.ofGrammar source OneScript.scanner = .ok language)
    (numbered : language.tables.Numbered) {config : ParseConfig} {number : Nat}
    {front word word' behind : List Char} {tree : Tree} {stats : ParseStats}
    (parsed : (Parser.mk config (some ⟨number, language⟩)).parse
      (String.ofList (front ++ word ++ behind)) none = .ok (tree, stats))
    {before after : List Leaf} {leaf : Leaf} (leaves : tree.root.leaves = before ++ leaf :: after)
    (start : utf8Length front = extent before + leaf.padding) (size : utf8Length word = leaf.size)
    {keyword : Keyword} (listed : keyword ∈ source.keywords) (spelt : Spelt keyword word)
    (spelt' : Spelt keyword word') :
    speaks OneScript.grammar = true ∧ SpellsApart OneScript.grammar ∧ ∃ tree' stats',
      (Parser.mk config (some ⟨number, language⟩)).parse
        (String.ofList (front ++ word' ++ behind)) none = .ok (tree', stats') ∧
      tree'.rootNode.sexp = tree.rootNode.sexp ∧
      tree'.rootNode = tree.rootNode.moved (Exchange.mk front word word' behind).shift := by
  refine ⟨grammar_speaks, grammar_spellsApart, ?_⟩
  have represents := Language.represents_of_ofGrammar loaded flattened numbered
  have knowsNoEnd := Language.knowsNoEnd_of_ofGrammar loaded
  have scans := (Language.ofTables_ok (Language.ofGrammar_ok loaded).2).2.2.2.2
  obtain ⟨forms, spells⟩ := spells_of_speaks spoken loaded
  obtain ⟨_, _, _, _, _, plain⟩ := speaks_iff.mp spoken
  have noDigits := plain keyword listed
  let exchange : Exchange := ⟨front, word, word', behind⟩
  have respelt : Respelt language exchange :=
    ⟨spelt.isWord, spelt'.isWord, spelt.not_digit noDigits, spelt'.not_digit noDigits,
      spelt.keyword?_eq apart loaded listed spelt'⟩
  have keeps : ∀ piece ∈ piecesFrom 0 tree.root.leaves, exchange.Keeps
      (piece.start + piece.padding) (piece.start + piece.padding + piece.size) := by
    intro piece member
    rw [leaves] at member
    rcases mem_piecesFrom_cases member with first | rfl | later
    · exact .inl (.inl (by dsimp only [exchange]; omega))
    · refine .inr ⟨?_, ?_⟩
      · dsimp only [exchange]
        omega
      · dsimp only [exchange]
        omega
    · exact .inl (.inr (by dsimp only [exchange]; omega))
  have begins : exchange.Beside (Cursor.start (String.ofList (front ++ word ++ behind)).toList)
      (Cursor.start (String.ofList (front ++ word' ++ behind)).toList) := by
    rw [String.toList_ofList, String.toList_ofList, List.append_assoc, List.append_assoc front]
    exact .before front (Nat.zero_add _)
  obtain ⟨tree', stats', parsed', same, outline, moved⟩ := Parser.parse_of_rereads represents
    knowsNoEnd spells.progresses (respelt.rereads knowsNoEnd spells scans)
    (Exchange.biUnique_corresponds respelt.isWord.ne_nil respelt.isWord'.ne_nil) begins parsed keeps
  have nodes := @Tree.moved_rootNode tree tree' exchange.shift id same outline
    (moved.mono fun corresponds => corresponds.shift_eq respelt.isWord.ne_nil)
  rw [Node.moved_id] at nodes
  refine ⟨tree', stats', parsed', ?_, nodes.symm⟩
  rw [← nodes, Node.sexp_moved]

open OneScript in
/-- A condition in English letters and the same condition in Russian capitals. -/
theorem nodes_of_condition : ∃ grammar language tree stats tree' stats',
    FlatGrammar.ofGrammar conditionGrammar = .ok grammar ∧
      Language.ofGrammar conditionGrammar OneScript.scanner = .ok language ∧
      language.tables.Numbered ∧
      (Parser.mk {} (some ⟨0, language⟩)).parse "if a" none = .ok (tree, stats) ∧
      (Parser.mk {} (some ⟨0, language⟩)).parse "ЕСЛИ a" none = .ok (tree', stats') ∧
      tree'.rootNode.sexp = tree.rootNode.sexp ∧
      tree'.rootNode = tree.rootNode.moved
        (Exchange.mk [] ['i', 'f'] ['Е', 'С', 'Л', 'И'] [' ', 'a']).shift := by
  obtain ⟨grammar, language, tree, stats, flattened, loaded, numbered, parsed, _, first, name, leaves,
    padding, size, _⟩ := exists_condition
  have apart : SpellsApart conditionGrammar := by decide +kernel
  have parts : ['i', 'f', 'Е', 'С', 'Л', 'И'].all wordPart.contains = true := by decide +kernel
  have isPart := List.all_eq_true.mp parts
  have spelt : Spelt ⟨"If", ["if", "если"]⟩ ['i', 'f'] := by
    refine ⟨isWord_iff.mpr ⟨by decide +kernel, fun c member => isPart c ?_⟩, "if", ?_, ?_⟩
    · exact List.mem_append_left _ member
    · decide
    · decide +kernel
  have spelt' : Spelt ⟨"If", ["if", "если"]⟩ ['Е', 'С', 'Л', 'И'] := by
    refine ⟨isWord_iff.mpr ⟨by decide +kernel, fun c member => isPart c ?_⟩, "если", ?_, ?_⟩
    · exact List.mem_append_right ['i', 'f'] member
    · decide
    · decide +kernel
  have text : "if a" = String.ofList ([] ++ ['i', 'f'] ++ [' ', 'a']) := by decide
  have text' : "ЕСЛИ a" = String.ofList ([] ++ ['Е', 'С', 'Л', 'И'] ++ [' ', 'a']) := by decide
  have leaves : tree.root.leaves = [] ++ first :: [name] := leaves
  have start : utf8Length [] = extent [] + first.padding := by
    rw [padding]
    rfl
  have length : utf8Length ['i', 'f'] = first.size := by
    rw [size]
    rfl
  rw [text] at parsed
  obtain ⟨_, _, tree', stats', parsed', sexp, nodes⟩ := nodes_of_other_spelling
    conditionGrammar_speaks apart flattened loaded numbered parsed leaves start length
    (List.mem_singleton.mpr rfl) spelt spelt'
  rw [← text] at parsed
  rw [← text'] at parsed'
  exact ⟨grammar, language, tree, stats, tree', stats', flattened, loaded, numbered, parsed, parsed',
    sexp, nodes⟩

end Lalr
