import Lalr.Proofs.Language.Lexer
import Lalr.Proofs.OneScript.Border
import Lalr.Proofs.Parser.Takeover
import Lalr.Proofs.Parser.View

set_option autoImplicit false

/-!
What is built from a piece of a text is built from it wherever it stands, as long as the text behind
it starts in the same way. In a language with the tokens of OneScript the first character of the
text behind counts, and the token that is read there.
-/

namespace Lalr

open Lalr.Text

/-! ## Lexemes that are read alike -/

section reading

variable {language : Language} {mode : ValidExternals} {scanner after : ScannerState}
  {text content rest other last : List Char} {symbol : SymbolId} {lexeme : Lexeme}

theorem Language.Reads.exists_found (reads : language.Reads mode text scanner lexeme last) :
    ∃ content text behind scanner after symbol,
      language.StandsFirst mode scanner text content behind symbol after ∧
      lexeme.raw = (language.keywordOf symbol content).getD symbol ∧
      lexeme.word = (language.keywordOf symbol content).map fun _ => symbol := by
  obtain ⟨_, rest, _, _, reads⟩ := reads.strip
  obtain ⟨content, symbol, after, stands, _, shape⟩ := reads.of_no_extras rfl
  exact ⟨content, rest, last, lexeme.scannerBefore, after, symbol, stands,
    congrArg Lexeme.raw shape, congrArg Lexeme.word shape⟩

theorem Language.keywordOf_eq_some {keyword : SymbolId}
    (known : language.keywordOf symbol content = some keyword) :
    language.lexer.word = some symbol ∧ language.lexer.keyword? content = some keyword := by
  unfold keywordOf at known
  split at known
  case isTrue isWord => exact ⟨isWord, known⟩
  case isFalse => cases known

/-- What is found is not the symbol of a keyword. -/
theorem Language.Finds.keyword?_ne (knowsNoEnd : language.lexer.KnowsNoEnd)
    (knowsNoError : language.lexer.KnowsNoError) (findsNoKeyword : language.lexer.FindsNoKeyword)
    (finds : language.Finds mode scanner content rest symbol after) (word : List Char) :
    language.lexer.keyword? word ≠ some symbol := by
  intro spelled
  cases finds with
  | atEnd => exact knowsNoEnd.keyword? spelled rfl
  | scanned _ _ _ declared =>
      exact findsNoKeyword.external spelled (List.mem_of_getElem? declared)
  | matched _ _ found => exact findsNoKeyword.found found spelled
  | unmatched => exact knowsNoError.tokens (Lexer.mem_tokens_of_keyword? spelled)

/-- Lexemes that are the same token stand for the same word. -/
theorem Language.Reads.word_eq (knowsNoEnd : language.lexer.KnowsNoEnd)
    (knowsNoError : language.lexer.KnowsNoError) (findsNoKeyword : language.lexer.FindsNoKeyword)
    {mode' : ValidExternals} {scanner' : ScannerState} {text' last' : List Char} {lexeme' : Lexeme}
    (reads : language.Reads mode text scanner lexeme last)
    (reads' : language.Reads mode' text' scanner' lexeme' last') (same : lexeme'.raw = lexeme.raw) :
    lexeme'.word = lexeme.word := by
  obtain ⟨content, _, _, _, _, symbol, stands, raw, word⟩ := reads.exists_found
  obtain ⟨content', _, _, _, _, symbol', stands', raw', word'⟩ := reads'.exists_found
  rw [raw, raw'] at same
  rw [word, word']
  cases known : language.keywordOf symbol content with
  | none =>
      cases known' : language.keywordOf symbol' content' with
      | none => rfl
      | some keyword =>
          rw [known, known'] at same
          obtain rfl : keyword = symbol := same
          exact absurd (keywordOf_eq_some known').2
            (stands.finds.keyword?_ne knowsNoEnd knowsNoError findsNoKeyword content')
  | some keyword =>
      cases known' : language.keywordOf symbol' content' with
      | none =>
          rw [known, known'] at same
          obtain rfl : symbol' = keyword := same
          exact absurd (keywordOf_eq_some known).2
            (stands'.finds.keyword?_ne knowsNoEnd knowsNoError findsNoKeyword content)
      | some =>
          have isWord := (keywordOf_eq_some known).1.symm.trans (keywordOf_eq_some known').1
          obtain rfl := Option.some.inj isWord
          rfl

theorem Language.Reads.exists_again (progresses : language.lexer.Progresses)
    (reads : language.Reads mode text scanner lexeme last) {behind : List Char}
    (again : language.Reads mode other scanner lexeme behind) (found : Lexeme) (farther : List Char)
    (read : language.Reads mode text scanner found farther) :
    ∃ farther', language.Reads mode other scanner found farther' := by
  obtain ⟨rfl, _⟩ := read.unique progresses reads
  exact ⟨_, again⟩

/-- The same content in front of another text stands first in it. -/
theorem Language.StandsFirst.replace
    (stands : language.StandsFirst mode scanner text content rest symbol after)
    (filled : content ≠ []) (finds : language.Finds mode scanner content other symbol after) :
    (text.takeWhile isBlank ++ content ++ other).takeWhile isBlank = text.takeWhile isBlank ∧
      language.StandsFirst mode scanner (text.takeWhile isBlank ++ content ++ other) content other
        symbol after := by
  obtain ⟨c, content, rfl⟩ := List.exists_cons_of_ne_nil filled
  have inside : ∀ d ∈ text.takeWhile isBlank, isBlank d = true := fun _ => List.mem_takeWhile_imp
  have stops : isBlank c = false := by
    have first := List.head?_dropWhile_not isBlank text
    rw [stands.split] at first
    simpa using first
  rw [List.append_assoc, List.cons_append]
  exact ⟨takeWhile_closed inside stops, dropWhile_closed inside stops, finds⟩

end reading

namespace OneScript

/-! ## Languages whose tokens end apart -/

/-- What a language with the tokens of OneScript keeps apart. Nothing ends with a slash or in front
of a twin, and no point follows a number. -/
structure Delimits (language : Language) (forms : List (TokenForm × SymbolId)) : Prop where
  extras : ∀ form id, (form, id) ∈ forms → language.lexer.isExtra id = true →
    ∃ mark, form = .line mark
  error : language.lexer.isExtra errorSymbol = false
  word : ∀ form id, (form, id) ∈ forms → language.lexer.word = some id → form = .identifier
  slash : ∀ id symbol state next, (.literal ['/'], id) ∈ forms →
    symbol = id ∨ language.lexer.twin? id = some symbol →
    language.action state symbol = .shift next →
      ∀ follower rule, language.action next follower ≠ .reduce rule
  point : ∀ number symbol state next, (.number, number) ∈ forms →
    symbol = number ∨ language.lexer.twin? number = some symbol →
    language.action state symbol = .shift next → ∀ id follower, (.literal ['.'], id) ∈ forms →
      follower = id ∨ language.lexer.twin? id = some follower →
        language.action next follower = .error
  twin : ∀ state symbol next follower rule, language.action state symbol = .shift next →
    language.action next follower = .reduce rule → ∀ base twin,
      language.lexer.twin? base = some twin → language.action next twin = .error

/-- A language with the tokens of OneScript that knows its tokens apart. -/
structure Tokenizes (language : Language) (forms : List (TokenForm × SymbolId)) : Prop where
  spells : Spells language.lexer forms
  scans : language.scanner = OneScript.scanner
  delimits : Delimits language forms
  knowsNoEnd : language.lexer.KnowsNoEnd
  knowsNoError : language.lexer.KnowsNoError
  findsNoKeyword : language.lexer.FindsNoKeyword
  apart : language.lexer.SetsApart
  error : ∀ state, language.action state errorSymbol = .error

/-- A text can follow a moment of a parse in the place of the one that does. -/
structure Follows (language : Language) (last : Juncture) (behind : List Char) : Prop where
  meets : (∃ c tail tail', last.text = c :: tail ∧ behind = c :: tail') ∨
    (IdleStart last.text ∧ IdleStart behind)
  reads : ∃ following farther following' farther',
    language.Reads last.mode last.text last.scanner following farther ∧
    language.Reads last.mode behind last.scanner following' farther' ∧
    following'.raw = following.raw

/-- Subtrees end with a node, or with a token that completes a production. -/
def Ends (language : Language) (items : List (StateId × Subtree)) (last : Juncture) : Prop :=
  ∃ final, items.getLast? = some final ∧ final.2.isExtra = false ∧
    ((∃ head children, final.2 = .node head children) ∨
      ∃ rule, language.action last.state last.symbol = .reduce rule)

theorem Ends.tail {language : Language} {item : StateId × Subtree}
    {items : List (StateId × Subtree)} {last : Juncture} (ends : Ends language (item :: items) last)
    (more : items ≠ []) : Ends language items last := by
  obtain ⟨final, isLast, rest⟩ := ends
  rw [List.getLast?_cons_of_ne_nil more] at isLast
  exact ⟨final, isLast, rest⟩

/-- What is built from a piece of a text is built from it in front of another text too, and what is
read first in the piece is read again. -/
structure Carried (language : Language) (here last : Juncture) (items : List (StateId × Subtree))
    (piece behind : List Char) : Prop where
  builds : language.Builds { here with text := piece ++ behind } items { last with text := behind }
  reads : ∀ lexeme farther, language.Reads here.mode here.text here.scanner lexeme farther →
    ∃ farther', language.Reads here.mode (piece ++ behind) here.scanner lexeme farther'

namespace Tokenizes

variable {language : Language} {forms : List (TokenForm × SymbolId)}
  (tokenizes : Tokenizes language forms) {mode : ValidExternals} {scanner after : ScannerState}
  {text content rest last : List Char} {symbol : SymbolId} {lexeme : Lexeme}

include tokenizes

/-- A token that has a form but is no word is read as itself. -/
theorem keywordOf_eq_none {form : TokenForm} (listed : (form, symbol) ∈ forms)
    (other : form ≠ .identifier) (content : List Char) : language.keywordOf symbol content = none := by
  unfold Language.keywordOf
  rw [if_neg fun isWord => other (tokenizes.delimits.word form symbol listed isWord)]

/-- In front of the end of a text everything is idle. -/
theorem idleStart_of_end (reads : language.Reads mode text scanner lexeme last)
    (atEnd : lexeme.raw = endSymbol) : IdleStart text := by
  cases text with
  | nil => exact .inl (fun _ first => by cases first)
  | cons c text =>
  by_cases blank : isBlank c = true
  · exact .inl (fun d first => Option.some.inj first ▸ blank)
  have whole : (c :: text).dropWhile isBlank = c :: text := by simp [blank]
  cases reads with
  | @token _ content behind _ _ symbol stands final =>
      have isEnd : symbol = endSymbol := by
        cases known : language.keywordOf symbol content with
        | none =>
            simp only [Language.wordedLexeme, known] at atEnd
            exact atEnd
        | some keyword =>
            simp only [Language.wordedLexeme, known] at atEnd
            exact absurd atEnd
              (tokenizes.knowsNoEnd.keyword? (Language.keywordOf_eq_some known).2)
      subst isEnd
      have split := stands.split
      rw [whole] at split
      cases stands.finds with
      | atEnd => cases split
      | scanned _ _ _ declared =>
          exact absurd (List.mem_of_getElem? declared) tokenizes.knowsNoEnd.externals
      | matched _ _ found => exact absurd rfl (tokenizes.knowsNoEnd.matchToken? found)
  | @extra _ content behind _ _ _ symbol _ stands inside isExtra _ =>
      have split := stands.split
      rw [whole] at split
      cases stands.finds with
      | atEnd => exact absurd rfl inside
      | scanned _ _ _ declared =>
          exact absurd (List.mem_of_getElem? declared) (tokenizes.apart.extra isExtra)
      | unmatched =>
          rw [tokenizes.delimits.error] at isExtra
          cases isExtra
      | matched _ _ found =>
          obtain ⟨form, known, here⟩ := tokenizes.spells.exists_form found
          obtain ⟨mark, rfl⟩ := tokenizes.delimits.extras form symbol known isExtra
          simp only [TokenForm.content?, Option.ite_none_right_eq_some] at here
          rw [split]
          rcases tokenizes.spells.mark mark symbol known with rfl | rfl
          · exact .inr (.inr here.1)
          · exact .inr (.inl here.1)

/-- At a point a point is read, or nothing that is known. -/
theorem reads_point (reads : language.Reads mode ('.' :: text) scanner lexeme last) :
    lexeme.extras = [] ∧ lexeme.word = none ∧
      (lexeme.raw = errorSymbol ∨ (.literal ['.'], lexeme.raw) ∈ forms) := by
  have whole : ('.' :: text).dropWhile isBlank = '.' :: text := rfl
  have known : ∀ {content behind symbol after},
      language.StandsFirst mode scanner ('.' :: text) content behind symbol after →
        symbol = errorSymbol ∨ (.literal ['.'], symbol) ∈ forms := by
    intro content behind symbol after stands
    have split := stands.split
    rw [whole] at split
    cases stands.finds with
    | atEnd => cases split
    | unmatched => exact .inl rfl
    | scanned nonempty _ found =>
        obtain ⟨c, content, rfl⟩ := List.exists_cons_of_ne_nil nonempty
        obtain ⟨rfl, _⟩ := List.cons.inj split
        rw [tokenizes.scans] at found
        have found : scan ('.' :: (content ++ behind)) mode scanner = _ := found
        rcases scan_cases found with ⟨wrong, _⟩ | ⟨wrong, _⟩ | ⟨wrong, _⟩ <;> cases wrong
    | matched more _ found =>
        obtain ⟨form, listed, here⟩ := tokenizes.spells.exists_form found
        rw [← split] at here
        cases form with
        | identifier =>
            simp only [TokenForm.content?, Option.ite_none_right_eq_some] at here
            exact absurd (not_mem_foreign (wordPart_of_wordStart here.1)) (by decide)
        | number => cases here
        | line mark =>
            simp only [TokenForm.content?, Option.ite_none_right_eq_some] at here
            obtain ⟨⟨more, shape⟩, _⟩ := here
            rcases tokenizes.spells.mark mark symbol listed with rfl | rfl <;> cases shape
        | literal sign =>
            simp only [TokenForm.content?, Option.ite_none_right_eq_some] at here
            obtain ⟨d, sign, rfl⟩ :=
              List.exists_cons_of_ne_nil (tokenizes.spells.isKnown listed).1
            obtain ⟨rfl, _⟩ := List.cons_prefix_cons.mp here.1
            have alone := point_alone _ (tokenizes.spells.sign _ symbol listed)
            rw [String.toList_ofList] at alone
            exact .inr (alone rfl ▸ listed)
  cases reads with
  | @token _ content _ _ _ symbol stands final =>
      have plain : language.keywordOf symbol content = none := by
        rcases known stands with rfl | listed
        · exact if_neg tokenizes.spells.word
        · exact tokenizes.keywordOf_eq_none listed (by simp) content
      refine ⟨rfl, ?_, ?_⟩
      · simp only [Language.wordedLexeme, plain, Option.map_none]
      · simpa only [Language.wordedLexeme, plain, Option.getD_none] using known stands
  | @extra _ _ _ _ _ _ symbol _ stands _ isExtra _ =>
      rcases known stands with rfl | listed
      · rw [tokenizes.delimits.error] at isExtra
        cases isExtra
      · obtain ⟨mark, wrong⟩ := tokenizes.delimits.extras _ symbol listed isExtra
        cases wrong

/-- A number that is accepted is followed by no point, if anything can be done behind it. -/
theorem not_point {state next : StateId} {number : SymbolId} (listed : (.number, number) ∈ forms)
    (standsFor : symbol = number ∨ language.lexer.twin? number = some symbol)
    (shifted : language.action state symbol = .shift next)
    (reads : language.Reads mode text scanner lexeme last)
    (acts : language.action next (resolveSymbol language next lexeme) ≠ .error) :
    '.' ∉ text.head? := by
  intro first
  obtain ⟨text, rfl⟩ := List.head?_eq_some_iff.mp first
  obtain ⟨_, word, raw⟩ := tokenizes.reads_point reads
  obtain ⟨base, isBase, same⟩ := Lexeme.standsFor_resolveSymbol language next lexeme
  obtain rfl : base = lexeme.raw := isBase.resolve_right (by simp [word])
  rcases raw with error | isPoint
  · rw [error, tokenizes.knowsNoError.twin] at same
    rw [same.resolve_right (Option.some_ne_none _).symm] at acts
    exact acts (tokenizes.error next)
  · exact acts (tokenizes.delimits.point number symbol state next listed standsFor shifted _ _
      isPoint same)

/-- Behind a token that ends something no twin is looked for. -/
theorem resolveSymbol_eq {state next : StateId} {follower : SymbolId} {rule : ProductionId}
    (shifted : language.action state symbol = .shift next)
    (reduced : language.action next follower = .reduce rule) (lexeme : Lexeme) :
    resolveSymbol language next lexeme = lexeme.readAs language next := by
  have plain (base : SymbolId) : Lexeme.twinOr language next base = base := by
    unfold Lexeme.twinOr
    split
    case h_1 twin known =>
        rw [if_pos (tokenizes.delimits.twin state symbol next follower rule shifted reduced base twin
          known)]
    case h_2 => rfl
  rw [Lexeme.resolveSymbol_eq, plain, ite_self]

/-! ## Single tokens in front of another text -/

theorem eq_or_twin_of_standsFor {form : TokenForm} (listed : (form, symbol) ∈ forms)
    (other : form ≠ .identifier) {padding : Nat} {accepted : SymbolId}
    (standsFor : (language.wordedLexeme symbol content padding mode scanner after).StandsFor
      language accepted) :
    accepted = symbol ∨ language.lexer.twin? symbol = some accepted := by
  obtain ⟨base, isBase, same⟩ := standsFor
  have plain := tokenizes.keywordOf_eq_none listed other content
  simp only [Language.wordedLexeme, plain, Option.map_none, Option.getD_none, reduceCtorEq,
    or_false] at isBase
  exact isBase ▸ same

/-- An extra stands first in every text that starts with the same character behind it. -/
theorem extra_cons {c : Char}
    (stands : language.StandsFirst mode scanner text content (c :: rest) symbol after)
    (inside : symbol ≠ endSymbol) (isExtra : language.lexer.isExtra symbol = true)
    (other : List Char) :
    (text.takeWhile isBlank ++ content ++ c :: other).takeWhile isBlank = text.takeWhile isBlank ∧
      language.StandsFirst mode scanner (text.takeWhile isBlank ++ content ++ c :: other) content
        (c :: other) symbol after := by
  have filled := stands.finds.content_ne tokenizes.spells.progresses inside
  refine stands.replace filled ?_
  refine finds_cons tokenizes.spells tokenizes.scans stands.finds filled ?_ ?_ other
  · rintro rfl
    rw [tokenizes.delimits.error] at isExtra
    cases isExtra
  · intro listed
    obtain ⟨mark, wrong⟩ := tokenizes.delimits.extras _ symbol listed isExtra
    cases wrong

/-- A token that is accepted is read in front of a text that starts in the same way. -/
theorem token_of_meets {state next : StateId} {accepted : SymbolId} {following : Lexeme}
    {farther other : List Char} (reads : language.Reads mode text scanner lexeme rest)
    (alone : lexeme.extras = []) (inside : lexeme.raw ≠ endSymbol)
    (real : lexeme.raw ≠ errorSymbol) (standsFor : lexeme.StandsFor language accepted)
    (shifted : language.action state accepted = .shift next)
    (readsNext : language.Reads (language.lexMode next) rest lexeme.scannerAfter following farther)
    (acts : language.action next (resolveSymbol language next following) ≠ .error)
    (meets : (∃ c tail tail', rest = c :: tail ∧ other = c :: tail') ∨
      (IdleStart rest ∧ IdleStart other ∧
        ∃ rule, language.action next (resolveSymbol language next following) = .reduce rule)) :
    ∃ piece, text = piece ++ rest ∧ language.Reads mode (piece ++ other) scanner lexeme other := by
  obtain ⟨content, symbol, after, stands, final, rfl⟩ := reads.of_no_extras alone
  have notEnd : symbol ≠ endSymbol := by
    rintro rfl
    refine inside ?_
    simp [Language.wordedLexeme, Language.keywordOf, tokenizes.knowsNoEnd.word]
  have notError : symbol ≠ errorSymbol := by
    rintro rfl
    refine real ?_
    simp [Language.wordedLexeme, Language.keywordOf, tokenizes.spells.word]
  have filled := stands.finds.content_ne tokenizes.spells.progresses notEnd
  have finds : language.Finds mode scanner content other symbol after := by
    rcases meets with ⟨c, tail, tail', rfl, rfl⟩ | ⟨idle, idle', rule, reduced⟩
    · refine finds_cons tokenizes.spells tokenizes.scans stands.finds filled notError ?_ tail'
      rintro listed _ rfl
      exact tokenizes.not_point listed (tokenizes.eq_or_twin_of_standsFor listed (by simp) standsFor)
        shifted readsNext acts (List.head?_cons ..)
    · refine finds_of_idle tokenizes.spells tokenizes.scans stands.finds filled notError
        (final.resolve_left notEnd) (fun listed => ?_) idle idle'
      exact tokenizes.delimits.slash symbol accepted state next listed
        (tokenizes.eq_or_twin_of_standsFor listed (by simp) standsFor) shifted _ rule reduced
  obtain ⟨blanks, stands'⟩ := stands.replace filled finds
  refine ⟨_, stands.text_eq, ?_⟩
  have reads' := Language.Reads.token stands' final
  rwa [blanks] at reads'

/-! ## Pieces in front of another text -/

theorem resolveSymbol_congr {state next : StateId} {accepted follower : SymbolId}
    (shifted : language.action state accepted = .shift next) {rule : ProductionId}
    (reduced : language.action next follower = .reduce rule) {mode' : ValidExternals}
    {scanner' : ScannerState} {text' last' : List Char} {lexeme' : Lexeme}
    (reads : language.Reads mode text scanner lexeme rest)
    (reads' : language.Reads mode' text' scanner' lexeme' last') (same : lexeme'.raw = lexeme.raw) :
    resolveSymbol language next lexeme' = resolveSymbol language next lexeme := by
  have word := reads.word_eq tokenizes.knowsNoEnd tokenizes.knowsNoError tokenizes.findsNoKeyword
    reads' same
  rw [tokenizes.resolveSymbol_eq shifted reduced, tokenizes.resolveSymbol_eq shifted reduced,
    Lexeme.readAs, Lexeme.readAs, word, same]

section pieces

variable {here final : Juncture} {items : List (StateId × Subtree)} {following : Lexeme}
  {piece behind tail farther : List Char} {c : Char} {next : StateId}

theorem carried_extra
    (rest : Carried language { here with text := c :: (tail ++ final.text), scanner := after } final
      items (c :: tail) behind)
    (stands : language.StandsFirst here.mode here.scanner here.text content
      (c :: (tail ++ final.text)) symbol after)
    (inside : symbol ≠ endSymbol) (isExtra : language.lexer.isExtra symbol = true)
    (split : here.text = piece ++ final.text) :
    Carried language here final ((here.state, .leaf (extraLeaf symbol
      (utf8Length (here.text.takeWhile isBlank)) (utf8Length content) here.mode here.scanner
        after)) :: items) piece behind := by
  obtain ⟨blanks, stands'⟩ := tokenizes.extra_cons stands inside isExtra (tail ++ behind)
  have whole : piece = here.text.takeWhile isBlank ++ content ++ c :: tail := by
    refine (List.append_left_inj final.text).mp ?_
    rw [← split, List.append_assoc _ (c :: tail)]
    exact stands.text_eq
  have text : piece ++ behind =
      here.text.takeWhile isBlank ++ content ++ c :: (tail ++ behind) := by
    rw [whole, List.append_assoc _ (c :: tail)]
    rfl
  rw [← text] at blanks stands'
  constructor
  · have extra := @Language.Builds.extra language { here with text := piece ++ behind } _
      content (c :: (tail ++ behind)) after symbol items stands' inside isExtra rest.builds
    rwa [blanks] at extra
  · intro lexeme farther reads
    obtain ⟨extras, leading, reads⟩ := reads.extra_first stands inside isExtra
    obtain ⟨farther', again⟩ := rest.reads _ _ reads
    have extra := Language.Reads.extra stands' inside isExtra again
    rw [blanks, Lexeme.extras_withExtras, ← leading] at extra
    exact ⟨farther', extra⟩

theorem carried_final_token (reads : language.Reads here.mode here.text here.scanner lexeme rest)
    (alone : lexeme.extras = []) (inside : lexeme.raw ≠ endSymbol)
    (real : lexeme.raw ≠ errorSymbol) (standsFor : lexeme.StandsFor language here.symbol)
    (shifted : language.action here.state here.symbol = .shift next)
    (readsNext : language.Reads (language.lexMode next) rest lexeme.scannerAfter following farther)
    {rule : ProductionId}
    (reduced : language.action next (resolveSymbol language next following) = .reduce rule)
    (follows : Follows language ⟨next, resolveSymbol language next following, rest,
      lexeme.scannerAfter, language.lexMode next⟩ behind)
    (split : here.text = piece ++ rest) :
    Carried language here ⟨next, resolveSymbol language next following, rest, lexeme.scannerAfter,
      language.lexMode next⟩ [(next, (Subtree.leaf (lexeme.toLeaf here.symbol here.state)).bare)]
      piece behind := by
  have progresses := tokenizes.spells.progresses
  obtain ⟨_, _, following', _, reads₀, reads', same⟩ := follows.reads
  obtain ⟨rfl, _⟩ := readsNext.unique progresses reads₀
  obtain ⟨piece', split', token⟩ := tokenizes.token_of_meets reads alone inside real standsFor
    shifted readsNext (by rw [reduced]; simp)
    (follows.meets.imp_right fun idle => ⟨idle.1, idle.2, rule, reduced⟩)
  obtain rfl := List.append_cancel_right (split'.symm.trans split)
  refine ⟨?_, reads.exists_again progresses token⟩
  have built : language.Builds { here with text := piece' ++ behind } _ _ :=
    .token token alone inside real standsFor shifted reads' (.nil _)
  rwa [tokenizes.resolveSymbol_congr shifted reduced readsNext reads' same] at built

theorem carried_token (carried : Carried language ⟨next, resolveSymbol language next following,
      c :: (tail ++ final.text), lexeme.scannerAfter, language.lexMode next⟩ final items (c :: tail)
      behind)
    (reads : language.Reads here.mode here.text here.scanner lexeme (c :: (tail ++ final.text)))
    (alone : lexeme.extras = []) (inside : lexeme.raw ≠ endSymbol)
    (real : lexeme.raw ≠ errorSymbol) (standsFor : lexeme.StandsFor language here.symbol)
    (shifted : language.action here.state here.symbol = .shift next)
    (readsNext : language.Reads (language.lexMode next) (c :: (tail ++ final.text))
      lexeme.scannerAfter following farther)
    (acts : language.action next (resolveSymbol language next following) ≠ .error)
    (split : here.text = piece ++ final.text) :
    Carried language here final
      ((next, (Subtree.leaf (lexeme.toLeaf here.symbol here.state)).bare) :: items) piece
      behind := by
  obtain ⟨farther', readsNext'⟩ := carried.reads _ _ readsNext
  obtain ⟨piece', split', token⟩ := tokenizes.token_of_meets reads alone inside real standsFor
    shifted readsNext acts (.inl ⟨c, tail ++ final.text, tail ++ behind, rfl, rfl⟩)
  have whole : piece = piece' ++ c :: tail := by
    refine (List.append_left_inj final.text).mp ?_
    rw [← split, List.append_assoc]
    exact split'
  have text : piece ++ behind = piece' ++ c :: (tail ++ behind) := by
    rw [whole, List.append_assoc]
    rfl
  rw [← text] at token
  refine ⟨?_, reads.exists_again tokenizes.spells.progresses token⟩
  exact @Language.Builds.token language { here with text := _ } _ _ _ _ _ _ _ token alone inside
    real standsFor shifted readsNext' carried.builds

/-- What is built behind a node settles in front of which texts its children are built. -/
theorem follows_of_carried {before : Juncture} {state : StateId} {outer : List Char}
    (builds : language.Builds { before with state } items final)
    (carried : items ≠ [] → Carried language { before with state } final items outer behind)
    (reads : language.Reads before.mode before.text before.scanner following farther)
    (split : before.text = outer ++ final.text) (follows : Follows language final behind) :
    Follows language before (outer ++ behind) ∧
      language.Builds { before with state, text := outer ++ behind } items
        { final with text := behind } := by
  by_cases more : items = []
  · subst more
    cases builds
    obtain rfl : outer = [] := List.self_eq_append_left.mp split
    exact ⟨⟨follows.meets, follows.reads⟩, .nil _⟩
  · obtain ⟨builds', reads'⟩ := carried more
    obtain ⟨farther', again⟩ := reads' _ _ reads
    obtain ⟨c, tail, front⟩ :=
      builds.exists_front tokenizes.knowsNoEnd tokenizes.spells.progresses more
    have front : before.text = c :: tail ++ final.text := front
    obtain rfl := List.append_cancel_right (split.symm.trans front)
    exact ⟨⟨.inl ⟨c, tail ++ final.text, tail ++ behind, front, rfl⟩,
      following, farther, following, farther', reads, again, rfl⟩, builds'⟩

end pieces

/-- Pieces that are built are built in front of every text that can follow in the place of the one
that does; and what is read in front of them is read again. -/
theorem carry {here last : Juncture} {items : List (StateId × Subtree)} {piece behind : List Char}
    (builds : language.Builds here items last) (split : here.text = piece ++ last.text)
    (ends : Ends language items last) (follows : Follows language last behind) :
    Carried language here last items piece behind := by
  have progresses := tokenizes.spells.progresses
  induction builds generalizing piece behind with
  | nil =>
      obtain ⟨final, isLast, _⟩ := ends
      cases isLast
  | @extra here last content rest after symbol items stands inside isExtra builds ih =>
      have more : items ≠ [] := by
        rintro rfl
        obtain ⟨final, isLast, structural, _⟩ := ends
        obtain rfl := Option.some.inj isLast
        cases structural
      obtain ⟨c, tail, shape⟩ := builds.exists_front tokenizes.knowsNoEnd progresses more
      obtain rfl : rest = c :: (tail ++ last.text) := shape
      exact tokenizes.carried_extra (ih rfl (ends.tail more) follows) stands inside isExtra split
  | @token here last lexeme following rest farther next items reads alone inside real standsFor action
      readsNext builds ih =>
      by_cases more : items = []
      · subst more
        cases builds
        obtain ⟨final, isLast, _, node | ⟨rule, reduced⟩⟩ := ends
        · obtain rfl := Option.some.inj isLast
          obtain ⟨head, children, wrong⟩ := node
          cases wrong
        exact tokenizes.carried_final_token reads alone inside real standsFor action readsNext
          reduced follows split
      · obtain ⟨c, tail, shape⟩ := builds.exists_front tokenizes.knowsNoEnd progresses more
        obtain rfl : rest = c :: (tail ++ last.text) := shape
        have acts : language.action next (resolveSymbol language next following) ≠ .error := by
          obtain ⟨final, isLast, structural, _⟩ := ends.tail more
          exact builds.acts ⟨final, List.mem_of_getLast? isLast, structural⟩
        exact tokenizes.carried_token (ih rfl (ends.tail more) follows) reads alone inside real
          standsFor action readsNext acts split
  | @node here before last children following farther id production next items builds first final
      reads real action found count leads rest ihChildren ih =>
      obtain ⟨inner, shape, _⟩ := builds.exists_piece
      obtain ⟨outer, shape', _⟩ := rest.exists_piece
      have shape' : before.text = outer ++ last.text := shape'
      -- the node behind the children is completed at a token that is read again
      obtain ⟨follows', rest'⟩ := tokenizes.follows_of_carried rest
        (fun more => ih shape' (ends.tail more) follows) reads shape' follows
      obtain ⟨final, isLast, structural⟩ := final
      obtain ⟨builds', reads'⟩ := ihChildren shape ⟨final, isLast, structural, .inr ⟨id, action⟩⟩
        follows'
      obtain ⟨following₀, _, following', farther', reads₀, again, same⟩ := follows'.reads
      obtain ⟨rfl, _⟩ := reads.unique progresses reads₀
      have text : piece ++ behind = inner ++ (outer ++ behind) := by
        refine (congrArg (· ++ behind) ((List.append_left_inj last.text).mp ?_)).trans
          (List.append_assoc inner outer behind)
        rw [← split, List.append_assoc, ← shape']
        exact shape
      rw [← text] at builds' reads'
      refine ⟨?_, reads'⟩
      have node := Language.Builds.node builds' first ⟨final, isLast, structural⟩ again (same ▸ real)
        action found count leads rest'
      rwa [same] at node

/-- A language with the tokens of OneScript that ends its tokens apart carries over what it builds. -/
theorem carries : language.Carries := by
  intro here last next head children piece behind following following' farther farther' builds split
    reads reads' same starts
  obtain ⟨_, _, _, _, _, _, _, _, _, _, _, _, _, _, _, made, _⟩ := builds.exists_children
  have ends : Ends language [(next, .node head children)] last :=
    ⟨_, rfl, congrArg NodeHead.extra made, .inl ⟨head, children, rfl⟩⟩
  have follows : Follows language last behind := by
    refine ⟨?_, following, farther, following', farther', reads, reads', same⟩
    rcases starts with atEnd | alike
    · exact .inr ⟨tokenizes.idleStart_of_end reads atEnd,
        tokenizes.idleStart_of_end reads' (same.trans atEnd)⟩
    · exact .inl alike
  exact (tokenizes.carry builds split ends follows).builds

end Tokenizes

end OneScript

end Lalr
