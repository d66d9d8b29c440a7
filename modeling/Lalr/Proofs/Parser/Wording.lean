import Lalr.Proofs.Parser.Placement
import Lalr.Proofs.Parser.Rereading

set_option autoImplicit false

/-!
Lexemes apart from their places. What is read from a text in a mode depends on the text from the
place on and not on where the place is, nor on what has been examined before.
-/

namespace Lalr

open Lalr.Text

namespace Lexeme

/-- A lexeme apart from its place and from what became of it since it was read. -/
def core (lexeme : Lexeme) : Lexeme :=
  { lexeme with start := 0, tokenStart := 0, examinedEnd := 0, fresh := true, symbol := none }

/-- A lexeme with other extras before the token. -/
def withExtras (lexeme : Lexeme) (extras : List Leaf) : Lexeme :=
  { lexeme with extras := extras }

@[simp] theorem extras_withExtras (lexeme : Lexeme) (extras : List Leaf) :
    (lexeme.withExtras extras).extras = extras := rfl

@[simp] theorem withExtras_withExtras (lexeme : Lexeme) (extras others : List Leaf) :
    (lexeme.withExtras extras).withExtras others = lexeme.withExtras others := rfl

@[simp] theorem core_withExtras (lexeme : Lexeme) (extras : List Leaf) :
    (lexeme.withExtras extras).core = lexeme.core.withExtras extras := rfl

@[simp] theorem core_core (lexeme : Lexeme) : lexeme.core.core = lexeme.core := rfl

@[simp] theorem core_asRead (lexeme : Lexeme) : lexeme.asRead.core = lexeme.core := rfl

/-- A symbol that a token can be accepted as: its own or that of its word, or the twin of one of
them. -/
def StandsFor (lexeme : Lexeme) (language : Language) (symbol : SymbolId) : Prop :=
  ∃ base, (base = lexeme.raw ∨ lexeme.word = some base) ∧
    (symbol = base ∨ language.lexer.twin? base = some symbol)

theorem standsFor_resolveSymbol (language : Language) (state : StateId) (lexeme : Lexeme) :
    lexeme.StandsFor language (resolveSymbol language state lexeme) := by
  have base : lexeme.readAs language state = lexeme.raw ∨
      lexeme.word = some (lexeme.readAs language state) := by
    unfold readAs
    cases lexeme.word with
    | none => exact .inl rfl
    | some word => by_cases keywords : language.acceptsKeywords state = true <;> simp [keywords]
  refine ⟨lexeme.readAs language state, base, ?_⟩
  rw [resolveSymbol_eq, twinOr]
  split
  case isTrue =>
      cases language.lexer.twin? (lexeme.readAs language state) with
      | none => exact .inl rfl
      | some twin =>
          by_cases refused : language.action state twin = .error <;> simp [refused]
  case isFalse => exact .inl rfl

/-- A symbol that a token is known to stand for is one that it can be accepted as. -/
def StandsRight (lexeme : Lexeme) (language : Language) : Prop :=
  ∀ symbol, lexeme.symbol = some symbol → lexeme.StandsFor language symbol

end Lexeme

theorem resolveSymbol_core (language : Language) (state : StateId) (lexeme : Lexeme) :
    resolveSymbol language state lexeme.core = resolveSymbol language state lexeme := rfl

/-- The leaf of an extra. -/
def extraLeaf (symbol : SymbolId) (padding size : Nat) (mode : ValidExternals)
    (before after : ScannerState) : Leaf :=
  { symbol := symbol
    raw := symbol
    padding := padding
    size := size
    state := 0
    lookaheadBytes := 0
    mode := mode
    scannerBefore := before
    scannerAfter := after
    extra := true
    missing := false
    fragile := false }

namespace Language

variable (language : Language)

/-- The keyword that a token with some content can be read as. -/
def keywordOf (symbol : SymbolId) (content : List Char) : Option SymbolId :=
  if language.lexer.word = some symbol then language.lexer.keyword? content else none

/-- The lexeme of a token with some content, without extras before it and apart from its
place. -/
def wordedLexeme (symbol : SymbolId) (content : List Char) (padding : Nat)
    (mode : ValidExternals) (before after : ScannerState) : Lexeme :=
  { start := 0
    extras := []
    tokenStart := 0
    raw := (language.keywordOf symbol content).getD symbol
    word := (language.keywordOf symbol content).map fun _ => symbol
    padding := padding
    size := utf8Length content
    examinedEnd := 0
    mode := mode
    scannerBefore := before
    scannerAfter := after
    fresh := true
    missing := false
    symbol := none }

/-- In front of a text stand blanks and the content of a token that is found there. -/
structure StandsFirst (mode : ValidExternals) (scanner : ScannerState) (text content behind :
    List Char) (symbol : SymbolId) (after : ScannerState) : Prop where
  split : text.dropWhile isBlank = content ++ behind
  finds : language.Finds mode scanner content behind symbol after

/-- The lexeme that is read from a text, apart from its place, and the text behind it. -/
inductive Reads (mode : ValidExternals) :
    List Char → ScannerState → Lexeme → List Char → Prop where
  | token {text content behind : List Char} {scanner after : ScannerState} {symbol : SymbolId} :
      language.StandsFirst mode scanner text content behind symbol after →
      symbol = endSymbol ∨ language.lexer.isExtra symbol = false →
        Reads mode text scanner (language.wordedLexeme symbol content
          (utf8Length (text.takeWhile isBlank)) mode scanner after) behind
  | extra {text content behind last : List Char} {scanner after : ScannerState}
      {symbol : SymbolId} {lexeme : Lexeme} :
      language.StandsFirst mode scanner text content behind symbol after →
      symbol ≠ endSymbol → language.lexer.isExtra symbol = true →
      Reads mode behind after lexeme last →
        Reads mode text scanner (lexeme.withExtras (extraLeaf symbol
          (utf8Length (text.takeWhile isBlank)) (utf8Length content) mode scanner after ::
            lexeme.extras)) last

end Language

section
variable {language : Language} {mode : ValidExternals} {scanner : ScannerState}

theorem Language.StandsFirst.text_eq {text content behind : List Char} {symbol : SymbolId}
    {after : ScannerState}
    (stands : language.StandsFirst mode scanner text content behind symbol after) :
    text = text.takeWhile isBlank ++ content ++ behind := by
  rw [List.append_assoc, ← stands.split, List.takeWhile_append_dropWhile]

theorem CutInto.pair (first second : List Char) :
    CutInto (first ++ second) [utf8Length first + utf8Length second] := by
  rw [← utf8Length_append]
  exact .single _

/-- A text begins with one token. -/
theorem Language.StandsFirst.unique {text content behind content' behind' : List Char}
    {symbol symbol' : SymbolId} {after after' : ScannerState}
    (left : language.StandsFirst mode scanner text content behind symbol after)
    (right : language.StandsFirst mode scanner text content' behind' symbol' after') :
    content = content' ∧ behind = behind' ∧ symbol = symbol' ∧ after = after' := by
  obtain ⟨_, found⟩ := left.finds.tokenAt
    (show (⟨0, text.dropWhile isBlank⟩ : Cursor).rest = _ from left.split) 0
  obtain ⟨_, found'⟩ := right.finds.tokenAt
    (show (⟨0, text.dropWhile isBlank⟩ : Cursor).rest = _ from right.split) 0
  have same := Except.ok.inj (found.symm.trans found')
  simp only [FoundToken.mk.injEq, Cursor.mk.injEq] at same
  obtain ⟨rfl, _, _, rfl, _, rfl⟩ := same
  exact ⟨List.append_cancel_right (left.split.symm.trans right.split), rfl, rfl, rfl⟩

namespace Language.Reads

variable {text last : List Char} {lexeme : Lexeme}

theorem core_eq (reads : language.Reads mode text scanner lexeme last) : lexeme.core = lexeme := by
  induction reads with
  | token => rfl
  | extra _ _ _ _ ih => rw [Lexeme.core_withExtras, ih]

theorem present (reads : language.Reads mode text scanner lexeme last) :
    lexeme.missing = false ∧ lexeme.mode = mode := by
  induction reads with
  | token => exact ⟨rfl, rfl⟩
  | extra _ _ _ _ ih => exact ih

/-- A lexeme takes up the text between where it is read and what stands behind it. -/
theorem exists_piece (reads : language.Reads mode text scanner lexeme last) :
    ∃ piece, text = piece ++ last ∧ CutInto piece lexeme.widths := by
  induction reads with
  | token stands _ => exact ⟨_, stands.text_eq, .pair _ _⟩
  | @extra text content behind last scanner after symbol lexeme stands _ _ _ ih =>
      obtain ⟨piece, rfl, cut⟩ := ih
      refine ⟨text.takeWhile isBlank ++ content ++ piece, ?_, (CutInto.pair _ _).append cut⟩
      rw [List.append_assoc, ← stands.text_eq]

/-- Without its extras, a lexeme is read from where the extras end. -/
theorem strip (reads : language.Reads mode text scanner lexeme last) :
    ∃ passed rest, text = passed ++ rest ∧ CutInto passed (widths lexeme.extras) ∧
      language.Reads mode rest lexeme.scannerBefore (lexeme.withExtras []) last := by
  induction reads with
  | token stands final => exact ⟨[], _, rfl, .nil, .token stands final⟩
  | @extra text content behind last scanner after symbol lexeme stands _ _ _ ih =>
      obtain ⟨passed, rest, rfl, cut, reads⟩ := ih
      refine ⟨text.takeWhile isBlank ++ content ++ passed, rest, ?_, (CutInto.pair _ _).append cut, reads⟩
      rw [List.append_assoc, ← stands.text_eq]

/-- Without extras before it, a lexeme is a token that stands in front of the text. -/
theorem of_no_extras (reads : language.Reads mode text scanner lexeme last)
    (alone : lexeme.extras = []) :
    ∃ content symbol after, language.StandsFirst mode scanner text content last symbol after ∧
      (symbol = endSymbol ∨ language.lexer.isExtra symbol = false) ∧
      lexeme = language.wordedLexeme symbol content (utf8Length (text.takeWhile isBlank)) mode
        scanner after := by
  cases reads with
  | token stands final => exact ⟨_, _, _, stands, final, rfl⟩
  | extra => cases alone

/-- With extras before it, a lexeme is read from behind the first one. -/
theorem of_extras {extra : Leaf} {extras : List Leaf}
    (reads : language.Reads mode text scanner lexeme last) (shape : lexeme.extras = extra :: extras) :
    ∃ content behind symbol after,
      language.StandsFirst mode scanner text content behind symbol after ∧
      symbol ≠ endSymbol ∧ language.lexer.isExtra symbol = true ∧
      extra = extraLeaf symbol (utf8Length (text.takeWhile isBlank)) (utf8Length content) mode
        scanner after ∧
      language.Reads mode behind after (lexeme.withExtras extras) last := by
  cases reads with
  | token => cases shape
  | extra stands inside isExtra reads =>
      obtain ⟨rfl, rfl⟩ := List.cons.inj shape
      exact ⟨_, _, _, _, stands, inside, isExtra, rfl, reads⟩

/-- Where an extra stands in front of a text, a lexeme begins with it. -/
theorem extra_first {content behind : List Char} {symbol : SymbolId} {after : ScannerState}
    (stands : language.StandsFirst mode scanner text content behind symbol after)
    (inside : symbol ≠ endSymbol) (isExtra : language.lexer.isExtra symbol = true)
    (reads : language.Reads mode text scanner lexeme last) :
    ∃ extras, lexeme.extras = extraLeaf symbol (utf8Length (text.takeWhile isBlank))
        (utf8Length content) mode scanner after :: extras ∧
      language.Reads mode behind after (lexeme.withExtras extras) last := by
  cases reads with
  | token stands' final =>
      obtain ⟨_, _, rfl, _⟩ := stands.unique stands'
      rcases final with rfl | notExtra
      · exact absurd rfl inside
      · rw [isExtra] at notExtra
        cases notExtra
  | extra stands' _ _ reads =>
      obtain ⟨rfl, rfl, rfl, rfl⟩ := stands.unique stands'
      exact ⟨_, rfl, reads⟩

end Language.Reads

/-! ## Reading at a place -/

theorem Text.Cursor.sub_skipWhile (cursor : Cursor) (p : Char → Bool) :
    (cursor.skipWhile p).offset - cursor.offset = utf8Length (cursor.rest.takeWhile p) :=
  Nat.add_sub_cancel_left ..

theorem reads_of_lexFrom {start limit examinedEnd : Nat} {extras : List Leaf}
    {cursor next : Cursor} {lexeme : Lexeme}
    (read : lexFrom language start mode limit extras examinedEnd cursor scanner =
      .ok (lexeme, next)) :
    ∃ later, lexeme.extras = extras.reverse ++ later ∧
      language.Reads mode cursor.rest scanner (lexeme.core.withExtras later) next.rest := by
  induction limit generalizing extras examinedEnd cursor scanner with
  | zero => cases read
  | succ limit ih =>
      obtain ⟨⟨symbol, size, examined, after, ⟨offset, behind⟩⟩, finding, rest⟩ :=
        exists_of_bind_eq_ok read
      obtain ⟨content, ⟨split, rfl⟩, rfl, finds⟩ := exists_finds_of_tokenAt finding
      dsimp only at split finds rest
      rw [cursor.sub_skipWhile] at rest
      split at rest
      case isTrue isExtra =>
          simp only [Bool.and_eq_true, bne_iff_ne, ne_eq] at isExtra
          obtain ⟨later, shape, reads⟩ := ih rest
          simp only [List.reverse_cons, List.append_assoc, List.singleton_append] at shape
          exact ⟨_, shape, .extra ⟨split, finds⟩ isExtra.1 isExtra.2 reads⟩
      case isFalse isToken =>
          simp only [splitBytes?_eq_some_iff.mpr ⟨split, rfl⟩] at rest
          obtain ⟨rfl, rfl⟩ := Prod.mk.inj (Except.ok.inj rest)
          refine ⟨[], by simp, .token ⟨split, finds⟩ ?_⟩
          by_cases atEnd : symbol = endSymbol
          · exact .inl atEnd
          · exact .inr (by simpa [atEnd] using isToken)

theorem lexFrom_of_reads (progresses : language.lexer.Progresses) {worded : Lexeme}
    {text last : List Char} (reads : language.Reads mode text scanner worded last)
    (start examinedEnd : Nat) (extras : List Leaf) {limit : Nat} {cursor : Cursor}
    (here : cursor.rest = text) (enough : text.length < limit) :
    ∃ lexeme next,
      lexFrom language start mode limit extras examinedEnd cursor scanner = .ok (lexeme, next) ∧
      lexeme.core = worded.withExtras (extras.reverse ++ worded.extras) ∧ next.rest = last := by
  induction reads generalizing limit extras examinedEnd cursor with
  | @token text content behind scanner after symbol stands final =>
      subst here
      cases limit with
      | zero => omega
      | succ limit =>
          obtain ⟨examined, found⟩ := stands.finds.tokenAt
            (show (cursor.skipWhile isBlank).rest = _ from stands.split) examinedEnd
          have isToken : ¬ (symbol != endSymbol && language.lexer.isExtra symbol) = true := by
            rcases final with rfl | notExtra
            · simp
            · simp [notExtra]
          rw [lexFrom]
          simp only [found, bind, Except.bind, if_neg isToken,
            splitBytes?_eq_some_iff.mpr
              ⟨(show (cursor.skipWhile isBlank).rest = _ from stands.split), rfl⟩]
          refine ⟨_, _, rfl, ?_, rfl⟩
          simp only [Lexeme.core, Language.wordedLexeme, Lexeme.withExtras, Cursor.skipWhile,
            Nat.add_sub_cancel_left, List.append_nil, Language.keywordOf]
  | @extra text content behind last scanner after symbol worded stands inside isExtra _ ih =>
      subst here
      cases limit with
      | zero => omega
      | succ limit =>
          obtain ⟨examined, found⟩ := stands.finds.tokenAt
            (show (cursor.skipWhile isBlank).rest = _ from stands.split) examinedEnd
          have nonempty := List.length_pos_of_ne_nil (stands.finds.content_ne progresses inside)
          have lengths := congrArg List.length stands.text_eq
          simp only [List.length_append] at lengths
          have shorter : behind.length < limit := by omega
          obtain ⟨lexeme, next, read, core, rest⟩ := ih examined
            (extraLeaf symbol (utf8Length (cursor.rest.takeWhile isBlank)) (utf8Length content) mode
              scanner after :: extras)
            (show (⟨(cursor.skipWhile isBlank).offset + utf8Length content, behind⟩ : Cursor).rest =
              behind from rfl) shorter
          refine ⟨lexeme, next, ?_, ?_, rest⟩
          · have isExtra' : (symbol != endSymbol && language.lexer.isExtra symbol) = true := by
              simp [inside, isExtra]
            rw [lexFrom]
            simp only [found, bind, Except.bind, isExtra', if_true, cursor.sub_skipWhile]
            exact read
          · rw [core]
            simp

/-- What is read at a place is what is read from the text there. -/
theorem reads_of_lex {cursor next : Cursor} {lexeme : Lexeme}
    (read : lex language cursor mode scanner = .ok (lexeme, next)) :
    language.Reads mode cursor.rest scanner lexeme.core next.rest := by
  obtain ⟨later, shape, reads⟩ := reads_of_lexFrom read
  obtain rfl : lexeme.extras = later := shape
  exact reads

/-- What is read from a text is read at every place with this text behind it. -/
theorem lex_of_reads (progresses : language.lexer.Progresses) {worded : Lexeme}
    {text last : List Char} (reads : language.Reads mode text scanner worded last) (offset : Nat) :
    ∃ lexeme next, lex language ⟨offset, text⟩ mode scanner = .ok (lexeme, next) ∧
      lexeme.core = worded ∧ next.rest = last := by
  obtain ⟨lexeme, next, read, core, rest⟩ := lexFrom_of_reads progresses reads offset
    offset [] (show (⟨offset, text⟩ : Cursor).rest = text from rfl) (Nat.lt_succ_self text.length)
  exact ⟨lexeme, next, read, core, rest⟩

/-- A text has one first lexeme. -/
theorem Language.Reads.unique (progresses : language.lexer.Progresses) {first second : Lexeme}
    {text last behind : List Char} (left : language.Reads mode text scanner first last)
    (right : language.Reads mode text scanner second behind) : first = second ∧ last = behind := by
  obtain ⟨lexeme, next, read, rfl, rfl⟩ := lex_of_reads progresses left 0
  obtain ⟨other, later, again, rfl, rfl⟩ := lex_of_reads progresses right 0
  obtain ⟨rfl, rfl⟩ := Prod.mk.inj (Except.ok.inj (read.symm.trans again))
  exact ⟨rfl, rfl⟩

end

end Lalr
