import Lalr.Parser.Lexeme
import Lalr.Proofs.Language.Loading
import Lalr.Proofs.Text.Runs

set_option autoImplicit false

/-!
What is read of a text. Literals, patterns and scanners match the text in front of them, the
end of the input is found at the end of the text only, and the extras and the token of a
lexeme are a piece of the text each, one behind the other, with nothing but blank space
between them.
-/

namespace Lalr

open Lalr.Text

theorem exists_of_mem_mapM_ok {ε α β : Type} {change : α → Except ε β} {values : List α}
    {results : List β} (success : values.mapM change = .ok results) {result : β}
    (member : result ∈ results) : ∃ value ∈ values, change value = .ok result := by
  induction values generalizing results with
  | nil =>
      rw [List.mapM_nil] at success
      obtain rfl := Except.ok.inj success
      exact absurd member List.not_mem_nil
  | cons value values ih =>
      rw [List.mapM_cons] at success
      obtain ⟨first, changed, rest⟩ := exists_of_bind_eq_ok success
      obtain ⟨others, mapped, same⟩ := exists_of_bind_eq_ok rest
      obtain rfl := Except.ok.inj same
      rcases List.mem_cons.mp member with rfl | later
      · exact ⟨value, List.mem_cons_self, changed⟩
      · obtain ⟨origin, listed, found⟩ := ih mapped later
        exact ⟨origin, List.mem_cons_of_mem _ listed, found⟩

/-! ## Places in a text -/

/-- From one place to a later one lie the characters passed. -/
structure Text.Cursor.Passes (before : Cursor) (passed : List Char) (after : Cursor) : Prop where
  rest : before.rest = passed ++ after.rest
  offset : after.offset = before.offset + utf8Length passed

namespace Text.Cursor.Passes

theorem refl (cursor : Cursor) : cursor.Passes [] cursor :=
  ⟨rfl, rfl⟩

theorem trans {first middle last : Cursor} {early late : List Char}
    (left : first.Passes early middle) (right : middle.Passes late last) :
    first.Passes (early ++ late) last where
  rest := by rw [left.rest, right.rest, List.append_assoc]
  offset := by rw [right.offset, left.offset, utf8Length_append, Nat.add_assoc]

/-- The end of the text stays where it is. -/
theorem end_eq {before after : Cursor} {passed : List Char} (passes : before.Passes passed after) :
    after.offset + utf8Length after.rest = before.offset + utf8Length before.rest := by
  rw [passes.offset, passes.rest, utf8Length_append, Nat.add_assoc]

theorem skipWhile (cursor : Cursor) (p : Char → Bool) :
    cursor.Passes (cursor.rest.takeWhile p) (cursor.skipWhile p) :=
  ⟨List.takeWhile_append_dropWhile.symm, rfl⟩

theorem of_advance? {cursor after : Cursor} {count : Nat}
    (advanced : cursor.advance? count = some after) :
    ∃ passed, cursor.Passes passed after ∧ utf8Length passed = count := by
  obtain ⟨rest, dropped, rfl⟩ := Option.map_eq_some_iff.mp advanced
  obtain ⟨⟨passed, behind⟩, cut, rfl⟩ := Option.map_eq_some_iff.mp dropped
  obtain ⟨split, length⟩ := splitBytes?_eq_some_iff.mp cut
  exact ⟨passed, ⟨split, by rw [length]⟩, length⟩

end Text.Cursor.Passes

namespace Text.Cursor

variable {p : Char → Bool} {text passed first rest : List Char} {offset : Nat}

theorem skipWhile_append (inside : ∀ c ∈ first, p c = true) (stops : rest.head?.any p = false) :
    skipWhile ⟨offset, first ++ rest⟩ p = ⟨offset + utf8Length first, rest⟩ := by
  cases rest with
  | nil =>
      rw [List.append_nil, skipWhile, List.takeWhile_eq_self_iff.mpr inside,
        List.dropWhile_eq_nil_iff.mpr inside]
  | cons c rest =>
      have refused : p c = false := by simpa using stops
      rw [skipWhile, takeWhile_closed inside refused, dropWhile_closed inside refused]

theorem skipWhile_passed (inside : ∀ c ∈ first, p c = true) :
    skipWhile ⟨offset, first ++ rest⟩ p = skipWhile ⟨offset + utf8Length first, rest⟩ p := by
  rw [skipWhile, skipWhile, List.takeWhile_append_of_pos inside,
    List.dropWhile_append_of_pos inside, utf8Length_append, Nat.add_assoc]

theorem stops_skipWhile (cursor : Cursor) (p : Char → Bool) :
    (cursor.skipWhile p).rest.head?.any p = false := by
  have stops := List.head?_dropWhile_not p cursor.rest
  unfold skipWhile
  dsimp only
  cases first : (cursor.rest.dropWhile p).head? with
  | none => rfl
  | some c => simpa [first] using stops

theorem skipWhile_again (cursor : Cursor) (p : Char → Bool) :
    (cursor.skipWhile p).skipWhile p = cursor.skipWhile p :=
  @skipWhile_append p [] _ _ (by simp) (stops_skipWhile cursor p)

theorem at?_of_passes {place : Cursor} (onward : (start text).Passes passed place) :
    at? text place.offset = some place := by
  have offset : place.offset = utf8Length passed := by simpa [start] using onward.offset
  have cut := splitBytes?_eq_some_iff.mpr ⟨onward.rest, offset.symm⟩
  simp only [start] at cut
  simp [at?, advance?, start, dropBytes?, cut]

end Text.Cursor

/-! ## Matches -/

/-- A match splits the text in front of it. -/
def TokenMatch.Splits (found : TokenMatch) (text : List Char) : Prop :=
  ∃ passed, text = passed ++ found.rest ∧ utf8Length passed = found.length

theorem eq_append_of_stripLiteral? {literal text rest : List Char}
    (stripped : stripLiteral? literal text = some rest) : text = literal ++ rest := by
  induction literal generalizing text with
  | nil => exact Option.some.inj stripped
  | cons l literal ih =>
      cases text with
      | nil => cases stripped
      | cons c text =>
          rw [stripLiteral?] at stripped
          split at stripped
          case isTrue same => rw [ih stripped, same, List.cons_append]
          case isFalse => cases stripped

namespace Program

variable (program : Program)

/-- A place reached while matching a text. -/
def ReachedIn (text : List Char) (place : MatchPlace) : Prop :=
  ∃ passed, text = passed ++ place.rest ∧ utf8Length passed = place.consumed

theorem reachedIn_step {text : List Char} {place : MatchPlace} {c : Char} {rest : List Char}
    (reached : ReachedIn text place) (next : place.rest = c :: rest) :
    ReachedIn text (place.step c rest) := by
  obtain ⟨passed, split, length⟩ := reached
  refine ⟨passed ++ [c], by rw [split, next, List.append_assoc]; rfl, ?_⟩
  simp [MatchPlace.step, length]

theorem reachedIn_of_run {text : List Char} {threads : List Thread} {best : Option MatchPlace}
    {place last : MatchPlace} {rest : List Char} (reached : ReachedIn text place)
    (ahead : place.rest = rest) (known : ∀ found, best = some found → ReachedIn text found)
    (ran : program.run threads best place rest = some last) : ReachedIn text last := by
  induction rest generalizing threads best place with
  | nil => exact known last ran
  | cons c rest ih =>
      cases threads with
      | nil => exact known last ran
      | cons thread threads =>
          have stepped := reachedIn_step reached ahead
          refine ih stepped rfl ?_ ran
          intro found same
          split at same
          · exact Option.some.inj same ▸ stepped
          · exact known found same

theorem splits_of_match? {text rest : List Char} {length : Nat}
    (found : program.match? text = some (length, rest)) :
    ∃ passed, text = passed ++ rest ∧ utf8Length passed = length := by
  obtain ⟨place, ran, same⟩ := Option.map_eq_some_iff.mp found
  obtain ⟨rfl, rfl⟩ := Prod.mk.inj same
  have start : ReachedIn text ⟨0, none, text⟩ := ⟨[], rfl, rfl⟩
  refine reachedIn_of_run program start rfl ?_ ran
  intro best same
  split at same
  · exact Option.some.inj same ▸ start
  · cases same

end Program

namespace Lexer

variable {lexer : Lexer}

theorem longer_eq_or (best : Option TokenMatch) (found : TokenMatch) :
    TokenMatch.longer best found = some found ∨ TokenMatch.longer best found = best := by
  cases best with
  | none => exact .inl rfl
  | some known =>
      unfold TokenMatch.longer
      dsimp only
      split
      · exact .inl rfl
      · exact .inr rfl

theorem mem_of_foldl_longer {matches_ : List TokenMatch} {best : Option TokenMatch}
    {found : TokenMatch} (chosen : matches_.foldl TokenMatch.longer best = some found) :
    found ∈ matches_ ∨ best = some found := by
  induction matches_ generalizing best with
  | nil => exact .inr chosen
  | cons first others ih =>
      rcases ih chosen with later | here
      · exact .inl (List.mem_cons_of_mem _ later)
      · rcases longer_eq_or best first with new | old
        · exact .inl (Option.some.inj (new.symm.trans here) ▸ List.mem_cons_self)
        · exact .inr (old.symm.trans here)

theorem matchToken?_cases {text : List Char} {found : TokenMatch}
    (matched : lexer.matchToken? text = some found) :
    (∃ entry ∈ lexer.literals, literalMatch? text entry = some found) ∨
      ∃ entry ∈ lexer.patterns, patternMatch? text entry = some found := by
  rcases mem_of_foldl_longer matched with member | none_before
  · simpa only [List.mem_append, List.mem_filterMap] using member
  · cases none_before

theorem splits_of_matchToken? {text : List Char} {found : TokenMatch}
    (matched : lexer.matchToken? text = some found) : found.Splits text := by
  rcases matchToken?_cases matched with ⟨entry, _, literal⟩ | ⟨entry, _, pattern⟩
  · obtain ⟨rest, stripped, rfl⟩ := Option.map_eq_some_iff.mp literal
    exact ⟨entry.1, eq_append_of_stripLiteral? stripped, rfl⟩
  · unfold patternMatch? at pattern
    split at pattern
    case h_1 => cases pattern
    case h_2 length rest same =>
        split at pattern
        · cases pattern
        · obtain rfl := Option.some.inj pattern
          exact entry.1.splits_of_match? same

/-- No token of the lexer, no word it looks up and no twin is the end of the input. -/
structure KnowsNoEnd (lexer : Lexer) : Prop where
  literals : ∀ entry ∈ lexer.literals, entry.2 ≠ endSymbol
  patterns : ∀ entry ∈ lexer.patterns, entry.2 ≠ endSymbol
  keywords : ∀ entry ∈ lexer.keywords, entry.2 ≠ endSymbol
  word : lexer.word ≠ some endSymbol
  twins : ∀ pair ∈ lexer.immediateTwins, pair.1 ≠ endSymbol ∧ pair.2 ≠ endSymbol
  externals : endSymbol ∉ lexer.externals

theorem knowsNoEnd_of_compile {tables : LanguageTables}
    (compiled : Lexer.compile tables.lexical = .ok lexer)
    (lexical : ∀ symbol ∈ tables.lexicalSymbols, symbol ≠ endSymbol) : lexer.KnowsNoEnd := by
  obtain ⟨patterns, listed, rest⟩ := exists_of_bind_eq_ok compiled
  obtain rfl := Except.ok.inj rest
  have inside : ∀ symbol, (∃ entry ∈ tables.lexical.literals ++ tables.lexical.patterns ++
      tables.lexical.keywords, entry.2 = symbol) ∨ tables.lexical.word = some symbol ∨
      symbol ∈ tables.lexical.externals ∨
      (∃ pair ∈ tables.lexical.immediateTwins, symbol = pair.1 ∨ symbol = pair.2) →
      symbol ≠ endSymbol := by
    intro symbol listed
    refine lexical symbol ?_
    simp only [LanguageTables.lexicalSymbols, List.mem_append, List.mem_map, List.mem_flatMap,
      Option.mem_toList, List.mem_cons, List.not_mem_nil, or_false] at listed ⊢
    rcases listed with listed | listed | listed | listed
    · exact .inl (.inl (.inl (.inl listed)))
    · exact .inl (.inl (.inl (.inr listed)))
    · exact .inl (.inr listed)
    · exact .inr listed
  constructor
  · intro entry member
    obtain ⟨origin, known, rfl⟩ := List.mem_map.mp member
    exact inside _ (.inl ⟨origin, by simp [known], rfl⟩)
  · intro entry member
    obtain ⟨⟨text, symbol⟩, known, same⟩ := exists_of_mem_mapM_ok listed member
    dsimp only at same
    cases compiled : Pattern.compile? text with
    | none =>
        rw [compiled] at same
        cases same
    | some program =>
        rw [compiled] at same
        obtain rfl := Except.ok.inj same
        exact inside _ (.inl ⟨(text, symbol), by simp [known], rfl⟩)
  · intro entry member
    exact inside _ (.inl ⟨entry, by simp [List.mem_reverse.mp member], rfl⟩)
  · intro same
    exact inside _ (.inr (.inl same)) rfl
  · intro pair member
    have known := List.mem_reverse.mp member
    exact ⟨inside _ (.inr (.inr (.inr ⟨pair, known, .inl rfl⟩))),
      inside _ (.inr (.inr (.inr ⟨pair, known, .inr rfl⟩)))⟩
  · intro member
    exact inside _ (.inr (.inr (.inl member))) rfl

end Lexer

theorem Language.knowsNoEnd_of_ofTables {language : Language} {tables : LanguageTables}
    {scanner : Scanner} (loaded : Language.ofTables tables scanner = .ok language) :
    language.lexer.KnowsNoEnd := by
  obtain ⟨valid, _, compiled, _⟩ := ofTables_ok loaded
  exact Lexer.knowsNoEnd_of_compile compiled fun symbol member =>
    ((LanguageTables.validate_ok valid).2 symbol member).2

theorem Language.knowsNoEnd_of_ofGrammar {language : Language} {source : Grammar}
    {scanner : Scanner} (loaded : Language.ofGrammar source scanner = .ok language) :
    language.lexer.KnowsNoEnd :=
  knowsNoEnd_of_ofTables (ofGrammar_ok loaded).2

namespace Lexer

variable {lexer : Lexer}

theorem KnowsNoEnd.matchToken? (knowsNoEnd : lexer.KnowsNoEnd) {text : List Char}
    {found : TokenMatch} (matched : lexer.matchToken? text = some found) :
    found.symbol ≠ endSymbol := by
  rcases matchToken?_cases matched with ⟨entry, member, literal⟩ | ⟨entry, member, pattern⟩
  · obtain ⟨rest, _, rfl⟩ := Option.map_eq_some_iff.mp literal
    exact knowsNoEnd.literals entry member
  · unfold patternMatch? at pattern
    split at pattern
    case h_1 => cases pattern
    case h_2 length rest same =>
        split at pattern
        · cases pattern
        · obtain rfl := Option.some.inj pattern
          exact knowsNoEnd.patterns entry member

theorem KnowsNoEnd.keyword? (knowsNoEnd : lexer.KnowsNoEnd) {word : List Char}
    {symbol : SymbolId} (found : lexer.keyword? word = some symbol) : symbol ≠ endSymbol := by
  obtain ⟨before, after, shape, _⟩ := List.lookup_eq_some_iff.mp found
  refine knowsNoEnd.keywords (String.ofList (lowerFrom [] word), symbol) ?_
  rw [shape]
  exact List.mem_append_right _ List.mem_cons_self

theorem KnowsNoEnd.twin? (knowsNoEnd : lexer.KnowsNoEnd) {symbol twin : SymbolId}
    (found : lexer.twin? symbol = some twin) : symbol ≠ endSymbol ∧ twin ≠ endSymbol := by
  obtain ⟨before, after, shape, _⟩ := List.lookup_eq_some_iff.mp found
  refine knowsNoEnd.twins (symbol, twin) ?_
  rw [shape]
  exact List.mem_append_right _ List.mem_cons_self

theorem KnowsNoEnd.lookup (knowsNoEnd : lexer.KnowsNoEnd) {symbol keyword : SymbolId}
    {size : Nat} {text : List Char}
    (found : (if lexer.word = some symbol then
        match splitBytes? size text with
        | some (word, _) => lexer.keyword? word
        | none => none
      else none) = some keyword) : keyword ≠ endSymbol ∧ symbol ≠ endSymbol := by
  split at found
  case isFalse => cases found
  case isTrue isWord =>
      split at found
      case h_2 => cases found
      case h_1 =>
          refine ⟨knowsNoEnd.keyword? found, ?_⟩
          rintro rfl
          exact knowsNoEnd.word isWord

/-- A word and the keyword it spells are both no end, so it does not matter which it is. -/
theorem KnowsNoEnd.getD_eq_end_iff (knowsNoEnd : lexer.KnowsNoEnd) {symbol : SymbolId} {size : Nat}
    {text : List Char} {keyword : Option SymbolId}
    (known : (if lexer.word = some symbol then
        match splitBytes? size text with
        | some (word, _) => lexer.keyword? word
        | none => none
      else none) = keyword) : keyword.getD symbol = endSymbol ↔ symbol = endSymbol := by
  cases keyword with
  | none => rfl
  | some keyword =>
      have other := knowsNoEnd.lookup known
      exact iff_of_false other.1 other.2

/-- No token before the end of a text is empty. -/
def Progresses (lexer : Lexer) : Prop :=
  ∀ text found, text ≠ [] → lexer.matchToken? text = some found → 0 < found.length

theorem progresses_of_literals (filled : ∀ entry ∈ lexer.literals, entry.1 ≠ []) :
    lexer.Progresses := by
  intro text found _ matched
  rcases matchToken?_cases matched with ⟨entry, member, literal⟩ | ⟨entry, _, pattern⟩
  · obtain ⟨rest, _, rfl⟩ := Option.map_eq_some_iff.mp literal
    exact (List.length_pos_of_ne_nil (filled entry member)).trans_le
      (length_le_utf8Length entry.1)
  · unfold patternMatch? at pattern
    split at pattern
    case h_1 => cases pattern
    case h_2 =>
        split at pattern
        case isTrue => cases pattern
        case isFalse nonempty =>
            obtain rfl := Option.some.inj pattern
            exact Nat.pos_of_ne_zero nonempty

end Lexer

/-! ## Tokens -/

/-- What is found at a place: the end of the input where nothing is left, or else a token that
is not the end of the input, with its text. -/
inductive FoundToken.FitsAt (found : FoundToken) (place : Cursor) : Prop where
  | atEnd : place.rest = [] → found.symbol = endSymbol → found.size = 0 → found.next = place →
      FitsAt found place
  | token {content : List Char} : place.rest ≠ [] → found.symbol ≠ endSymbol →
      place.Passes content found.next → utf8Length content = found.size → FitsAt found place

theorem fitsAt_regularToken {lexer : Lexer} (knowsNoEnd : lexer.KnowsNoEnd) {place : Cursor}
    (more : place.rest ≠ []) (examinedEnd : Nat) (state : ScannerState) :
    (regularToken lexer place examinedEnd state).FitsAt place := by
  unfold regularToken
  cases matched : lexer.matchToken? place.rest with
  | some found =>
      obtain ⟨content, split, length⟩ := Lexer.splits_of_matchToken? matched
      exact .token more (knowsNoEnd.matchToken? matched) ⟨split, by rw [length]⟩ length
  | none =>
      cases rest : place.rest with
      | nil => exact absurd rest more
      | cons c behind =>
          have passes : place.Passes [c] ⟨place.offset + c.utf8Size, behind⟩ := ⟨rest, by simp⟩
          exact .token more (by simp [errorSymbol, endSymbol]) passes (by simp)

/-- What is found is the end of the input, or what the lexer finds, or a token of the scanner. -/
theorem tokenAt_cases {language : Language} {place : Cursor} {mode : ValidExternals}
    {examinedEnd : Nat} {state : ScannerState} {found : FoundToken}
    (read : tokenAt language place mode examinedEnd state = .ok found) :
    (place.rest = [] ∧ found = ⟨endSymbol, 0, examinedEnd, state, place⟩) ∨
      (place.rest ≠ [] ∧ ∃ examined,
        found = regularToken language.lexer place examined state) ∨
      (place.rest ≠ [] ∧ ∃ index length next examined symbol behind,
        language.scanner.scan place.rest mode state = .token index length next examined ∧
          language.lexer.externals[index]? = some symbol ∧ place.advance? length = some behind ∧
          found = ⟨symbol, length, max examinedEnd (place.offset + examined), next, behind⟩) := by
  unfold tokenAt at read
  split at read
  case isTrue empty => exact .inl ⟨List.isEmpty_iff.mp empty, (Except.ok.inj read).symm⟩
  case isFalse more =>
      have more : place.rest ≠ [] := by simpa using more
      have regular : ∀ {examined}, Except.ok (regularToken language.lexer place examined state) =
          (.ok found : Except Fault FoundToken) →
            ∃ examined, found = regularToken language.lexer place examined state :=
        fun same => ⟨_, (Except.ok.inj same).symm⟩
      refine .inr ?_
      split at read
      case isTrue => exact .inl ⟨more, regular read⟩
      case isFalse =>
          dsimp only at read
          split at read
          case h_1 => exact .inl ⟨more, regular read⟩
          case h_2 index length next examined scanned =>
              split at read
              case h_1 => exact .inl ⟨more, regular read⟩
              case h_2 symbol declared =>
                  split at read
                  case isTrue => exact .inl ⟨more, regular read⟩
                  case isFalse =>
                      split at read
                      case h_1 => cases read
                      case h_2 behind advanced =>
                          rw [scanned] at read
                          exact .inr ⟨more, index, length, next, examined, symbol, behind, scanned,
                            declared, advanced, (Except.ok.inj read).symm⟩

theorem fitsAt_tokenAt {language : Language} (knowsNoEnd : language.lexer.KnowsNoEnd)
    {place : Cursor} {mode : ValidExternals} {examinedEnd : Nat} {state : ScannerState}
    {found : FoundToken}
    (read : tokenAt language place mode examinedEnd state = .ok found) : found.FitsAt place := by
  rcases tokenAt_cases read with ⟨empty, rfl⟩ | ⟨more, examined, rfl⟩ |
    ⟨more, _, _, _, _, symbol, behind, _, declared, advanced, rfl⟩
  · exact .atEnd empty rfl rfl rfl
  · exact fitsAt_regularToken knowsNoEnd more examined state
  · obtain ⟨content, passes, bytes⟩ := Cursor.Passes.of_advance? advanced
    refine .token more ?_ passes bytes
    rintro rfl
    exact knowsNoEnd.externals (List.mem_of_getElem? declared)

/-! ## Pieces of a text -/

/-- A token or an extra in a text: where the blank space before it starts, and the bytes of
this space and of its own. -/
structure Piece where
  start : Nat
  padding : Nat
  size : Nat
  raw : SymbolId
deriving DecidableEq, Repr

/-- The pieces that leaves in a row are, the first of them at an offset. Missing tokens are no
piece of the text. -/
def piecesFrom : Nat → List Leaf → List Piece
  | _, [] => []
  | start, leaf :: leaves =>
      let behind := piecesFrom (start + leaf.padding + leaf.size) leaves
      if leaf.missing then behind
      else ⟨start, leaf.padding, leaf.size, leaf.raw⟩ :: behind

namespace Lexeme

/-- The token as a piece of the text. -/
def token (lexeme : Lexeme) : Piece :=
  ⟨lexeme.tokenStart, lexeme.padding, lexeme.size, lexeme.raw⟩

/-- The extras and the token as pieces of the text. The end of the input is none. -/
def pieces (lexeme : Lexeme) : List Piece :=
  piecesFrom lexeme.start lexeme.extras ++ if lexeme.raw = endSymbol then [] else [lexeme.token]

end Lexeme

/-- From one place to a later one a text consists of pieces, one behind the other, each with
blank characters only before it. -/
inductive Tiles : Cursor → List Piece → Cursor → Prop where
  | nil (cursor : Cursor) : Tiles cursor [] cursor
  | cons {cursor place next last : Cursor} {blanks content : List Char} {piece : Piece}
      {pieces : List Piece} :
      (∀ c ∈ blanks, isBlank c = true) → cursor.Passes blanks place →
      place.Passes content next → piece.start = cursor.offset →
      piece.padding = utf8Length blanks → piece.size = utf8Length content →
      Tiles next pieces last → Tiles cursor (piece :: pieces) last

theorem Tiles.append {first middle last : Cursor} {before behind : List Piece}
    (left : Tiles first before middle) (right : Tiles middle behind last) :
    Tiles first (before ++ behind) last := by
  induction left with
  | nil => exact right
  | cons blank padding content start pads sized _ ih =>
      exact .cons blank padding content start pads sized (ih right)

/-- The bytes of several leaves. -/
def extent (leaves : List Leaf) : Nat :=
  (leaves.map fun leaf => leaf.padding + leaf.size).sum

theorem extent_snoc (leaves : List Leaf) (leaf : Leaf) :
    extent (leaves ++ [leaf]) = extent leaves + (leaf.padding + leaf.size) := by
  simp [extent]

theorem piecesFrom_append (start : Nat) (before behind : List Leaf) :
    piecesFrom start (before ++ behind) =
      piecesFrom start before ++ piecesFrom (start + extent before) behind := by
  induction before generalizing start with
  | nil => rfl
  | cons leaf before ih =>
      have shifted : start + leaf.padding + leaf.size + extent before =
          start + extent (leaf :: before) := by
        simp only [extent, List.map_cons, List.sum_cons]
        omega
      simp only [List.cons_append, piecesFrom, ih, shifted]
      split <;> rfl

/-! ## Lexemes -/

/-- What is known of a lexeme that was read from one place to another. -/
structure Lexeme.ReadFrom (lexeme : Lexeme) (before after : Cursor) : Prop where
  start : lexeme.start = before.offset
  fresh : lexeme.fresh = true
  missing : lexeme.missing = false
  symbol : lexeme.symbol = none
  extras : ∀ leaf ∈ lexeme.extras, leaf.missing = false
  word : ∀ word, lexeme.word = some word → lexeme.raw ≠ endSymbol ∧ word ≠ endSymbol
  token : lexeme.raw ≠ endSymbol → Tiles before lexeme.pieces after
  atEnd : lexeme.raw = endSymbol → ∃ middle, Tiles before lexeme.pieces middle ∧
    (∀ c ∈ middle.rest, isBlank c = true) ∧ after.rest = []

theorem blank_of_skipWhile (cursor : Cursor) :
    ∀ c ∈ cursor.rest.takeWhile isBlank, isBlank c = true :=
  fun _ member => List.mem_takeWhile_imp member

theorem readFrom_of_lexFrom {language : Language} (knowsNoEnd : language.lexer.KnowsNoEnd)
    {origin : Cursor} {mode : ValidExternals} {limit : Nat} {extras : List Leaf}
    {examinedEnd : Nat} {cursor : Cursor} {scanner : ScannerState} {lexeme : Lexeme}
    {after : Cursor} (passed : Tiles origin (piecesFrom origin.offset extras.reverse) cursor)
    (reached : cursor.offset = origin.offset + extent extras.reverse)
    (solid : ∀ leaf ∈ extras, leaf.missing = false)
    (read : lexFrom language origin.offset mode limit extras examinedEnd cursor scanner =
      .ok (lexeme, after)) : lexeme.ReadFrom origin after := by
  induction limit generalizing extras examinedEnd cursor scanner with
  | zero => cases read
  | succ limit ih =>
      obtain ⟨found, finding, rest⟩ := exists_of_bind_eq_ok read
      have blanks := Cursor.Passes.skipWhile cursor isBlank
      have padding : (cursor.skipWhile isBlank).offset - cursor.offset =
          utf8Length (cursor.rest.takeWhile isBlank) := by
        rw [blanks.offset]
        omega
      have fits := fitsAt_tokenAt knowsNoEnd finding
      split at rest
      -- an extra is one more piece, and the end of the input is none
      case isTrue isExtra =>
          cases fits with
          | atEnd _ symbol =>
              simp only [symbol, bne_self_eq_false, Bool.false_and] at isExtra
              cases isExtra
          | @token content more other passes size =>
              refine ih ?_ ?_ ?_ rest
              · rw [List.reverse_cons, piecesFrom_append]
                refine passed.append (.cons (blank_of_skipWhile cursor) blanks passes
                  reached.symm padding size.symm (.nil _))
              · rw [passes.offset, blanks.offset, reached, List.reverse_cons, extent_snoc, size]
                dsimp only
                omega
              · intro leaf member
                rcases List.mem_cons.mp member with rfl | old
                · rfl
                · exact solid leaf old
      case isFalse =>
          obtain ⟨rfl, rfl⟩ := Prod.mk.inj (Except.ok.inj rest)
          -- a word and the keyword it spells are both no end, so it does not matter which it is
          generalize known : (if language.lexer.word = some found.symbol then
            (_ : Option SymbolId) else none) = keyword
          have same := knowsNoEnd.getD_eq_end_iff known
          have extrasSolid : ∀ leaf ∈ extras.reverse, leaf.missing = false :=
            fun leaf member => solid leaf (List.mem_reverse.mp member)
          refine ⟨rfl, rfl, rfl, rfl, extrasSolid, ?_, ?_, ?_⟩
          · intro word isWord
            obtain ⟨keyword, rfl, rfl⟩ := Option.map_eq_some_iff.mp isWord
            exact knowsNoEnd.lookup known
          · intro other
            cases fits with
            | atEnd _ symbol => exact absurd (same.mpr symbol) other
            | token more _ passes size =>
                simp only [Lexeme.pieces, if_neg other]
                exact passed.append (.cons (blank_of_skipWhile cursor) blanks passes rfl padding
                  size.symm (.nil _))
          · intro atEnd
            cases fits with
            | token _ other => exact absurd (same.mp atEnd) other
            | atEnd empty _ _ next =>
                refine ⟨cursor, ?_, ?_, by rw [next, empty]⟩
                · simp only [Lexeme.pieces, if_pos atEnd, List.append_nil]
                  exact passed
                · rw [blanks.rest, empty, List.append_nil]
                  exact blank_of_skipWhile cursor

theorem readFrom_of_lex {language : Language} (knowsNoEnd : language.lexer.KnowsNoEnd)
    {cursor after : Cursor} {mode : ValidExternals} {scanner : ScannerState} {lexeme : Lexeme}
    (read : lex language cursor mode scanner = .ok (lexeme, after)) :
    lexeme.ReadFrom cursor after := by
  have none_passed : Tiles cursor (piecesFrom cursor.offset [].reverse) cursor := .nil cursor
  exact readFrom_of_lexFrom knowsNoEnd none_passed rfl (by simp) read

/-! ## Progress -/

/-- Every token that a scanner reports ends at the end of a character of the text. -/
def Scanner.Fits (scanner : Scanner) : Prop :=
  ∀ text valid state index length next examined,
    scanner.scan text valid state = .token index length next examined →
      (splitBytes? length text).isSome = true

/-- A fault of a scanner: it has reported a token that does not fit into the text. -/
def Fault.OfScanner (fault : Fault) (scanner : Scanner) : Prop :=
  (∃ offset, fault = .outsideText offset) ∧ ¬ scanner.Fits

theorem regularToken_size_pos {lexer : Lexer} (progresses : lexer.Progresses) {place : Cursor}
    (more : place.rest ≠ []) (examinedEnd : Nat) (state : ScannerState) :
    0 < (regularToken lexer place examinedEnd state).size := by
  unfold regularToken
  cases matched : lexer.matchToken? place.rest with
  | some found => exact progresses place.rest found more matched
  | none =>
      cases rest : place.rest with
      | nil => exact absurd rest more
      | cons c behind => exact c.utf8Size_pos

theorem tokenAt_size_pos {language : Language} (progresses : language.lexer.Progresses)
    {place : Cursor} (more : place.rest ≠ []) (mode : ValidExternals) (examinedEnd : Nat)
    (state : ScannerState) :
    (∃ found, tokenAt language place mode examinedEnd state = .ok found ∧ 0 < found.size) ∨
      ∃ fault, tokenAt language place mode examinedEnd state = .error fault ∧
        fault.OfScanner language.scanner := by
  have regular : ∀ examinedEnd, ∃ found,
      (.ok (regularToken language.lexer place examinedEnd state) : Except Fault FoundToken) =
        .ok found ∧ 0 < found.size :=
    fun examinedEnd => ⟨_, rfl, regularToken_size_pos progresses more examinedEnd state⟩
  unfold tokenAt
  rw [if_neg (by simpa using more)]
  split
  case isTrue => exact .inl (regular _)
  case isFalse =>
      dsimp only
      split
      case h_1 => exact .inl (regular _)
      case h_2 index length next examined scanned =>
          split
          case h_1 => exact .inl (regular _)
          case h_2 symbol _ =>
              split
              case isTrue => exact .inl (regular _)
              case isFalse nonempty =>
                  split
                  case h_1 outside =>
                      refine .inr ⟨_, rfl, ⟨_, rfl⟩, fun fits => ?_⟩
                      have cut := fits _ _ _ _ _ _ _ scanned
                      simp only [Cursor.advance?, dropBytes?, Option.map_eq_none_iff] at outside
                      rw [outside] at cut
                      cases cut
                  case h_2 => exact .inl ⟨_, rfl, Nat.pos_of_ne_zero nonempty⟩

theorem FoundToken.FitsAt.rest_lt {found : FoundToken} {place : Cursor}
    (fits : found.FitsAt place) (nonempty : 0 < found.size) :
    found.next.rest.length < place.rest.length := by
  cases fits with
  | atEnd _ _ size _ => omega
  | @token content _ _ passes size =>
      cases content with
      | nil => simp at size; omega
      | cons c content =>
          rw [passes.rest, List.cons_append, List.length_cons, List.length_append]
          omega

theorem Text.Cursor.skipWhile_length_le (cursor : Cursor) (p : Char → Bool) :
    (cursor.skipWhile p).rest.length ≤ cursor.rest.length := by
  rw [(Cursor.Passes.skipWhile cursor p).rest, List.length_append]
  omega

/-- Reading a lexeme comes to an end, and a lexeme other than the end of the input takes
something from the text. -/
theorem lexFrom_progress {language : Language} (knowsNoEnd : language.lexer.KnowsNoEnd)
    (progresses : language.lexer.Progresses) (start : Nat) (mode : ValidExternals) {limit : Nat}
    (extras : List Leaf) (examinedEnd : Nat) {cursor : Cursor} (scanner : ScannerState)
    (enough : cursor.rest.length < limit) :
    (∃ lexeme after,
      lexFrom language start mode limit extras examinedEnd cursor scanner = .ok (lexeme, after) ∧
        after.rest.length ≤ cursor.rest.length ∧
        (lexeme.raw ≠ endSymbol → after.rest.length < cursor.rest.length)) ∨
      ∃ fault,
        lexFrom language start mode limit extras examinedEnd cursor scanner = .error fault ∧
          fault.OfScanner language.scanner := by
  induction limit generalizing extras examinedEnd cursor scanner with
  | zero => omega
  | succ limit ih =>
      have shorter := cursor.skipWhile_length_le isBlank
      rw [lexFrom]
      by_cases more : (cursor.skipWhile isBlank).rest = []
      · have read : tokenAt language (cursor.skipWhile isBlank) mode examinedEnd scanner =
            .ok ⟨endSymbol, 0, examinedEnd, scanner, cursor.skipWhile isBlank⟩ := by
          simp [tokenAt, more]
        simp only [read, bind, Except.bind, bne_self_eq_false, Bool.false_and, Bool.false_eq_true,
          if_false, if_neg knowsNoEnd.word]
        exact .inl ⟨_, _, rfl, shorter, fun other => absurd rfl other⟩
      · rcases tokenAt_size_pos progresses more mode examinedEnd scanner with
          ⟨found, read, nonempty⟩ | ⟨fault, failed, byScanner⟩
        · have taken := (fitsAt_tokenAt knowsNoEnd read).rest_lt nonempty
          simp only [read, bind, Except.bind]
          split
          case isTrue =>
              have fewer : found.next.rest.length < limit := by omega
              rcases ih _ found.examinedEnd found.scannerAfter fewer with
                ⟨lexeme, after, rest, less, _⟩ | failed
              · exact .inl ⟨lexeme, after, rest, by omega, fun _ => by omega⟩
              · exact .inr failed
          case isFalse => exact .inl ⟨_, _, rfl, by omega, fun _ => by omega⟩
        · refine .inr ⟨fault, ?_, byScanner⟩
          simp [failed, bind, Except.bind]

theorem lex_progress {language : Language} (knowsNoEnd : language.lexer.KnowsNoEnd)
    (progresses : language.lexer.Progresses) (cursor : Cursor) (mode : ValidExternals)
    (scanner : ScannerState) :
    (∃ lexeme after, lex language cursor mode scanner = .ok (lexeme, after) ∧
        after.rest.length ≤ cursor.rest.length ∧
        (lexeme.raw ≠ endSymbol → after.rest.length < cursor.rest.length)) ∨
      ∃ fault, lex language cursor mode scanner = .error fault ∧
        fault.OfScanner language.scanner :=
  lexFrom_progress knowsNoEnd progresses _ mode [] _ scanner (Nat.lt_succ_self _)

end Lalr
