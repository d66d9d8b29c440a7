import Lalr.Proofs.Parser.Simulation

set_option autoImplicit false

/-!
Reading two texts token by token. What is found at a place depends on the text from there on
alone. So two texts are read alike if at related places they hold the same tokens, and if what
follows these tokens is related again. Of two texts that differ in one part the places in front of
the part are the same, and those behind it are shifted.
-/

namespace Lalr

open Lalr.Text

/-! ## What is found in front of a text -/

/-- The scanner has nothing to say about the start of a text. -/
def Language.Declines (language : Language) (mode : ValidExternals) (scanner : ScannerState)
    (text : List Char) : Prop :=
  mode.isEmpty = true ∨ ∀ index length after examined,
    language.scanner.scan text mode scanner = .token index length after examined →
      language.lexer.externals[index]? = none ∨ length = 0

/-- A text starts with the content of a token, with something behind it. -/
inductive Language.Finds (language : Language) (mode : ValidExternals) (scanner : ScannerState) :
    List Char → List Char → SymbolId → ScannerState → Prop where
  | atEnd : Finds language mode scanner [] [] endSymbol scanner
  | scanned {content behind : List Char} {index examined : Nat} {symbol : SymbolId}
      {after : ScannerState} : content ≠ [] → mode.isEmpty = false →
      language.scanner.scan (content ++ behind) mode scanner =
        .token index (utf8Length content) after examined →
      language.lexer.externals[index]? = some symbol →
        Finds language mode scanner content behind symbol after
  | matched {content behind : List Char} {symbol : SymbolId} : content ++ behind ≠ [] →
      language.Declines mode scanner (content ++ behind) →
      language.lexer.matchToken? (content ++ behind) =
        some ⟨symbol, utf8Length content, behind⟩ →
        Finds language mode scanner content behind symbol scanner
  | unmatched {c : Char} {behind : List Char} : language.Declines mode scanner (c :: behind) →
      language.lexer.matchToken? (c :: behind) = none →
        Finds language mode scanner [c] behind errorSymbol scanner

theorem exists_finds_of_regularToken {language : Language} {mode : ValidExternals}
    {scanner : ScannerState} {place : Cursor} (more : place.rest ≠ [])
    (declines : language.Declines mode scanner place.rest) (examinedEnd : Nat) :
    let found := regularToken language.lexer place examinedEnd scanner
    ∃ content, place.Passes content found.next ∧ found.size = utf8Length content ∧
      language.Finds mode scanner content found.next.rest found.symbol found.scannerAfter := by
  intro found
  unfold found regularToken
  cases matched : language.lexer.matchToken? place.rest with
  | some found =>
      obtain ⟨content, split, length⟩ := Lexer.splits_of_matchToken? matched
      refine ⟨content, ⟨split, by rw [length]⟩, length.symm, ?_⟩
      rw [split] at more declines matched
      exact .matched more declines (by rw [matched, length])
  | none =>
      cases rest : place.rest with
      | nil => exact absurd rest more
      | cons c behind =>
          rw [rest] at declines matched
          exact ⟨[c], ⟨rest, by simp⟩, by simp, .unmatched declines matched⟩

theorem exists_finds_of_tokenAt {language : Language} {place : Cursor} {mode : ValidExternals}
    {examinedEnd : Nat} {scanner : ScannerState} {found : FoundToken}
    (read : tokenAt language place mode examinedEnd scanner = .ok found) :
    ∃ content, place.Passes content found.next ∧ found.size = utf8Length content ∧
      language.Finds mode scanner content found.next.rest found.symbol found.scannerAfter := by
  unfold tokenAt at read
  split at read
  case isTrue empty =>
      obtain rfl := Except.ok.inj read
      have empty := List.isEmpty_iff.mp empty
      refine ⟨[], .refl place, rfl, ?_⟩
      change language.Finds mode scanner [] place.rest endSymbol scanner
      rw [empty]
      exact .atEnd
  case isFalse more =>
      have more : place.rest ≠ [] := by simpa using more
      split at read
      case isTrue idle =>
          obtain rfl := Except.ok.inj read
          exact exists_finds_of_regularToken more (.inl idle) _
      case isFalse asked =>
          dsimp only at read
          cases scanned : language.scanner.scan place.rest mode scanner with
          | decline examined =>
              simp only [scanned] at read
              obtain rfl := Except.ok.inj read
              exact exists_finds_of_regularToken more (.inr (by simp [scanned])) _
          | token index length after examined =>
              have declines (refused : language.lexer.externals[index]? = none ∨ length = 0) :
                  language.Declines mode scanner place.rest := by
                refine .inr fun _ _ _ _ same => ?_
                rw [scanned] at same
                cases same
                exact refused
              simp only [scanned] at read
              split at read
              case h_1 undeclared =>
                  obtain rfl := Except.ok.inj read
                  exact exists_finds_of_regularToken more (declines (.inl undeclared)) _
              case h_2 symbol declared =>
                  split at read
                  case isTrue empty =>
                      obtain rfl := Except.ok.inj read
                      exact exists_finds_of_regularToken more (declines (.inr empty)) _
                  case isFalse nonempty =>
                      split at read
                      case h_1 => cases read
                      case h_2 behind advanced =>
                          obtain rfl := Except.ok.inj read
                          obtain ⟨content, passes, bytes⟩ := Cursor.Passes.of_advance? advanced
                          refine ⟨content, passes, bytes.symm, ?_⟩
                          rw [passes.rest, ← bytes] at scanned
                          refine .scanned ?_ (by simpa using asked) scanned declared
                          rintro rfl
                          exact nonempty bytes.symm

theorem tokenAt_of_declines {language : Language} {place : Cursor} {mode : ValidExternals}
    {scanner : ScannerState} (more : place.rest ≠ [])
    (declines : language.Declines mode scanner place.rest) (examinedEnd : Nat) :
    ∃ examined, tokenAt language place mode examinedEnd scanner =
      .ok (regularToken language.lexer place examined scanner) := by
  unfold tokenAt
  rw [if_neg (by simpa using more)]
  split
  case isTrue => exact ⟨_, rfl⟩
  case isFalse asked =>
      dsimp only
      rcases declines with idle | refused
      · exact absurd idle asked
      · cases scanned : language.scanner.scan place.rest mode scanner with
        | decline examined => exact ⟨_, rfl⟩
        | token index length after examined =>
            dsimp only
            rcases refused _ _ _ _ scanned with undeclared | empty
            · rw [undeclared]
              exact ⟨_, rfl⟩
            · split
              · exact ⟨_, rfl⟩
              · rw [if_pos empty]
                exact ⟨_, rfl⟩

/-- What is found in front of a text is the token at every place with this text behind it. -/
theorem Language.Finds.tokenAt {language : Language} {mode : ValidExternals}
    {scanner after : ScannerState} {content behind : List Char} {symbol : SymbolId}
    (finds : language.Finds mode scanner content behind symbol after) {place : Cursor}
    (rest : place.rest = content ++ behind) (examinedEnd : Nat) :
    ∃ examined, Lalr.tokenAt language place mode examinedEnd scanner =
      .ok ⟨symbol, utf8Length content, examined, after,
        ⟨place.offset + utf8Length content, behind⟩⟩ := by
  cases finds with
  | atEnd =>
      obtain ⟨offset, text⟩ := place
      obtain rfl : text = [] := rest
      exact ⟨examinedEnd, rfl⟩
  | @scanned _ _ index examined _ _ nonempty asked scans declared =>
      have more : content ++ behind ≠ [] := by simp [nonempty]
      have bytes : utf8Length content ≠ 0 := by
        have := length_le_utf8Length content
        have := List.length_pos_of_ne_nil nonempty
        omega
      have advanced : place.advance? (utf8Length content) =
          some ⟨place.offset + utf8Length content, behind⟩ := by
        rw [Cursor.advance?, dropBytes?, splitBytes?_eq_some_iff.mpr ⟨rest, rfl⟩]
        rfl
      refine ⟨max examinedEnd (place.offset + examined), ?_⟩
      unfold Lalr.tokenAt
      rw [rest, if_neg (by simpa using more), if_neg (by simp [asked])]
      dsimp only
      rw [scans]
      dsimp only
      rw [declared]
      dsimp only
      rw [if_neg bytes, advanced]
      rfl
  | matched more declines found =>
      rw [← rest] at more declines found
      obtain ⟨examined, read⟩ := tokenAt_of_declines more declines examinedEnd
      rw [read, regularToken, found]
      exact ⟨_, rfl⟩
  | @unmatched c _ declines none_found =>
      rw [List.singleton_append] at rest
      rw [← rest] at declines none_found
      obtain ⟨examined, read⟩ := tokenAt_of_declines (by simp [rest]) declines examinedEnd
      rw [read, regularToken, none_found, rest]
      exact ⟨max examined (place.offset + c.utf8Size), by simp⟩

/-! ## Lexemes -/

theorem utf8Length_eq_zero {text : List Char} : utf8Length text = 0 ↔ text = [] := by
  constructor
  · intro empty
    have := length_le_utf8Length text
    exact List.length_eq_zero_iff.mp (by omega)
  · rintro rfl
    rfl

theorem extent_eq_shapesLength (leaves : List Leaf) :
    extent leaves = shapesLength (leaves.map Leaf.shape) := by
  induction leaves with
  | nil => rfl
  | cons leaf leaves ih =>
      rw [List.map_cons, Leaf.shape, shapesLength, ← ih]
      rfl

/-- The extras that have been passed belong to the lexeme that is read in the end. -/
theorem prefix_extras_of_lexFrom {language : Language} {start : Nat} {mode : ValidExternals}
    {limit : Nat} {extras : List Leaf} {examinedEnd : Nat} {cursor after : Cursor}
    {scanner : ScannerState} {lexeme : Lexeme}
    (read : lexFrom language start mode limit extras examinedEnd cursor scanner =
      .ok (lexeme, after)) : lexeme.start = start ∧ extras.reverse <+: lexeme.extras := by
  induction limit generalizing extras examinedEnd cursor scanner with
  | zero => cases read
  | succ limit ih =>
      obtain ⟨found, _, rest⟩ := exists_of_bind_eq_ok read
      split at rest
      case isTrue =>
          obtain ⟨same, more⟩ := ih rest
          rw [List.reverse_cons] at more
          exact ⟨same, (List.prefix_append _ _).trans more⟩
      case isFalse =>
          obtain ⟨rfl, _⟩ := Prod.mk.inj (Except.ok.inj rest)
          exact ⟨rfl, List.prefix_refl _⟩

theorem mem_piecesFrom {start : Nat} {before behind : List Leaf} {leaf : Leaf}
    (present : leaf.missing = false) :
    ⟨start + extent before, leaf.padding, leaf.size, leaf.raw⟩ ∈
      piecesFrom start (before ++ leaf :: behind) := by
  rw [piecesFrom_append, piecesFrom]
  simp [present]

theorem Lexeme.token_mem_pieces {lexeme : Lexeme} (inside : lexeme.raw ≠ endSymbol) :
    lexeme.token ∈ lexeme.pieces := by
  rw [Lexeme.pieces, if_neg inside]
  exact List.mem_append_right _ List.mem_cons_self

/-- What is known of a token: where it starts and ends, and what it is. -/
def Lexeme.KnownBy (known : Nat → Nat → SymbolId → Prop) (lexeme : Lexeme) : Prop :=
  ∀ piece ∈ lexeme.pieces,
    known (piece.start + piece.padding) (piece.start + piece.padding + piece.size) piece.raw

/-- What is found at a place is found at another one too, up to its length. Behind it the places
are related again. A token that is no extra is the same keyword, if any, and behind it a lexeme may
start. -/
def Language.FindsAlike (language : Language) (ends : Nat → Nat → Prop)
    (related settled : Cursor → Cursor → Prop) (mode : ValidExternals)
    (scanner after : ScannerState) (content behind : List Char) (symbol : SymbolId)
    (place other : Cursor) : Prop :=
  ∃ content' behind', other.rest = content' ++ behind' ∧
    language.Finds mode scanner content' behind' symbol after ∧
    ends place.offset other.offset ∧
    related ⟨place.offset + utf8Length content, behind⟩
      ⟨other.offset + utf8Length content', behind'⟩ ∧
    (symbol = endSymbol ∨ language.lexer.isExtra symbol = false →
      (language.lexer.word = some symbol →
        language.lexer.keyword? content = language.lexer.keyword? content') ∧
      settled ⟨place.offset + utf8Length content, behind⟩
        ⟨other.offset + utf8Length content', behind'⟩)

/-- At related places two texts hold the same tokens, as long as what is read of the first one is
known. -/
structure Rereads (language : Language) (starts ends : Nat → Nat → Prop)
    (related settled : Cursor → Cursor → Prop) (known : Nat → Nat → SymbolId → Prop) : Prop where
  of_settled : ∀ {cursor other}, settled cursor other → related cursor other
  start : ∀ {cursor other}, settled cursor other → starts cursor.offset other.offset
  place : ∀ {cursor other}, related cursor other → ends cursor.offset other.offset
  adjacent : ∀ {cursor other : Cursor}, related cursor other →
    (cursor.rest.takeWhile isBlank = [] ↔ other.rest.takeWhile isBlank = [])
  token : ∀ {cursor other : Cursor} {mode : ValidExternals} {scanner after : ScannerState}
    {content behind : List Char} {symbol : SymbolId}, related cursor other →
      (cursor.skipWhile isBlank).rest = content ++ behind →
      language.Finds mode scanner content behind symbol after →
      (symbol ≠ endSymbol → ∃ raw, (raw = symbol ∨ language.lexer.word = some symbol) ∧
        known (cursor.skipWhile isBlank).offset
          ((cursor.skipWhile isBlank).offset + utf8Length content) raw) →
      language.FindsAlike ends related settled mode scanner after content behind symbol
        (cursor.skipWhile isBlank) (other.skipWhile isBlank)

section rereading

variable {language : Language} {starts ends : Nat → Nat → Prop}
  {related settled : Cursor → Cursor → Prop} {known : Nat → Nat → SymbolId → Prop}

theorem Language.Finds.content_ne (progresses : language.lexer.Progresses) {mode : ValidExternals}
    {scanner after : ScannerState} {content behind : List Char} {symbol : SymbolId}
    (finds : language.Finds mode scanner content behind symbol after)
    (inside : symbol ≠ endSymbol) : content ≠ [] := by
  cases finds with
  | atEnd => exact absurd rfl inside
  | scanned nonempty => exact nonempty
  | matched more _ found =>
      have positive := progresses _ _ more found
      rintro rfl
      exact absurd positive (Nat.lt_irrefl 0)
  | unmatched => exact List.cons_ne_nil _ _

/-- What is known of the lexeme that is read in the end is known of every token on the way. -/
theorem exists_known_of_extra {start : Nat} {mode : ValidExternals} {limit : Nat} {leaf : Leaf}
    {extras : List Leaf} {examinedEnd : Nat} {cursor after : Cursor} {scanner : ScannerState}
    {lexeme : Lexeme}
    (read : lexFrom language start mode limit (leaf :: extras) examinedEnd cursor scanner =
      .ok (lexeme, after)) (present : leaf.missing = false) (isKnown : lexeme.KnownBy known) :
    known (start + extent extras.reverse + leaf.padding)
      (start + extent extras.reverse + leaf.padding + leaf.size) leaf.raw := by
  obtain ⟨rfl, behind, whole⟩ := prefix_extras_of_lexFrom read
  refine isKnown ⟨lexeme.start + extent extras.reverse, leaf.padding, leaf.size, leaf.raw⟩ ?_
  rw [List.reverse_cons, List.append_assoc] at whole
  rw [Lexeme.pieces, ← whole]
  exact List.mem_append_left _ (mem_piecesFrom present)

theorem moved_snoc {start start' : Nat} {shapes others : List LeafShape}
    (moved : Moved ends start start' shapes others) {cursor other : Nat}
    (reached : cursor = start + shapesLength shapes)
    (reached' : other = start' + shapesLength others) {padding size padding' size' : Nat}
    {raw raw' : SymbolId} (place : ends (cursor + padding) (other + padding'))
    (next : ends (cursor + padding + size) (other + padding' + size')) :
    Moved ends start start' (shapes ++ [(padding, size, raw)])
      (others ++ [(padding', size', raw')]) := by
  subst reached reached'
  exact moved.append (.cons moved.finish place (.nil next))

theorem raw_of_content (knowsNoEnd : language.lexer.KnowsNoEnd) (content : List Char)
    {symbol : SymbolId} (inside : symbol ≠ endSymbol) :
    let raw := (if language.lexer.word = some symbol then language.lexer.keyword? content
      else none).getD symbol
    (raw = symbol ∨ language.lexer.word = some symbol) ∧ raw ≠ endSymbol := by
  intro raw
  unfold raw
  split
  case isFalse => exact ⟨.inl rfl, inside⟩
  case isTrue isWord =>
      refine ⟨.inr isWord, ?_⟩
      cases found : language.lexer.keyword? content with
      | none => exact inside
      | some keyword => exact knowsNoEnd.keyword? found

/-- From related places on, a lexeme is read alike. -/
theorem lexFrom_alike (knowsNoEnd : language.lexer.KnowsNoEnd)
    (progresses : language.lexer.Progresses)
    (rereads : Rereads language starts ends related settled known) {start start' : Nat}
    {mode : ValidExternals} {limit limit' : Nat} {extras extras' : List Leaf}
    {examinedEnd examinedEnd' : Nat} {cursor other next : Cursor} {scanner : ScannerState}
    {lexeme : Lexeme} (here : related cursor other)
    (same : extras.map Leaf.outline = extras'.map Leaf.outline)
    (moved : Moved ends start start' (extras.reverse.map Leaf.shape)
      (extras'.reverse.map Leaf.shape))
    (reached : cursor.offset = start + shapesLength (extras.reverse.map Leaf.shape))
    (reached' : other.offset = start' + shapesLength (extras'.reverse.map Leaf.shape))
    (enough : other.rest.length < limit')
    (read : lexFrom language start mode limit extras examinedEnd cursor scanner =
      .ok (lexeme, next)) (isKnown : lexeme.KnownBy known) :
    ∃ lexeme' next',
      lexFrom language start' mode limit' extras' examinedEnd' other scanner =
        .ok (lexeme', next') ∧
      lexeme.outline = lexeme'.outline ∧ lexeme.isAdjacent = lexeme'.isAdjacent ∧
      Moved ends start start' lexeme.shapes lexeme'.shapes ∧ settled next next' := by
  induction limit generalizing limit' extras extras' examinedEnd examinedEnd' cursor other scanner
    with
  | zero => cases read
  | succ limit ih =>
      cases limit' with
      | zero => omega
      | succ limit' =>
          obtain ⟨⟨symbol, size, examined, after, ⟨offset, behind⟩⟩, finding, rest⟩ :=
            exists_of_bind_eq_ok read
          obtain ⟨content, ⟨split, rfl⟩, rfl, finds⟩ := exists_finds_of_tokenAt finding
          dsimp only at split finds rest
          obtain ⟨blanks, blankLength⟩ := Cursor.Passes.skipWhile cursor isBlank
          obtain ⟨blanks', blankLength'⟩ := Cursor.Passes.skipWhile other isBlank
          have padding : cursor.offset + ((cursor.skipWhile isBlank).offset - cursor.offset) =
            (cursor.skipWhile isBlank).offset := by omega
          have padding' : other.offset + ((other.skipWhile isBlank).offset - other.offset) =
            (other.skipWhile isBlank).offset := by omega
          split at rest
          case isTrue isExtra =>
              have inside : symbol ≠ endSymbol := by
                rintro rfl
                simp at isExtra
              have knownExtra := exists_known_of_extra rest rfl isKnown
              rw [extent_eq_shapesLength, ← reached] at knownExtra
              dsimp only at knownExtra
              rw [padding] at knownExtra
              obtain ⟨content', behind', split', finds', place, related', _⟩ :=
                rereads.token here split finds fun _ => ⟨symbol, .inl rfl, knownExtra⟩
              obtain ⟨examined', read'⟩ := finds'.tokenAt split' examinedEnd'
              have nonempty := List.length_pos_of_ne_nil (finds'.content_ne progresses inside)
              have lengths := congrArg List.length split'
              have shorter := other.skipWhile_length_le isBlank
              rw [List.length_append] at lengths
              rw [lexFrom]
              simp only [read', bind, Except.bind, isExtra, if_true]
              refine ih related' ?_ ?_ ?_ ?_ (by dsimp only; omega) rest
              · simp only [List.map_cons, same]
                rfl
              · simp only [List.reverse_cons, List.map_append, List.map_cons, List.map_nil]
                refine moved_snoc moved reached reached' ?_ ?_
                · rwa [padding, padding']
                · rw [padding, padding']
                  exact rereads.place related'
              · simp only [List.reverse_cons, List.map_append, shapesLength_append, List.map_cons,
                  List.map_nil, Leaf.shape, shapesLength]
                omega
              · simp only [List.reverse_cons, List.map_append, shapesLength_append, List.map_cons,
                  List.map_nil, Leaf.shape, shapesLength]
                omega
          case isFalse isToken =>
              simp only [splitBytes?_eq_some_iff.mpr ⟨split, rfl⟩] at rest
              obtain ⟨rfl, rfl⟩ := Prod.mk.inj (Except.ok.inj rest)
              have knownToken : symbol ≠ endSymbol → ∃ raw,
                  (raw = symbol ∨ language.lexer.word = some symbol) ∧
                    known (cursor.skipWhile isBlank).offset
                      ((cursor.skipWhile isBlank).offset + utf8Length content) raw := by
                intro inside
                obtain ⟨named, other⟩ := raw_of_content knowsNoEnd content inside
                have token := isKnown _ (Lexeme.token_mem_pieces other)
                dsimp only [Lexeme.token] at token
                rw [padding] at token
                exact ⟨_, named, token⟩
              obtain ⟨content', behind', split', finds', place, related', further⟩ :=
                rereads.token here split finds knownToken
              obtain ⟨examined', read'⟩ := finds'.tokenAt split' examinedEnd'
              have final : symbol = endSymbol ∨ language.lexer.isExtra symbol = false := by
                by_cases atEnd : symbol = endSymbol
                · exact .inl atEnd
                · exact .inr (by simpa [atEnd] using isToken)
              obtain ⟨keywords, settled'⟩ := further final
              have looked : (if language.lexer.word = some symbol then
                  language.lexer.keyword? content' else none) =
                  if language.lexer.word = some symbol then language.lexer.keyword? content
                  else none := by
                split
                · exact (keywords ‹_›).symm
                · rfl
              rw [lexFrom]
              simp only [read', bind, Except.bind, if_neg isToken,
                splitBytes?_eq_some_iff.mpr ⟨split', rfl⟩, looked]
              refine ⟨_, _, rfl, ?_, ?_, ?_, settled'⟩
              · simp only [Lexeme.outline, List.map_reverse, same]
              · have lengths := congrArg List.length same
                rw [List.length_map, List.length_map] at lengths
                have empty : extras.isEmpty = extras'.isEmpty := by
                  rw [Bool.eq_iff_iff, List.isEmpty_iff_length_eq_zero,
                    List.isEmpty_iff_length_eq_zero, lengths]
                have beside := rereads.adjacent here
                rw [← utf8Length_eq_zero, ← utf8Length_eq_zero] at beside
                simp only [Lexeme.isAdjacent, List.isEmpty_reverse, empty, blankLength,
                  blankLength', Nat.add_sub_cancel_left]
                rw [Bool.eq_iff_iff]
                simp [beside]
              · refine moved_snoc moved reached reached' ?_ ?_
                · rwa [padding, padding']
                · rw [padding, padding']
                  exact rereads.place related'

/-- Two texts with the same tokens at related places are read alike. -/
theorem readsAlike_of_rereads (knowsNoEnd : language.lexer.KnowsNoEnd)
    (progresses : language.lexer.Progresses)
    (rereads : Rereads language starts ends related settled known) :
    ReadsAlike language starts ends settled (Lexeme.KnownBy known) := by
  intro cursor other next mode scanner lexeme here read isKnown
  have related := rereads.of_settled here
  obtain ⟨lexeme', next', read', outline, adjacent, moved, settled⟩ :=
    lexFrom_alike knowsNoEnd progresses rereads related rfl (.nil (rereads.place related)) rfl rfl
      (Nat.lt_succ_self _) read isKnown
  have start := (prefix_extras_of_lexFrom read).1
  have start' := (prefix_extras_of_lexFrom read').1
  exact ⟨lexeme', next', read',
    ⟨outline, adjacent, by rw [start, start']; exact rereads.start here,
      by rw [start, start']; exact moved⟩, settled⟩

/-- Two texts with the same tokens at related places are parsed into trees of one outline whose
leaves stand at corresponding places. -/
theorem Parser.parse_of_rereads {grammar : FlatGrammar}
    (represents : language.tables.Represents grammar) (knowsNoEnd : language.lexer.KnowsNoEnd)
    (progresses : language.lexer.Progresses)
    (rereads : Rereads language starts ends related settled known)
    (unique : Relator.BiUnique starts) {config : ParseConfig} {text text' : String} {number : Nat}
    {tree : Tree} {stats : ParseStats}
    (begins : settled (Cursor.start text.toList) (Cursor.start text'.toList))
    (parsed : (Parser.mk config (some ⟨number, language⟩)).parse text none = .ok (tree, stats))
    (isKnown : ∀ piece ∈ piecesFrom 0 tree.root.leaves,
      known (piece.start + piece.padding) (piece.start + piece.padding + piece.size) piece.raw) :
    ∃ tree' stats',
      (Parser.mk config (some ⟨number, language⟩)).parse text' none = .ok (tree', stats') ∧
      tree.language = tree'.language ∧ tree.root.outline = tree'.root.outline ∧
      Moved ends 0 0 (tree.root.leaves.map Leaf.shape) (tree'.root.leaves.map Leaf.shape) := by
  obtain ⟨root, ran, rfl⟩ := parse_ok parsed
  exact parse_alike represents knowsNoEnd (readsAlike_of_rereads knowsNoEnd progresses rereads)
    unique begins (fun lexeme listed piece member =>
      isKnown piece (pieces_subset_of_run represents knowsNoEnd rfl ran listed member)) parsed

end rereading

/-! ## Texts that differ in one part -/

/-- A part of a text and what stands in its place in another one. -/
structure Exchange where
  front : List Char
  part : List Char
  part' : List Char
  behind : List Char

namespace Exchange

variable (exchange : Exchange)

/-- Where a place outside of the part is in the second text. -/
def shift (place : Nat) : Nat :=
  if place ≤ utf8Length exchange.front then place
  else place - utf8Length exchange.part + utf8Length exchange.part'

/-- The same place in both texts, outside of the part. -/
inductive Corresponds : Nat → Nat → Prop where
  | before {place : Nat} : place ≤ utf8Length exchange.front → Corresponds place place
  | behind (count : Nat) : Corresponds
      (utf8Length exchange.front + utf8Length exchange.part + count)
      (utf8Length exchange.front + utf8Length exchange.part' + count)

/-- The same place in both texts, with what stands behind it. -/
inductive Beside : Cursor → Cursor → Prop where
  | before {offset : Nat} (ahead : List Char) :
      offset + utf8Length ahead = utf8Length exchange.front →
        Beside ⟨offset, ahead ++ (exchange.part ++ exchange.behind)⟩
          ⟨offset, ahead ++ (exchange.part' ++ exchange.behind)⟩
  | behind (count : Nat) (rest : List Char) : Beside
      ⟨utf8Length exchange.front + utf8Length exchange.part + count, rest⟩
      ⟨utf8Length exchange.front + utf8Length exchange.part' + count, rest⟩

/-- Something that ends before the part or starts behind it. -/
def Spares (start finish : Nat) : Prop :=
  finish ≤ utf8Length exchange.front ∨
    utf8Length exchange.front + utf8Length exchange.part ≤ start

variable {exchange}

theorem utf8Length_pos {text : List Char} (more : text ≠ []) : 0 < utf8Length text :=
  Nat.pos_of_ne_zero fun empty => more (utf8Length_eq_zero.mp empty)

theorem biUnique_corresponds (more : exchange.part ≠ []) (more' : exchange.part' ≠ []) :
    Relator.BiUnique exchange.Corresponds := by
  have wide := utf8Length_pos more
  have wide' := utf8Length_pos more'
  constructor
  · intro first second place left right
    cases left with
    | before le =>
        cases right with
        | before => rfl
        | behind count => omega
    | behind count =>
        generalize same : utf8Length exchange.front + utf8Length exchange.part' + count = place
          at right
        cases right with
        | before le => omega
        | behind other => omega
  · intro place first second left right
    cases left with
    | before le =>
        cases right with
        | before => rfl
        | behind count => omega
    | behind count =>
        generalize same : utf8Length exchange.front + utf8Length exchange.part + count = place
          at right
        cases right with
        | before le => omega
        | behind other => omega

theorem Corresponds.shift_eq {place other : Nat} (more : exchange.part ≠ [])
    (same : exchange.Corresponds place other) : exchange.shift place = other := by
  have wide := utf8Length_pos more
  unfold shift
  cases same with
  | before le => rw [if_pos le]
  | behind count =>
      rw [if_neg (by omega)]
      omega

theorem Beside.corresponds {cursor other : Cursor} (beside : exchange.Beside cursor other) :
    exchange.Corresponds cursor.offset other.offset := by
  cases beside with
  | before ahead placed => exact .before (Nat.le.intro placed)
  | behind count rest => exact .behind count

/-- A token that spares the part and starts before it ends before it. -/
theorem Spares.prefix {offset : Nat} {c : Char} {ahead content rest : List Char}
    (spares : exchange.Spares offset (offset + utf8Length content))
    (placed : offset + utf8Length (c :: ahead) = utf8Length exchange.front)
    (split : c :: ahead ++ (exchange.part ++ exchange.behind) = content ++ rest) :
    content <+: c :: ahead := by
  have positive := c.utf8Size_pos
  refine prefix_of_utf8Length_le ⟨rest, split.symm⟩ (List.prefix_append _ _) ?_
  rw [utf8Length_cons] at placed ⊢
  rcases spares with before | behind
  · omega
  · omega

/-- Behind the part both texts are the same. -/
theorem findsAlike_behind {language : Language} {ends : Nat → Nat → Prop}
    {related settled : Cursor → Cursor → Prop}
    (of_settled : ∀ {cursor other}, settled cursor other → related cursor other)
    (place : ∀ {cursor other}, related cursor other → ends cursor.offset other.offset)
    (settles : ∀ {cursor other}, exchange.Beside cursor other → settled cursor other)
    {mode : ValidExternals} {scanner after : ScannerState} {content behind : List Char}
    {symbol : SymbolId} (finds : language.Finds mode scanner content behind symbol after)
    {count : Nat} {rest : List Char} (split : rest.dropWhile isBlank = content ++ behind) :
    language.FindsAlike ends related settled mode scanner after content behind symbol
      (Cursor.skipWhile
        ⟨utf8Length exchange.front + utf8Length exchange.part + count, rest⟩ isBlank)
      (Cursor.skipWhile
        ⟨utf8Length exchange.front + utf8Length exchange.part' + count, rest⟩ isBlank) := by
  have beside (rest : List Char) (count : Nat) := settles (Beside.behind count rest)
  have here := beside (content ++ behind) (count + utf8Length (rest.takeWhile isBlank))
  have next := beside behind (count + utf8Length (rest.takeWhile isBlank) + utf8Length content)
  rw [Cursor.skipWhile, Cursor.skipWhile, split]
  simp only [← Nat.add_assoc] at here next
  exact ⟨content, behind, rfl, finds, place (of_settled here), of_settled next,
    fun _ => ⟨fun _ => rfl, next⟩⟩

/-- A token that ends before the part and is found in both texts. -/
theorem findsAlike_before {language : Language} {ends : Nat → Nat → Prop}
    {related settled : Cursor → Cursor → Prop}
    (of_settled : ∀ {cursor other}, settled cursor other → related cursor other)
    (place : ∀ {cursor other}, related cursor other → ends cursor.offset other.offset)
    (settles : ∀ {cursor other}, exchange.Beside cursor other → settled cursor other)
    {mode : ValidExternals} {scanner after : ScannerState} {content rest rest' ahead : List Char}
    {symbol : SymbolId} {offset : Nat}
    (placed : offset + utf8Length ahead = utf8Length exchange.front) (inside : content <+: ahead)
    (split : ahead ++ (exchange.part ++ exchange.behind) = content ++ rest)
    (split' : ahead ++ (exchange.part' ++ exchange.behind) = content ++ rest')
    (finds : language.Finds mode scanner content rest' symbol after) :
    language.FindsAlike ends related settled mode scanner after content rest symbol
      ⟨offset, ahead ++ (exchange.part ++ exchange.behind)⟩
      ⟨offset, ahead ++ (exchange.part' ++ exchange.behind)⟩ := by
  have here := settles (Beside.before ahead placed)
  obtain ⟨more, rfl⟩ := inside
  rw [List.append_assoc] at split split'
  obtain rfl := List.append_cancel_left split
  obtain rfl := List.append_cancel_left split'
  rw [utf8Length_append, ← Nat.add_assoc] at placed
  have next := settles (Beside.before more placed)
  exact ⟨content, _, List.append_assoc _ _ _, finds, place (of_settled here), of_settled next,
    fun _ => ⟨fun _ => rfl, next⟩⟩

end Exchange

end Lalr
