import Lalr.Proofs.Language.External
import Lalr.Proofs.Parser.Holding
import Lalr.Proofs.Parser.Session

set_option autoImplicit false

/-!
How the state of the scanner travels through a tree. Each token is read in the state that the
one before it left, missing tokens are passed over, and only external tokens change the state.
This holds of every tree that a parser returns, whatever was taken over from older trees.
-/

namespace Lalr

open Lalr.Text

/-! ## Leaves -/

/-- The scanner can report a token, and then turns from one state to another. -/
def Scanner.Turns (scanner : Scanner) (index : Nat) (before after : ScannerState) : Prop :=
  ∃ text valid length examined,
    scanner.scan text valid before = .token index length after examined

/-- What reading a token does to the state of the scanner: an external token turns it, any other
token leaves it alone. -/
def Language.Advances (language : Language) (symbol : SymbolId) (before after : ScannerState) :
    Prop :=
  (symbol ∉ language.lexer.externals ∧ after = before) ∨
    ∃ index, language.lexer.externals[index]? = some symbol ∧
      language.scanner.Turns index before after

/-- A token that was read stands for another symbol only if neither is an external token. -/
def Language.Agrees (language : Language) (raw symbol : SymbolId) : Prop :=
  symbol = raw ∨ (raw ∉ language.lexer.externals ∧ symbol ∉ language.lexer.externals)

/-- What a leaf knows of the scanner. Missing tokens were not read. -/
structure Leaf.Lawful (language : Language) (leaf : Leaf) : Prop where
  advances : leaf.missing = false →
    language.Advances leaf.raw leaf.scannerBefore leaf.scannerAfter
  agrees : language.Agrees leaf.raw leaf.symbol
  extra : leaf.extra = true → leaf.raw ∉ language.lexer.externals

theorem Leaf.Lawful.unchanged {language : Language} {leaf : Leaf} (lawful : leaf.Lawful language)
    (present : leaf.missing = false) (extra : leaf.extra = true) :
    leaf.scannerAfter = leaf.scannerBefore := by
  rcases lawful.advances present with ⟨_, same⟩ | ⟨_, listed, _⟩
  · exact same
  · exact absurd (List.mem_of_getElem? listed) (lawful.extra extra)

/-- Each leaf was read in the state of the scanner that the one before it left. -/
def HandsOn : ScannerState → List Leaf → ScannerState → Prop
  | before, [], after => before = after
  | before, leaf :: leaves, after =>
      leaf.scannerBefore = before ∧ HandsOn leaf.scannerAfter leaves after

theorem handsOn_append_iff {before after : ScannerState} {first second : List Leaf} :
    HandsOn before (first ++ second) after ↔
      ∃ middle, HandsOn before first middle ∧ HandsOn middle second after := by
  induction first generalizing before with
  | nil => simp [HandsOn]
  | cons leaf first ih => simp [HandsOn, ih, and_assoc]

theorem HandsOn.append {before middle after : ScannerState} {first second : List Leaf}
    (left : HandsOn before first middle) (right : HandsOn middle second after) :
    HandsOn before (first ++ second) after :=
  handsOn_append_iff.mpr ⟨middle, left, right⟩

/-- Extras hand on the state that they were read in. -/
theorem HandsOn.of_extras {language : Language} {before after : ScannerState} {leaves : List Leaf}
    (handsOn : HandsOn before (solid leaves) after)
    (lawful : ∀ leaf ∈ leaves, leaf.Lawful language)
    (extras : ∀ leaf ∈ leaves, leaf.extra = true) : after = before := by
  induction leaves generalizing before with
  | nil => exact handsOn.symm
  | cons leaf leaves ih =>
      have others := fun other member => lawful other (List.mem_cons_of_mem leaf member)
      have otherExtras := fun other member => extras other (List.mem_cons_of_mem leaf member)
      cases missing : leaf.missing with
      | true =>
          rw [solid_of_missing missing] at handsOn
          exact ih handsOn others otherExtras
      | false =>
          rw [solid_cons missing] at handsOn
          obtain ⟨rfl, rest⟩ := handsOn
          exact (ih rest others otherExtras).trans ((lawful leaf List.mem_cons_self).unchanged missing
            (extras leaf List.mem_cons_self))

/-! ## Lexemes -/

/-- What a lexeme that waits knows of the scanner. -/
structure Lexeme.Lawful (language : Language) (lexeme : Lexeme) : Prop where
  present : lexeme.fresh = true → lexeme.missing = false
  advances : lexeme.missing = false →
    language.Advances lexeme.raw lexeme.scannerBefore lexeme.scannerAfter
  extras : ∀ leaf ∈ lexeme.extras, leaf.Lawful language
  word : ∀ word ∈ lexeme.word,
    lexeme.raw ∉ language.lexer.externals ∧ word ∉ language.lexer.externals
  symbol : ∀ symbol ∈ lexeme.symbol, language.Agrees lexeme.raw symbol

section lexing

variable {language : Language} (apart : language.lexer.SetsApart)

include apart

theorem advances_of_tokenAt {place : Cursor} {mode : ValidExternals} {examinedEnd : Nat}
    {state : ScannerState} {found : FoundToken}
    (read : tokenAt language place mode examinedEnd state = .ok found) :
    language.Advances found.symbol state found.scannerAfter := by
  have regular : ∀ examinedEnd, language.Advances
      (regularToken language.lexer place examinedEnd state).symbol state
      (regularToken language.lexer place examinedEnd state).scannerAfter := by
    intro examinedEnd
    unfold regularToken
    split
    case h_1 matched => exact .inl ⟨apart.found matched, rfl⟩
    case h_2 => split <;> exact .inl ⟨apart.error, rfl⟩
  rcases tokenAt_cases read with ⟨_, rfl⟩ | ⟨_, examined, rfl⟩ |
    ⟨_, index, _, _, _, _, _, scanned, declared, _, rfl⟩
  · exact .inl ⟨apart.atEnd, rfl⟩
  · exact regular examined
  · exact .inr ⟨index, declared, _, _, _, _, scanned⟩

theorem lawful_of_lexFrom {start : Nat} {mode : ValidExternals} {limit : Nat}
    {extras : List Leaf} {examinedEnd : Nat} {cursor after : Cursor} {origin state : ScannerState}
    {lexeme : Lexeme} (passed : HandsOn origin (solid extras.reverse) state)
    (lawful : ∀ leaf ∈ extras, leaf.Lawful language)
    (read : lexFrom language start mode limit extras examinedEnd cursor state =
      .ok (lexeme, after)) :
    lexeme.Lawful language ∧ HandsOn origin lexeme.plainLeaves lexeme.scannerAfter := by
  induction limit generalizing extras examinedEnd cursor state with
  | zero => cases read
  | succ limit ih =>
      obtain ⟨found, finding, rest⟩ := exists_of_bind_eq_ok read
      have advances := advances_of_tokenAt apart finding
      split at rest
      case isTrue isExtra =>
          have ordinary := apart.extra (Bool.and_eq_true_iff.mp isExtra).2
          refine ih ?_ ?_ rest
          · rw [List.reverse_cons, solid_append]
            exact passed.append ⟨rfl, rfl⟩
          · intro leaf member
            rcases List.mem_cons.mp member with rfl | old
            · exact ⟨fun _ => advances, .inl rfl, fun _ => ordinary⟩
            · exact lawful leaf old
      case isFalse =>
          obtain ⟨rfl, rfl⟩ := Prod.mk.inj (Except.ok.inj rest)
          generalize known : (if language.lexer.word = some found.symbol then
            (_ : Option SymbolId) else none) = keyword
          -- a keyword is looked up for the word token only, and both leave the scanner alone
          have spelled : ∀ symbol ∈ keyword, symbol ∉ language.lexer.externals ∧
              found.symbol ∉ language.lexer.externals := by
            rintro symbol rfl
            split at known
            case isFalse => cases known
            case isTrue isWord =>
                refine ⟨?_, apart.word isWord⟩
                split at known
                case h_1 => exact apart.keyword known
                case h_2 => cases known
          have advancesRaw : language.Advances (keyword.getD found.symbol) state
              found.scannerAfter := by
            cases keyword with
            | none => exact advances
            | some symbol =>
                obtain ⟨ordinary, other⟩ := spelled symbol rfl
                rcases advances with ⟨_, same⟩ | ⟨_, listed, _⟩
                · exact .inl ⟨ordinary, same⟩
                · exact absurd (List.mem_of_getElem? listed) other
          refine ⟨⟨fun _ => rfl, fun _ => advancesRaw, ?_, ?_, nofun⟩, ?_⟩
          · exact fun leaf member => lawful leaf (List.mem_reverse.mp member)
          · intro word isWord
            obtain ⟨symbol, rfl, rfl⟩ := Option.map_eq_some_iff.mp isWord
            exact spelled symbol rfl
          · simp only [Lexeme.plainLeaves, Lexeme.leavesAs, solid_append]
            exact passed.append ⟨rfl, rfl⟩

theorem lawful_of_lex {cursor after : Cursor} {mode : ValidExternals} {state : ScannerState}
    {lexeme : Lexeme} (read : lex language cursor mode state = .ok (lexeme, after)) :
    lexeme.Lawful language ∧ HandsOn state lexeme.plainLeaves lexeme.scannerAfter := by
  have none_passed : HandsOn state (solid [].reverse) state := rfl
  exact lawful_of_lexFrom apart none_passed (by simp) read

theorem ReadInTurn.handsOn {cursor last : Cursor} {state final : ScannerState}
    {lexemes : List Lexeme} (inTurn : ReadInTurn language cursor state lexemes last final) :
    (∀ lexeme ∈ lexemes, lexeme.Lawful language) ∧
      HandsOn state (lexemes.flatMap Lexeme.plainLeaves) final := by
  induction inTurn with
  | nil => exact ⟨by simp, rfl⟩
  | cons read _ ih =>
      obtain ⟨lawful, handsOn⟩ := lawful_of_lex apart read
      obtain ⟨others, rest⟩ := ih
      exact ⟨fun lexeme member => (List.mem_cons.mp member).elim (· ▸ lawful) (others lexeme),
        handsOn.append rest⟩

end lexing

namespace Lexeme.Lawful

variable {language : Language} {lexeme : Lexeme}

theorem forget (lawful : lexeme.Lawful language) :
    ({ lexeme with symbol := none } : Lexeme).Lawful language :=
  ⟨lawful.present, lawful.advances, lawful.extras, lawful.word, nofun⟩

theorem readAhead (lawful : lexeme.Lawful language) : lexeme.readAhead.Lawful language :=
  ⟨nofun, lawful.advances, lawful.extras, lawful.word, lawful.symbol⟩

theorem ofMissing (language : Language) (symbol : SymbolId) (position : Nat)
    (mode : ValidExternals) : (Lexeme.ofMissing symbol position mode).Lawful language :=
  ⟨nofun, nofun, nofun, nofun, fun _ same => .inl (Option.some.inj same).symm⟩

theorem agrees_resolveSymbol (lawful : lexeme.Lawful language)
    (apart : language.lexer.SetsApart) (state : StateId) :
    language.Agrees lexeme.raw (resolveSymbol language state lexeme) := by
  have readAs : language.Agrees lexeme.raw (lexeme.readAs language state) := by
    unfold readAs
    split
    case h_1 word isWord =>
        split
        · exact .inl rfl
        · exact .inr (lawful.word word isWord)
    case h_2 => exact .inl rfl
  rw [resolveSymbol_eq]
  split
  case isFalse => exact readAs
  case isTrue =>
      unfold twinOr
      split
      case h_2 => exact readAs
      case h_1 twin found =>
          split
          · exact readAs
          · obtain ⟨ordinary, other⟩ := apart.twin found
            rcases readAs with same | ⟨raw, _⟩
            · exact .inr ⟨same ▸ ordinary, other⟩
            · exact .inr ⟨raw, other⟩

theorem named {input : ParseInput} {state : ParseState} (lawful : lexeme.Lawful input.language)
    (apart : input.language.lexer.SetsApart) :
    ({ lexeme with symbol := some (state.symbolOf input lexeme) } : Lexeme).Lawful
      input.language := by
  refine ⟨lawful.present, lawful.advances, lawful.extras, lawful.word, fun symbol same => ?_⟩
  obtain rfl := Option.some.inj same
  unfold ParseState.symbolOf
  cases known : lexeme.symbol with
  | some symbol => exact lawful.symbol symbol known
  | none => exact lawful.agrees_resolveSymbol apart state.topState

end Lexeme.Lawful

/-! ## Subtrees -/

/-- What a later parse relies on in a subtree for the state of the scanner. -/
structure Subtree.Lawful (language : Language) (subtree : Subtree) : Prop where
  leaf : ∀ leaf, subtree = .leaf leaf → leaf.Lawful language
  lookahead : ∀ head children lookahead, subtree = .node head children →
    head.lookahead = some lookahead → language.Agrees lookahead.raw lookahead.symbol
  derivation : subtree.isReusable = true →
    subtree.IsDerivation language ∧ subtree.FollowsProductions language

namespace Subtree

variable {language : Language}

theorem lenient_lawful : Lenient (Lawful language) where
  ofError children := by
    refine ⟨nofun, fun head below lookahead same ahead => ?_, fun reusable => ?_⟩
    · obtain ⟨rfl, _⟩ := Subtree.node.inj same
      cases ahead
    · have noExtra := isExtra_of_isReusable reusable
      cases noExtra
  root symbol production children := by
    refine ⟨nofun, fun head below lookahead same ahead => ?_, fun reusable => ?_⟩
    · obtain ⟨rfl, _⟩ := Subtree.node.inj same
      cases ahead
    · simp [root, isReusable, isReusableWith] at reusable

theorem lawful_leaf {leaf : Leaf} (lawful : leaf.Lawful language) :
    (Subtree.leaf leaf).Lawful language :=
  ⟨fun _ same => Subtree.leaf.inj same ▸ lawful, nofun, nofun⟩

mutual

theorem firstLeaf?_eq_head? (subtree : Subtree) : subtree.firstLeaf? = subtree.leaves.head? := by
  cases subtree with
  | leaf token => rfl
  | node head children => exact firstLeafOf?_eq_head? children

theorem firstLeafOf?_eq_head? (children : List Subtree) :
    firstLeafOf? children = (leavesOf children).head? := by
  cases children with
  | nil => rfl
  | cons child children =>
      rw [firstLeafOf?, leavesOf, List.head?_append, firstLeaf?_eq_head? child,
        firstLeafOf?_eq_head? children]

end

mutual

/-- The last leaf that is no extra has only extras behind it. -/
theorem lastLeaf?_spec (subtree : Subtree) {last : Leaf} (isLast : subtree.lastLeaf? = some last) :
    ∃ front behind, subtree.leaves = front ++ last :: behind ∧
      ∀ leaf ∈ behind, leaf.extra = true := by
  cases subtree with
  | leaf token =>
      rw [lastLeaf?] at isLast
      split at isLast
      case isTrue => cases isLast
      case isFalse =>
          obtain rfl := Option.some.inj isLast
          exact ⟨[], [], rfl, by simp⟩
  | node head children => exact lastLeafOf?_spec children isLast

theorem lastLeafOf?_spec (children : List Subtree) {last : Leaf}
    (isLast : lastLeafOf? children = some last) :
    ∃ front behind, leavesOf children = front ++ last :: behind ∧
      ∀ leaf ∈ behind, leaf.extra = true := by
  cases children with
  | nil => cases isLast
  | cons child children =>
      rw [lastLeafOf?] at isLast
      cases later : lastLeafOf? children with
      | some other =>
          obtain rfl := Option.some.inj ((later ▸ isLast : (some other).or _ = some last))
          obtain ⟨front, behind, shape, extras⟩ := lastLeafOf?_spec children later
          exact ⟨child.leaves ++ front, behind, by rw [leavesOf, shape, List.append_assoc], extras⟩
      | none =>
          rw [later, Option.none_or] at isLast
          obtain ⟨front, behind, shape, extras⟩ := lastLeaf?_spec child isLast
          refine ⟨front, behind ++ leavesOf children, by rw [leavesOf, shape]; simp, ?_⟩
          intro leaf member
          exact (List.mem_append.mp member).elim (extras leaf) (lastLeafOf?_eq_none children later leaf)

theorem lastLeaf?_eq_none (subtree : Subtree) (none_last : subtree.lastLeaf? = none) :
    ∀ leaf ∈ subtree.leaves, leaf.extra = true := by
  cases subtree with
  | leaf token =>
      rw [lastLeaf?] at none_last
      split at none_last
      case isTrue extra => exact fun leaf member => List.mem_singleton.mp member ▸ extra
      case isFalse => cases none_last
  | node head children => exact lastLeafOf?_eq_none children none_last

theorem lastLeafOf?_eq_none (children : List Subtree) (none_last : lastLeafOf? children = none) :
    ∀ leaf ∈ leavesOf children, leaf.extra = true := by
  cases children with
  | nil => exact fun leaf member => absurd member List.not_mem_nil
  | cons child children =>
      rw [lastLeafOf?, Option.or_eq_none_iff] at none_last
      intro leaf member
      rw [leavesOf] at member
      exact (List.mem_append.mp member).elim (lastLeaf?_eq_none child none_last.2 leaf)
        (lastLeafOf?_eq_none children none_last.1 leaf)

end

theorem containsError_of_isReusable {subtree : Subtree} (reusable : subtree.isReusable = true) :
    subtree.containsError = false := by
  cases subtree with
  | leaf token => cases reusable
  | node head children =>
      simp only [isReusable, isReusableWith, summary, Bool.and_eq_true,
        Bool.not_eq_true'] at reusable
      exact reusable.1.1.1.1.2

theorem LiesAt.leaves {part whole : Subtree} {offset : Nat} (lies : part.LiesAt offset whole) :
    ∃ front behind, whole.leaves = front ++ part.leaves ++ behind := by
  induction lies with
  | whole => exact ⟨[], [], by simp⟩
  | @inside offset head before behind child _ ih =>
      obtain ⟨front, rest, shape⟩ := ih
      refine ⟨leavesOf before ++ front, rest ++ leavesOf behind, ?_⟩
      rw [Subtree.leaves, leavesOf_append, leavesOf, shape]
      simp

mutual

/-- Every leaf of a tree lies somewhere within it. -/
theorem exists_liesAt_of_mem_leaves {leaf : Leaf} (subtree : Subtree)
    (member : leaf ∈ subtree.leaves) : ∃ offset, (Subtree.leaf leaf).LiesAt offset subtree := by
  cases subtree with
  | leaf token =>
      obtain rfl := List.mem_singleton.mp member
      exact ⟨0, .whole⟩
  | node head children =>
      obtain ⟨before, child, behind, offset, rfl, lies⟩ :=
        exists_liesAt_of_mem_leavesOf children member
      exact ⟨_, .inside lies⟩

theorem exists_liesAt_of_mem_leavesOf {leaf : Leaf} (children : List Subtree)
    (member : leaf ∈ leavesOf children) :
    ∃ before child behind offset, children = before ++ child :: behind ∧
      (Subtree.leaf leaf).LiesAt offset child := by
  cases children with
  | nil => exact absurd member List.not_mem_nil
  | cons child children =>
      rcases List.mem_append.mp member with here | later
      · obtain ⟨offset, lies⟩ := exists_liesAt_of_mem_leaves child here
        exact ⟨[], child, children, offset, rfl, lies⟩
      · obtain ⟨before, other, behind, offset, rfl, lies⟩ :=
          exists_liesAt_of_mem_leavesOf children later
        exact ⟨child :: before, other, behind, offset, rfl, lies⟩

end

theorem Everywhere.leaves {subtree : Subtree} (everywhere : subtree.Everywhere (Lawful language)) :
    ∀ leaf ∈ subtree.leaves, leaf.Lawful language := by
  intro leaf member
  obtain ⟨offset, lies⟩ := exists_liesAt_of_mem_leaves subtree member
  exact (everywhere _ _ lies).leaf leaf rfl

/-- A subtree that may be taken over hands on the state of the scanner from its first token to
its last one. -/
theorem handsOn_of_isReusable {subtree : Subtree} (reusable : subtree.isReusable = true)
    (lawful : subtree.Everywhere (Lawful language)) {before after : ScannerState}
    (handsOn : HandsOn before (solid subtree.leaves) after) {first last : Leaf}
    (isFirst : subtree.firstLeaf? = some first) (isLast : subtree.lastLeaf? = some last) :
    before = first.scannerBefore ∧ after = last.scannerAfter := by
  have real := real_of_containsError (containsError_of_isReusable reusable)
  refine ⟨?_, ?_⟩
  · rw [firstLeaf?_eq_head?] at isFirst
    obtain ⟨rest, shape⟩ := List.head?_eq_some_iff.mp isFirst
    rw [shape, solid_cons (real first (shape ▸ List.mem_cons_self)).2] at handsOn
    exact handsOn.1.symm
  · obtain ⟨front, behind, shape, extras⟩ := lastLeaf?_spec subtree isLast
    have isPresent := (real last (shape ▸ List.mem_append_right _ List.mem_cons_self)).2
    rw [shape, solid_append, solid_cons isPresent] at handsOn
    obtain ⟨middle, _, _, rest⟩ := handsOn_append_iff.mp handsOn
    have lawfulBehind : ∀ leaf ∈ behind, leaf.Lawful language := fun leaf member =>
      lawful.leaves leaf (shape ▸ List.mem_append_right _ (List.mem_cons_of_mem _ member))
    exact rest.of_extras lawfulBehind extras

end Subtree

/-! ## Steps -/

/-- What the leaves of a subtree do with the state of the scanner. -/
def Subtree.Threads (subtree : Subtree) : Prop :=
  ∃ before after, HandsOn before (solid subtree.leaves) after

/-- The subtrees on offer hand on the state of the scanner. -/
structure ParseInput.OffersLawful (input : ParseInput) : Prop where
  reusable : ∀ candidate ∈ input.reuse, candidate.subtree.isReusable = true
  lawful : ∀ candidate ∈ input.reuse,
    candidate.subtree.Everywhere (Subtree.Lawful input.language)
  threads : ∀ candidate ∈ input.reuse, candidate.subtree.Threads

theorem ParseInput.OffersLawful.derive {input : ParseInput} (offers : input.OffersLawful) :
    input.reuse.Derive input.language := by
  intro candidate listed
  have reusable := offers.reusable candidate listed
  exact ⟨Subtree.isExtra_of_isReusable reusable,
    (offers.lawful candidate listed).here.derivation reusable⟩

namespace ParseState

open Subtree

variable {grammar : FlatGrammar} {input : ParseInput} {state : ParseState} {token : Lexeme}

/-- The state of the scanner is handed on through everything a state of a parse holds. -/
structure Threaded (grammar : FlatGrammar) (input : ParseInput) (state : ParseState) : Prop where
  sound : state.Sound input.language grammar
  handsOn : HandsOn .empty state.holding state.scannerState
  queue : ∀ lexeme ∈ state.queue, lexeme.Lawful input.language
  lawful : state.Holds (Lawful input.language)

theorem threaded_initial (input : ParseInput) : (initial input.text).Threaded grammar input :=
  ⟨sound_initial _, rfl, by simp [queue, initial], by simp [Holds, initial]⟩

namespace Threaded

variable (represents : input.language.tables.Represents grammar)
  (apart : input.language.lexer.SetsApart)

include apart

/-- The tokens at hand once one of them is looked at, and the state of the scanner behind them. -/
theorem current (threaded : state.Threaded grammar input) {middle : ParseState}
    (taken : state.current input = .ok (token, middle)) :
    let known : Lexeme := { token with symbol := some (state.symbolOf input token) }
    let held : ParseState := { middle with lookahead := some known }
    HandsOn .empty held.holding middle.scannerState ∧
      ∀ lexeme ∈ held.queue, lexeme.Lawful input.language := by
  obtain ⟨_, _, whole, inTurn⟩ := current_ok taken
  obtain ⟨lawful, handsOn⟩ := inTurn.handsOn apart
  refine ⟨?_, ?_⟩
  · rw [holding_current taken]
    exact threaded.handsOn.append handsOn
  · have all : ∀ lexeme ∈ token :: middle.pending, lexeme.Lawful input.language := by
      intro lexeme member
      rw [whole] at member
      exact (List.mem_append.mp member).elim (threaded.queue lexeme) (lawful lexeme)
    intro lexeme member
    rcases List.mem_cons.mp member with rfl | waits
    · exact (all token List.mem_cons_self).named apart
    · exact all lexeme (List.mem_cons_of_mem _ waits)

theorem searched (lawful : ∀ lexeme ∈ ({ state with lookahead := some token } : ParseState).queue,
      lexeme.Lawful input.language) {read : List Lexeme} {later : ParseState}
    (ahead : ReadsAhead input state read later) :
    ∀ lexeme ∈ token :: later.pending, lexeme.Lawful input.language := by
  intro lexeme member
  rcases List.mem_cons.mp member with rfl | waits
  · exact lawful lexeme List.mem_cons_self
  · exact ahead.forall_pending (fun other old => lawful other (List.mem_cons_of_mem _ old))
      (fun origin listed => ((ahead.inTurn.handsOn apart).1 origin listed).readAhead) lexeme waits

omit apart in
theorem yields (lawful : token.Lawful input.language) {symbol : SymbolId}
    (agrees : input.language.Agrees token.raw symbol) :
    token.Yields (Lawful input.language) symbol := by
  intro top leaf member
  refine lawful_leaf ?_
  rcases List.mem_append.mp member with extra | own
  · exact lawful.extras leaf extra
  · obtain rfl := List.mem_singleton.mp own
    exact ⟨lawful.advances, agrees, nofun⟩

/-- The tokens that wait after an effect are among those that waited before it. -/
theorem queue_effect
    (lawful : ∀ lexeme ∈ ({ state with lookahead := some token } : ParseState).queue,
      lexeme.Lawful input.language) (idle : state.lookahead = none) {top : StateId}
    {symbol : SymbolId} {after : ParseState}
    (effect : Effect input state top symbol token (.next after)) :
    ∀ lexeme ∈ after.queue, lexeme.Lawful input.language := by
  refine forall_queue_of_effect idle lawful (fun _ => .forget)
    (fun symbol _ => .ofMissing input.language symbol _ _) ?_ effect
  exact fun read later ahead lexeme member =>
    ((ahead.inTurn.handsOn apart).1 lexeme member).readAhead

omit apart in
/-- The node of a production remembers the token behind it as it was understood. -/
theorem reduce (lawful : state.Holds (Lawful input.language)) (atHand : token.Lawful input.language)
    (id : ProductionId) (production : ProductionInfo)
    (sound : StackSound input.language grammar (state.reduce input id production token).stack) :
    (state.reduce input id production token).Holds (Lawful input.language) := by
  obtain ⟨trailing, taken, below, shape, _, _, reduced⟩ := reduce_eq input state id production token
  refine lawful.reduce shape reduced ⟨nofun, ?_, fun _ => ?_⟩
  · intro head children lookahead same ahead
    obtain ⟨rfl, _⟩ := Subtree.node.inj same
    obtain rfl := Option.some.inj ahead
    cases known : token.symbol with
    | none => exact .inl rfl
    | some symbol => exact atHand.symbol symbol known
  · rw [reduced] at sound
    exact derivation_of_pushAll sound rfl

theorem takeOver (offers : input.OffersLawful) {middle after : ParseState} {symbol : SymbolId}
    (handsOn : HandsOn .empty ({ middle with lookahead := some token } : ParseState).holding
      middle.scannerState)
    (lawful : ∀ lexeme ∈ ({ middle with lookahead := some token } : ParseState).queue,
      lexeme.Lawful input.language)
    (parts : middle.Holds (Lawful input.language))
    (takes : TakesOver input middle symbol token after) :
    HandsOn .empty after.holding after.scannerState ∧
      (∀ lexeme ∈ after.queue, lexeme.Lawful input.language) ∧
      after.Holds (Lawful input.language) := by
  cases takes with
  | @behind candidate lookahead last next place cursor following tries _ read raw =>
      have atHand := lawful token List.mem_cons_self
      have reusable := offers.reusable _ tries.listed
      have whole := offers.lawful _ tries.listed
      obtain ⟨before, final, threads⟩ := offers.threads _ tries.listed
      obtain ⟨followingLawful, followingHandsOn⟩ := lawful_of_lex apart read
      have queue : (middle.afterTakeOver token candidate.subtree next
          { following with symbol := some lookahead.symbol } cursor).queue =
            [{ following with symbol := some lookahead.symbol }] :=
        congrArg _ ((sameBut_push_token token next candidate.subtree).pending.trans tries.alone)
      refine ⟨?_, ?_, ?_⟩
      · -- the first token of the subtree was read in the same state as the token at hand
        have started := tries.starts
        simp only [startsWith, Option.any_eq_true, Bool.and_eq_true, beq_iff_eq] at started
        obtain ⟨first, isFirst, same⟩ := started
        obtain ⟨rfl, rfl⟩ := handsOn_of_isReusable reusable whole threads isFirst tries.last
        have present := atHand.present tries.fresh
        have held : ({ middle with lookahead := some token } : ParseState).holding =
            solid (stackLeaves middle.stack) ++ solid token.extras ++
              [(token.toLeaf token.raw 0).plain] := by
          simp only [holding, ParseState.queue, tries.alone, Option.toList_some, List.append_nil,
            List.flatMap_singleton, Lexeme.plainLeaves, Lexeme.leavesAs, solid_append]
          rw [solid_cons (show (token.toLeaf token.raw 0).missing = false from present),
            solid_nil, List.append_assoc]
        rw [held] at handsOn
        obtain ⟨_, front, rfl, _⟩ := handsOn_append_iff.mp handsOn
        have leaves : stackLeaves (middle.afterTakeOver token candidate.subtree next
            { following with symbol := some lookahead.symbol } cursor).stack =
              stackLeaves middle.stack ++ token.extras ++ candidate.subtree.leaves :=
          (leaves_push _ _).trans (by rw [leaves_pushExtras])
        rw [holding, queue, leaves, solid_append, solid_append, List.flatMap_singleton]
        have begins : token.scannerBefore = first.scannerBefore := same.2.symm
        have front : HandsOn .empty (solid (stackLeaves middle.stack) ++ solid token.extras)
            first.scannerBefore := begins ▸ front
        have behind : ({ following with symbol := some lookahead.symbol } :
            Lexeme).plainLeaves = following.plainLeaves :=
          (Lexeme.plainLeaves_asRead _).symm.trans (Lexeme.plainLeaves_asRead following)
        rw [behind]
        exact (front.append threads).append followingHandsOn
      · intro lexeme member
        rw [queue] at member
        obtain rfl := List.mem_singleton.mp member
        refine ⟨followingLawful.present, followingLawful.advances, followingLawful.extras,
          followingLawful.word, fun symbol same => ?_⟩
        obtain rfl := Option.some.inj same
        obtain ⟨head, children, shape, _, ahead, _⟩ := tries.node
        have agrees := whole.here.lookahead head children lookahead shape ahead
        rwa [← raw] at agrees
      · refine (parts.push_token middle.topState next (fun leaf member => ?_) whole).of_stack rfl
        exact lawful_leaf (atHand.extras leaf member)

include represents

theorem step (offers : input.OffersLawful) (threaded : state.Threaded grammar input)
    {after : ParseState} (stepped : state.step input = .ok (.next after)) :
    after.Threaded grammar input := by
  have sound := threaded.sound.step_of_derive represents rfl offers.derive stepped
  obtain ⟨token, middle, taken, outcome⟩ := effect_or_takesOver_of_step stepped
  obtain ⟨stack, idle, _, _⟩ := current_ok taken
  obtain ⟨handsOn, lawful⟩ := threaded.current apart taken
  have parts := threaded.lawful.of_stack stack
  rcases outcome with effect | ⟨_, _, _, takes, same⟩
  case inr =>
      obtain rfl := ParseStep.next.inj same
      obtain ⟨handsOn, queue, parts⟩ := takeOver apart offers handsOn lawful parts takes
      exact ⟨sound, handsOn, queue, parts⟩
  have atHand := lawful _ List.mem_cons_self
  obtain ⟨read, inTurn, holding⟩ := holding_effect idle effect
  refine ⟨sound, ?_, queue_effect apart lawful idle effect, ?_⟩
  · rw [holding]
    exact handsOn.append (inTurn.handsOn apart).2
  · have own := yields atHand (atHand.symbol _ rfl)
    refine parts.effect (admits_of_lenient lenient_lawful) own.extras (fun _ _ => own)
      (fun _ => yields atHand (.inl rfl)) ?_ ?_ effect
    · exact fun read later ahead lexeme member => yields (searched apart lawful ahead lexeme
        (List.mem_cons_of_mem _ (List.mem_of_mem_dropLast member))) (.inl rfl)
    · intro id production action found
      have middleSound := (threaded.sound.current taken).2.1
      have top : middle.topState = state.topState := by simp only [topState, stack]
      rw [← top] at action
      exact reduce parts atHand id production
        (middleSound.reduce represents _ rfl action found).stack

theorem of_reaches (offers : input.OffersLawful) (reaches : Reaches input state) :
    state.Threaded grammar input := by
  induction reaches with
  | initial => exact threaded_initial input
  | step _ stepped ih => exact ih.step represents apart offers stepped

/-- The tree at the end of a parse hands on the state of the scanner. -/
theorem done (threaded : state.Threaded grammar input) {root : Subtree} {stats : ParseStats}
    (stepped : state.step input = .ok (.done root stats)) :
    root.Everywhere (Lawful input.language) ∧
      ∃ final, HandsOn .empty (solid root.leaves) final := by
  obtain ⟨token, middle, taken, ended⟩ := done_cases stepped
  obtain ⟨_, middleSound, stack⟩ := threaded.sound.current taken
  obtain ⟨handsOn, lawful⟩ := threaded.current apart taken
  have parts := threaded.lawful.of_stack stack
  have extras : ∀ leaf ∈ token.extras, (Subtree.leaf leaf).Lawful input.language :=
    fun leaf member => lawful_leaf ((lawful _ List.mem_cons_self).extras leaf member)
  have threads : ∀ leaves, leaves = stackLeaves middle.stack ++ token.extras →
      ∃ final, HandsOn .empty (solid leaves) final := by
    rintro leaves rfl
    rw [holding] at handsOn
    obtain ⟨between, front, rest⟩ := handsOn_append_iff.mp handsOn
    obtain ⟨_, own, _⟩ := handsOn_append_iff.mp
      (show HandsOn between (_ ++ middle.pending.flatMap Lexeme.plainLeaves) _ from rest)
    rw [Lexeme.plainLeaves, Lexeme.leavesAs, solid_append] at own
    obtain ⟨last, before, _⟩ := handsOn_append_iff.mp own
    rw [solid_append]
    exact ⟨last, front.append before⟩
  rcases ended with ⟨action, rfl⟩ | ⟨_, _, _, rfl⟩
  · have top : middle.topState = state.topState := by simp only [topState, stack]
    rw [← top] at action
    exact ⟨parts.accept lenient_lawful extras,
      threads _ (middleSound.leaves_accept input represents _ action)⟩
  · exact ⟨parts.wrapAll lenient_lawful extras, threads _ (leaves_wrapAll input _)⟩

end Threaded

end ParseState

/-! ## Trees -/

/-- What a tree keeps of the state of the scanner for later parses. -/
structure Tree.Threaded (tree : Tree) (language : Language) : Prop where
  lawful : tree.root.Everywhere (Subtree.Lawful language)
  handsOn : ∃ final, HandsOn .empty (solid tree.root.leaves) final

/-- The trees that the parses of a language return, one after the other: each parse may be given
any tree returned before with any edits recorded on it, or a tree of another language. -/
inductive Parser.Returned (instance_ : LanguageInstance) : Tree → Prop where
  | fresh {config : ParseConfig} {text : String} {tree : Tree} {stats : ParseStats} :
      (Parser.mk config (some instance_)).parse text none = .ok (tree, stats) →
      Returned instance_ tree
  | again {config : ParseConfig} {text : String} {old tree : Tree} {stats : ParseStats}
      {edits : List TextEdit} :
      Returned instance_ old →
      (Parser.mk config (some instance_)).parse text (some (edits.foldl Tree.edit old)) =
        .ok (tree, stats) →
      Returned instance_ tree
  | beside {config : ParseConfig} {text : String} {old tree : Tree} {stats : ParseStats} :
      old.language.number ≠ instance_.number →
      (Parser.mk config (some instance_)).parse text (some old) = .ok (tree, stats) →
      Returned instance_ tree

namespace Parser

variable {instance_ : LanguageInstance} {config : ParseConfig} {text : List Char}

theorem offersLawful_of_threaded {old : Tree} (threaded : old.Threaded instance_.language) :
    (ParseInput.mk instance_.language text config
      (reuseIndex instance_ (some old))).OffersLawful := by
  have parts : ∀ candidate ∈ reuseIndex instance_ (some old), ∃ offset,
      candidate.subtree.LiesAt offset old.root := by
    intro candidate listed
    obtain ⟨tree, same, _, indexed⟩ := reuseIndex_cases listed
    obtain rfl := Option.some.inj same
    rw [ReuseIndex.ofTree_eq] at indexed
    obtain ⟨offset, lies, _⟩ := Subtree.exists_of_mem_candidates old.root indexed
    exact ⟨offset, lies⟩
  have reusable : ∀ candidate ∈ reuseIndex instance_ (some old),
      candidate.subtree.isReusable = true := isReusable_of_reuseIndex
  refine ⟨reusable, fun candidate listed => ?_, fun candidate listed => ?_⟩
  · obtain ⟨_, lies⟩ := parts candidate listed
    exact threaded.lawful.part lies
  · obtain ⟨_, lies⟩ := parts candidate listed
    obtain ⟨front, behind, shape⟩ := lies.leaves
    obtain ⟨final, handsOn⟩ := threaded.handsOn
    rw [shape, solid_append, solid_append] at handsOn
    obtain ⟨after, before, _⟩ := handsOn_append_iff.mp handsOn
    obtain ⟨first, _, own⟩ := handsOn_append_iff.mp before
    exact ⟨first, after, own⟩

open ParseState in
theorem threaded_of_parse {grammar : FlatGrammar}
    (represents : instance_.language.tables.Represents grammar)
    (apart : instance_.language.lexer.SetsApart) {text : String} {old : Option Tree} {tree : Tree}
    {stats : ParseStats}
    (offers : (ParseInput.mk instance_.language text.toList config
      (reuseIndex instance_ old)).OffersLawful)
    (parsed : (Parser.mk config (some instance_)).parse text old = .ok (tree, stats)) :
    tree.Threaded instance_.language := by
  obtain ⟨root, ran, rfl⟩ := exists_run_of_parse parsed
  obtain ⟨last, reaches, stepped⟩ := exists_last_of_runParse ran
  obtain ⟨lawful, handsOn⟩ :=
    (Threaded.of_reaches represents apart offers reaches).done represents apart stepped
  exact ⟨lawful, handsOn⟩

/-- Every tree that a parser returns hands on the state of the scanner. -/
theorem Returned.threaded {grammar : FlatGrammar}
    (represents : instance_.language.tables.Represents grammar)
    (apart : instance_.language.lexer.SetsApart) {tree : Tree}
    (returned : Returned instance_ tree) : tree.Threaded instance_.language := by
  induction returned with
  | fresh parsed =>
      have none_offered : reuseIndex instance_ none = [] := rfl
      refine threaded_of_parse represents apart ?_ parsed
      rw [none_offered]
      exact ⟨by simp, by simp, by simp⟩
  | again _ parsed ih =>
      refine threaded_of_parse represents apart (offersLawful_of_threaded ?_) parsed
      rw [Tree.foldl_edit]
      exact ⟨ih.lawful, ih.handsOn⟩
  | @beside config text old tree stats other parsed =>
      have none_offered : reuseIndex instance_ (some old) = [] := if_neg other
      refine threaded_of_parse represents apart ?_ parsed
      rw [none_offered]
      exact ⟨by simp, by simp, by simp⟩

end Parser

end Lalr
