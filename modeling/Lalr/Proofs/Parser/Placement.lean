import Lalr.Proofs.OneScript.Scanner
import Lalr.Proofs.Parser.Tiling
import Lalr.Proofs.Tree.Candidate

set_option autoImplicit false

/-!
Where the subtrees on the stack and the tokens that wait stand in the text. They follow each
other from the start of the text to the end of what is read, whether subtrees of an old tree are
taken over or not.
-/

namespace Lalr

open Lalr.Text

/-! ## Lexemes -/

namespace Lexeme

/-- The bytes of each of the extras and of the token. -/
def widths (lexeme : Lexeme) : List Nat :=
  Lalr.widths lexeme.extras ++ [lexeme.padding + lexeme.size]

/-- What a lexeme knows of its place in a text of some length. -/
structure InPlace (lexeme : Lexeme) (place length : Nat) : Prop where
  start : lexeme.start = place
  tokenStart : lexeme.tokenStart = place + (Lalr.widths lexeme.extras).sum
  examined : lexeme.examinedEnd ≤ length
  extras : ∀ leaf ∈ lexeme.extras, leaf.lookaheadBytes = 0

end Lexeme

theorem examinedEnd_regularToken_le {lexer : Lexer} {place : Cursor} (more : place.rest ≠ [])
    {examinedEnd length : Nat} (state : ScannerState) (before : examinedEnd ≤ length)
    (whole : place.offset + utf8Length place.rest = length) :
    (regularToken lexer place examinedEnd state).examinedEnd ≤ length := by
  unfold regularToken
  cases matched : lexer.matchToken? place.rest with
  | some found =>
      obtain ⟨passed, split, passedLength⟩ := Lexer.splits_of_matchToken? matched
      rw [split, utf8Length_append, passedLength] at whole
      have behind := congrArg utf8Length (List.take_append_drop regularLookahead found.rest)
      rw [utf8Length_append] at behind
      dsimp only
      omega
  | none =>
      cases rest : place.rest with
      | nil => exact absurd rest more
      | cons c behind =>
          rw [rest, utf8Length_cons] at whole
          dsimp only
          omega

theorem examinedEnd_tokenAt_le {language : Language} (inside : language.scanner.StaysInside)
    {place : Cursor} {mode : ValidExternals} {examinedEnd length : Nat} {state : ScannerState}
    {found : FoundToken} (before : examinedEnd ≤ length)
    (whole : place.offset + utf8Length place.rest = length)
    (read : tokenAt language place mode examinedEnd state = .ok found) :
    found.examinedEnd ≤ length := by
  unfold tokenAt at read
  split at read
  case isTrue =>
      obtain rfl := Except.ok.inj read
      exact before
  case isFalse more =>
      have more : place.rest ≠ [] := by simpa using more
      have regular : ∀ {examinedEnd : Nat}, examinedEnd ≤ length →
          Except.ok (regularToken language.lexer place examinedEnd state) =
            (.ok found : Except Fault FoundToken) → found.examinedEnd ≤ length := by
        intro examinedEnd bound same
        exact Except.ok.inj same ▸ examinedEnd_regularToken_le more state bound whole
      have scanned : max examinedEnd (place.offset +
          (language.scanner.scan place.rest mode state).examined) ≤ length := by
        have bound := inside place.rest mode state more
        omega
      split at read
      case isTrue => exact regular before read
      case isFalse =>
          dsimp only at read
          split at read
          case h_1 => exact regular scanned read
          case h_2 =>
              split at read
              case h_1 => exact regular scanned read
              case h_2 =>
                  split at read
                  case isTrue => exact regular scanned read
                  case isFalse =>
                      split at read
                      case h_1 => cases read
                      case h_2 =>
                          obtain rfl := Except.ok.inj read
                          exact scanned

theorem inPlace_of_lexFrom {language : Language} (knowsNoEnd : language.lexer.KnowsNoEnd)
    (inside : language.scanner.StaysInside) {origin cursor after : Cursor} {mode : ValidExternals}
    {limit examinedEnd length : Nat} {extras : List Leaf} {scanner : ScannerState}
    {lexeme : Lexeme} {passed : List Char} (passes : origin.Passes passed cursor)
    (cut : CutInto passed (widths extras.reverse))
    (unexamined : ∀ leaf ∈ extras, leaf.lookaheadBytes = 0) (before : examinedEnd ≤ length)
    (whole : cursor.offset + utf8Length cursor.rest = length)
    (read : lexFrom language origin.offset mode limit extras examinedEnd cursor scanner =
      .ok (lexeme, after)) :
    lexeme.InPlace origin.offset length ∧
      ∃ piece, origin.Passes piece after ∧ CutInto piece lexeme.widths := by
  induction limit generalizing extras examinedEnd cursor scanner passed with
  | zero => cases read
  | succ limit ih =>
      obtain ⟨found, finding, rest⟩ := exists_of_bind_eq_ok read
      have blanks := Cursor.Passes.skipWhile cursor isBlank
      have padding : (cursor.skipWhile isBlank).offset - cursor.offset =
          utf8Length (cursor.rest.takeWhile isBlank) := by
        rw [blanks.offset]
        omega
      have wholeBehind := blanks.end_eq.trans whole
      have examined := examinedEnd_tokenAt_le inside before wholeBehind finding
      obtain ⟨content, contentPasses, size⟩ :
          ∃ content, (cursor.skipWhile isBlank).Passes content found.next ∧
            utf8Length content = found.size := by
        cases fitsAt_tokenAt knowsNoEnd finding with
        | atEnd _ _ size next => exact ⟨[], next ▸ .refl _, size.symm⟩
        | token _ _ passes size => exact ⟨_, passes, size⟩
      have passesToken : origin.Passes (passed ++ (cursor.rest.takeWhile isBlank ++ content))
          found.next := passes.trans (blanks.trans contentPasses)
      have token : CutInto (cursor.rest.takeWhile isBlank ++ content)
          [(cursor.skipWhile isBlank).offset - cursor.offset + found.size] := by
        rw [padding, ← size, ← utf8Length_append]
        exact .single _
      have wholeNext := contentPasses.end_eq.trans wholeBehind
      split at rest
      case isTrue =>
          refine ih passesToken ?_ ?_ examined wholeNext rest
          · rw [List.reverse_cons, widths_append]
            exact cut.append token
          · intro leaf member
            rcases List.mem_cons.mp member with rfl | old
            · rfl
            · exact unexamined leaf old
      case isFalse =>
          obtain ⟨rfl, rfl⟩ := Prod.mk.inj (Except.ok.inj rest)
          have reached : cursor.offset = origin.offset + (widths extras.reverse).sum := by
            rw [passes.offset, cut.sum_eq]
          refine ⟨⟨rfl, reached, ?_, ?_⟩, _, passesToken, cut.append token⟩
          · refine Nat.max_le.mpr ⟨examined, ?_⟩
            rw [contentPasses.offset, size] at wholeNext
            omega
          · intro leaf member
            exact unexamined leaf (List.mem_reverse.mp member)

theorem inPlace_of_lex {language : Language} (knowsNoEnd : language.lexer.KnowsNoEnd)
    (inside : language.scanner.StaysInside) {cursor after : Cursor} {mode : ValidExternals}
    {scanner : ScannerState} {lexeme : Lexeme}
    (read : lex language cursor mode scanner = .ok (lexeme, after)) :
    lexeme.InPlace cursor.offset (cursor.offset + utf8Length cursor.rest) ∧
      ∃ piece, cursor.Passes piece after ∧ CutInto piece lexeme.widths :=
  have none_passed : CutInto [] (widths [].reverse) := .nil
  inPlace_of_lexFrom knowsNoEnd inside (.refl cursor) none_passed (by simp)
    (Nat.le_add_right _ _) rfl read

/-! ## Stacks -/

/-- Every subtree on a stack starts where those below it end. -/
def Contiguous : List StackEntry → Prop
  | [] => True
  | entry :: below => entry.start = StackEntry.totalLength below ∧ Contiguous below

namespace StackEntry

theorem totalLength_append (above below : List StackEntry) :
    totalLength (above ++ below) = totalLength above + totalLength below := by
  induction above with
  | nil => simp [totalLength]
  | cons entry above ih => simp [totalLength, ih, Nat.add_assoc]

theorem totalLength_reverse (entries : List StackEntry) :
    totalLength entries.reverse = totalLength entries := by
  induction entries with
  | nil => rfl
  | cons entry entries ih =>
      rw [List.reverse_cons, totalLength_append, ih, totalLength, totalLength, totalLength]
      omega

theorem totalLength_eq_sum (stack : List StackEntry) :
    totalLength stack = (widths (stackLeaves stack)).sum := by
  induction stack with
  | nil => rfl
  | cons entry stack ih =>
      rw [totalLength, ih, stackLeaves_cons, widths_append, List.sum_append, entry.length_eq,
        Subtree.length_eq_sum, Nat.add_comm]

end StackEntry

namespace Contiguous

open StackEntry ParseState

variable {state : ParseState}

theorem suffix {above below : List StackEntry} (contiguous : Contiguous (above ++ below)) :
    Contiguous below := by
  induction above with
  | nil => exact contiguous
  | cons entry above ih => exact ih contiguous.2

theorem stackEnd_eq (contiguous : Contiguous state.stack) :
    state.stackEnd = totalLength state.stack := by
  unfold ParseState.stackEnd
  cases stack : state.stack with
  | nil => rfl
  | cons entry below =>
      rw [stack] at contiguous
      simp only [List.head?_cons, Option.map_some, Option.getD_some, finish, contiguous.1,
        totalLength]
      omega

theorem finish_le {stack : List StackEntry} (contiguous : Contiguous stack) {entry : StackEntry}
    (member : entry ∈ stack) : entry.finish ≤ totalLength stack := by
  induction stack with
  | nil => exact absurd member List.not_mem_nil
  | cons other below ih =>
      rw [totalLength]
      rcases List.mem_cons.mp member with rfl | later
      · have start := contiguous.1
        simp only [finish]
        omega
      · have earlier := ih contiguous.2 later
        omega

theorem start_eq {taken below : List StackEntry} (contiguous : Contiguous (taken ++ below)) :
    (taken.reverse.head?.map StackEntry.start).getD (totalLength below) = totalLength below := by
  induction taken with
  | nil => rfl
  | cons entry taken ih =>
      rw [List.reverse_cons]
      cases rest : taken.reverse with
      | nil =>
          obtain rfl := List.reverse_eq_nil_iff.mp rest
          exact contiguous.1
      | cons first others =>
          have below := ih contiguous.2
          rw [rest] at below
          exact below

theorem push (contiguous : Contiguous state.stack) (next : StateId) (subtree : Subtree) :
    Contiguous (state.push next subtree).stack :=
  ⟨contiguous.stackEnd_eq, contiguous⟩

theorem pushAll (contiguous : Contiguous state.stack) (next : StateId)
    (subtrees : List Subtree) : Contiguous (state.pushAll next subtrees).stack := by
  induction subtrees generalizing state with
  | nil => exact contiguous
  | cons subtree subtrees ih => exact ih (contiguous.push next subtree)

theorem push_token (contiguous : Contiguous state.stack) (top next : StateId) (token : Lexeme)
    (subtree : Subtree) : Contiguous ((state.pushExtras top token).push next subtree).stack :=
  (contiguous.pushAll top _).push next subtree

theorem reduce (contiguous : Contiguous state.stack) (input : ParseInput) (id : ProductionId)
    (production : ProductionInfo) (token : Lexeme) :
    Contiguous (state.reduce input id production token).stack := by
  obtain ⟨trailing, taken, below, next, head, shape, reduced, _⟩ :=
    reduce_spec input state id production token
  rw [shape] at contiguous
  rw [reduced]
  refine @pushAll { state with stack := _ :: below } ⟨?_, contiguous.suffix.suffix⟩ _ _
  dsimp only [ofEntries]
  rw [@stackEnd_eq { state with stack := below } contiguous.suffix.suffix]
  exact contiguous.suffix.start_eq

end Contiguous

/-! ## Lexemes that wait -/

theorem Lexeme.widths_leavesAs (lexeme : Lexeme) (symbol : SymbolId) (state : StateId) :
    Lalr.widths (lexeme.leavesAs symbol state) = lexeme.widths :=
  Lalr.widths_append _ _

/-- Lexemes that stand one behind the other in a text of some length, from a place on. -/
def InOrder (length : Nat) : Nat → List Lexeme → Prop
  | _, [] => True
  | place, lexeme :: lexemes =>
      lexeme.InPlace place length ∧ InOrder length (place + lexeme.widths.sum) lexemes

namespace InOrder

variable {length place : Nat} {lexemes others : List Lexeme}

theorem append_iff : InOrder length place (lexemes ++ others) ↔
    InOrder length place lexemes ∧
      InOrder length (place + (lexemes.flatMap Lexeme.widths).sum) others := by
  induction lexemes generalizing place with
  | nil => simp [InOrder]
  | cons lexeme lexemes ih =>
      rw [List.cons_append, InOrder, ih, InOrder, List.flatMap_cons, List.sum_append,
        ← Nat.add_assoc, and_assoc]

theorem map_asRead : InOrder length place (lexemes.map Lexeme.asRead) ↔
    InOrder length place lexemes := by
  induction lexemes generalizing place with
  | nil => rfl
  | cons lexeme lexemes ih =>
      rw [List.map_cons, InOrder, InOrder, show lexeme.asRead.widths = lexeme.widths from rfl, ih]
      refine and_congr_left fun _ => ⟨?_, ?_⟩
      · rintro ⟨start, tokenStart, examined, extras⟩
        exact ⟨start, tokenStart, examined, extras⟩
      · rintro ⟨start, tokenStart, examined, extras⟩
        exact ⟨start, tokenStart, examined, extras⟩

theorem of_same (inOrder : InOrder length place lexemes)
    (same : others.map Lexeme.asRead = lexemes.map Lexeme.asRead) :
    InOrder length place others := by
  rw [← map_asRead] at inOrder ⊢
  rwa [same]

end InOrder

theorem flatMap_widths_of_same {lexemes others : List Lexeme}
    (same : others.map Lexeme.asRead = lexemes.map Lexeme.asRead) :
    others.flatMap Lexeme.widths = lexemes.flatMap Lexeme.widths := by
  have forget : ∀ queue : List Lexeme,
      (queue.map Lexeme.asRead).flatMap Lexeme.widths = queue.flatMap Lexeme.widths := by
    intro queue
    rw [List.flatMap_map]
    rfl
  rw [← forget, same, forget]

theorem ReadInTurn.inOrder {language : Language} (knowsNoEnd : language.lexer.KnowsNoEnd)
    (inside : language.scanner.StaysInside) {cursor last : Cursor}
    {scanner final : ScannerState} {lexemes : List Lexeme}
    (inTurn : ReadInTurn language cursor scanner lexemes last final) {length : Nat}
    (whole : cursor.offset + utf8Length cursor.rest = length) :
    InOrder length cursor.offset lexemes ∧
      ∃ piece, cursor.Passes piece last ∧ CutInto piece (lexemes.flatMap Lexeme.widths) := by
  induction inTurn with
  | nil cursor scanner => exact ⟨trivial, [], .refl cursor, .nil⟩
  | @cons cursor next last _ _ _ lexeme lexemes read _ ih =>
      obtain ⟨inPlace, piece, passes, cut⟩ := inPlace_of_lex knowsNoEnd inside read
      obtain ⟨inOrder, others, othersPass, othersCut⟩ := ih (passes.end_eq.trans whole)
      refine ⟨⟨whole ▸ inPlace, ?_⟩, piece ++ others, passes.trans othersPass, ?_⟩
      · rwa [← cut.sum_eq, ← passes.offset]
      · rw [List.flatMap_cons]
        exact cut.append othersCut

namespace ParseState

open StackEntry

variable {input : ParseInput} {state : ParseState} {token : Lexeme}

/-- Everything at hand stands where it was read: the stack, behind it the tokens that wait, and
behind these what is still to be read. -/
structure Placed (input : ParseInput) (state : ParseState) : Prop where
  contiguous : Contiguous state.stack
  inOrder : InOrder (utf8Length input.text) (totalLength state.stack) state.queue
  text : ∃ passed, (Cursor.start input.text).Passes passed state.cursor ∧
    CutInto passed (widths (stackLeaves state.stack) ++ state.queue.flatMap Lexeme.widths)

theorem placed_initial (input : ParseInput) : (initial input.text).Placed input where
  contiguous := trivial
  inOrder := trivial
  text := ⟨[], .refl _, .nil⟩

namespace Placed

theorem totalLength_le (placed : state.Placed input) :
    totalLength state.stack ≤ utf8Length input.text := by
  obtain ⟨passed, passes, cut⟩ := placed.text
  have stackEnd := totalLength_eq_sum state.stack
  have sum := cut.sum_eq
  have whole := passes.end_eq
  have reached := passes.offset
  rw [List.sum_append] at sum
  simp only [Cursor.start] at whole reached
  omega

/-- The first tokens that wait become leaves behind the stack. -/
theorem consume {after : ParseState} {taken rest : List Lexeme} {added : List Leaf}
    (placed : state.Placed input) (queue : state.queue = taken ++ rest)
    (same : after.queue.map Lexeme.asRead = rest.map Lexeme.asRead)
    (leaves : stackLeaves after.stack = stackLeaves state.stack ++ added)
    (added_eq : widths added = taken.flatMap Lexeme.widths)
    (contiguous : Contiguous after.stack) (cursor : after.cursor = state.cursor) :
    after.Placed input := by
  obtain ⟨passed, passes, cut⟩ := placed.text
  have inOrder := placed.inOrder
  rw [queue, InOrder.append_iff] at inOrder
  have stackEnd : totalLength after.stack =
      totalLength state.stack + (taken.flatMap Lexeme.widths).sum := by
    rw [totalLength_eq_sum, totalLength_eq_sum, leaves, widths_append, List.sum_append, added_eq]
  refine ⟨contiguous, stackEnd ▸ inOrder.2.of_same same, passed, cursor ▸ passes, ?_⟩
  rw [leaves, widths_append, added_eq, flatMap_widths_of_same same, List.append_assoc,
    ← List.flatMap_append, ← queue]
  exact cut

theorem of_same {after : ParseState} (placed : state.Placed input)
    (same : after.queue.map Lexeme.asRead = state.queue.map Lexeme.asRead)
    (leaves : stackLeaves after.stack = stackLeaves state.stack)
    (contiguous : Contiguous after.stack) (cursor : after.cursor = state.cursor) :
    after.Placed input :=
  placed.consume (List.nil_append _).symm same (by rw [leaves, List.append_nil]) rfl contiguous
    cursor

section reading

variable (knowsNoEnd : input.language.lexer.KnowsNoEnd)
  (inside : input.language.scanner.StaysInside)

include knowsNoEnd inside

/-- Tokens that are read wait behind those that waited before. -/
theorem read {after : ParseState} {lexemes behind : List Lexeme} (placed : state.Placed input)
    (queue : after.queue = state.queue ++ behind)
    (same : behind.map Lexeme.asRead = lexemes.map Lexeme.asRead)
    (stack : after.stack = state.stack)
    (inTurn : ReadInTurn input.language state.cursor state.scannerState lexemes after.cursor
      after.scannerState) : after.Placed input := by
  obtain ⟨passed, passes, cut⟩ := placed.text
  have whole : state.cursor.offset + utf8Length state.cursor.rest = utf8Length input.text :=
    passes.end_eq.trans (Nat.zero_add _)
  obtain ⟨inOrder, piece, further, pieceCut⟩ := inTurn.inOrder knowsNoEnd inside whole
  have reached : state.cursor.offset =
      totalLength state.stack + (state.queue.flatMap Lexeme.widths).sum := by
    rw [passes.offset, cut.sum_eq, List.sum_append, ← totalLength_eq_sum]
    exact Nat.zero_add _
  refine ⟨stack ▸ placed.contiguous, ?_, passed ++ piece, passes.trans further, ?_⟩
  · rw [queue, stack, InOrder.append_iff, ← reached]
    exact ⟨placed.inOrder, inOrder.of_same same⟩
  · rw [queue, stack, List.flatMap_append, ← List.append_assoc, flatMap_widths_of_same same]
    exact cut.append pieceCut

/-- The token at hand is one that waits, or one that is read now. -/
theorem current (placed : state.Placed input) {after : ParseState}
    (taken : state.current input = .ok (token, after)) (symbol : Option SymbolId) :
    ({ after with lookahead := some { token with symbol := symbol } } :
      ParseState).Placed input := by
  obtain ⟨stack, _, whole, inTurn⟩ := current_ok taken
  have held : ({ after with lookahead := some token } : ParseState).Placed input :=
    placed.read knowsNoEnd inside whole rfl stack inTurn
  exact held.of_same rfl rfl held.contiguous rfl

theorem searched (placed : ({ state with lookahead := some token } : ParseState).Placed input)
    {lexemes : List Lexeme} {later : ParseState} (ahead : ReadsAhead input state lexemes later) :
    ({ later with lookahead := some token } : ParseState).Placed input := by
  refine placed.read knowsNoEnd inside ?_ (map_asRead_readAhead lexemes) ahead.stack ahead.inTurn
  rw [queue, ahead.pending]
  rfl

end reading

section token

variable (placed : ({ state with lookahead := some token } : ParseState).Placed input)

include placed

theorem atHand : token.InPlace (totalLength state.stack) (utf8Length input.text) :=
  placed.inOrder.1

theorem stack : Contiguous state.stack :=
  placed.contiguous

/-- The text that the stack and the extras before the token at hand stand for. -/
theorem exists_front : ∃ front rest, input.text = front ++ rest ∧
    utf8Length front = token.tokenStart ∧
    CutInto front (widths (stackLeaves state.stack ++ token.extras)) := by
  obtain ⟨passed, passes, cut⟩ := placed.text
  have queue : ({ state with lookahead := some token } : ParseState).queue.flatMap Lexeme.widths =
      widths token.extras ++
        ([token.padding + token.size] ++ state.pending.flatMap Lexeme.widths) := by
    rw [← List.append_assoc]
    rfl
  rw [queue, ← List.append_assoc, ← widths_append] at cut
  obtain ⟨front, behind, rfl, frontCut, _⟩ := cut.split
  have whole : input.text = front ++ behind ++ state.cursor.rest := passes.rest
  refine ⟨front, behind ++ state.cursor.rest, by rw [whole, List.append_assoc], ?_, frontCut⟩
  rw [frontCut.sum_eq, placed.atHand.tokenStart, totalLength_eq_sum, widths_append,
    List.sum_append]

theorem consumeToken {after : ParseState} (symbol : SymbolId) (top : StateId)
    (idle : after.lookahead = none) (pending : after.pending = state.pending)
    (leaves : stackLeaves after.stack = stackLeaves state.stack ++ token.leavesAs symbol top)
    (contiguous : Contiguous after.stack) (cursor : after.cursor = state.cursor) :
    after.Placed input := by
  have queue : after.queue = state.pending := by
    rw [ParseState.queue, idle, pending]
    rfl
  have whole : ({ state with lookahead := some token } : ParseState).queue =
      [token] ++ state.pending := rfl
  refine placed.consume whole (by rw [queue]) leaves ?_ contiguous cursor
  rw [token.widths_leavesAs, List.flatMap_singleton]

theorem shift (idle : state.lookahead = none) (next : StateId) (symbol : SymbolId) :
    (state.shift next symbol token).Placed input := by
  have frame : state.SameBut (state.shift next symbol token) := sameBut_push_token ..
  have alone : (Subtree.leaf (token.toLeaf symbol state.topState)).leaves =
      token.toLeaf symbol state.topState :: [] := rfl
  refine placed.consumeToken symbol state.topState (frame.lookahead.trans idle) frame.pending ?_
    (placed.stack.push_token _ _ _ _) frame.cursor
  rw [ParseState.shift, leaves_push_token next alone, List.append_nil]

theorem wrapToken (idle : state.lookahead = none) : (state.wrapToken token).Placed input := by
  have frame : state.SameBut (state.wrapToken token) := sameBut_push_token ..
  have alone : (Subtree.ofError [.leaf (token.toLeaf token.raw state.topState)]).leaves =
      token.toLeaf token.raw state.topState :: [] := rfl
  refine placed.consumeToken token.raw state.topState (frame.lookahead.trans idle) frame.pending
    ?_ (placed.stack.push_token _ _ _ _) frame.cursor
  rw [ParseState.wrapToken, leaves_push_token _ alone, List.append_nil]

theorem reduce (id : ProductionId) (production : ProductionInfo) :
    ({ state.reduce input id production token with lookahead := some token } :
      ParseState).Placed input := by
  have frame := state.sameBut_reduce input id production token
  refine placed.of_same ?_ (leaves_reduce input id production token) ?_ frame.cursor
  · rw [queue, frame.pending]
    rfl
  · exact placed.stack.reduce input id production token

theorem insertMissing (symbol : SymbolId) :
    (state.insertMissing input symbol token).Placed input := by
  obtain ⟨passed, passes, cut⟩ := placed.text
  have stackEnd := placed.totalLength_le
  have start := placed.atHand.start
  refine ⟨placed.contiguous, ⟨⟨start, start, start ▸ stackEnd, by simp [Lexeme.ofMissing]⟩, ?_⟩,
    passed, passes, ?_⟩
  · exact placed.inOrder.of_same rfl
  · -- the missing token takes no text between the stack and the tokens that wait
    obtain ⟨front, behind, rfl, frontCut, behindCut⟩ := cut.split
    have empty : CutInto [] [0] := .single []
    exact frontCut.append (empty.append behindCut)

theorem skipTo {skipped pending : List Lexeme} {next : Lexeme}
    (whole : state.pending = skipped ++ next :: pending) :
    (state.skipTo token skipped next pending).Placed input := by
  have queue : ({ state with lookahead := some token } : ParseState).queue =
      (token :: skipped) ++ next :: pending := by
    rw [List.cons_append, ← whole]
    rfl
  have frame : state.SameBut (state.pushExtras state.topState token) := sameBut_pushAll _ _
  have children : (Subtree.ofError (.leaf (token.toLeaf token.raw state.topState) ::
      skipped.flatMap (skippedSubtrees state.topState))).leaves =
        token.toLeaf token.raw state.topState ::
          skipped.flatMap fun lexeme => lexeme.leavesAs lexeme.raw state.topState :=
    congrArg _ (leavesOf_skippedSubtrees state.topState skipped)
  refine placed.consume queue rfl (leaves_push_token state.topState children) ?_
    (placed.stack.push_token _ _ _ _) frame.cursor
  have all : ∀ lexemes : List Lexeme, widths (lexemes.flatMap fun lexeme =>
      lexeme.leavesAs lexeme.raw state.topState) = lexemes.flatMap Lexeme.widths := by
    intro lexemes
    induction lexemes with
    | nil => rfl
    | cons lexeme lexemes ih =>
        rw [List.flatMap_cons, widths_append, ih, List.flatMap_cons,
          lexeme.widths_leavesAs]
  exact all (token :: skipped)

theorem popEntries {depth : Nat} (found : state.popDepth? input token = some depth) :
    (state.popEntries input token).2.Placed input := by
  obtain ⟨taken, below, shape, popping, _⟩ := popStructural_spec [] depth state.stack
  rw [List.append_nil] at popping
  have contiguous := placed.stack
  rw [shape] at contiguous
  simp only [ParseState.popEntries, found, popping]
  refine placed.of_same rfl ?_ (@Contiguous.push { state with stack := below } contiguous.suffix
    _ _) rfl
  refine (leaves_push _ _).trans ?_
  rw [shape, stackLeaves_append]
  rfl

end token

end Placed

end ParseState

end Lalr
