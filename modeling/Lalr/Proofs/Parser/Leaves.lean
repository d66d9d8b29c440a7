import Lalr.Proofs.Parser.Effect

set_option autoImplicit false

/-!
What leaves and tokens hold of a text, wherever they stand in it. Leaves are laid out one
behind the other, so where each of them starts follows from the lengths of those before it.
-/

namespace Lalr

open Lalr.Text

/-! ## Leaves -/

namespace Subtree

@[simp] theorem leavesOf_append (first second : List Subtree) :
    leavesOf (first ++ second) = leavesOf first ++ leavesOf second := by
  induction first with
  | nil => rfl
  | cons child first ih => simp [leavesOf, ih]

@[simp] theorem leavesOf_map_leaf (leaves : List Leaf) :
    leavesOf (leaves.map Subtree.leaf) = leaves := by
  induction leaves with
  | nil => rfl
  | cons leaf leaves ih => simp [leavesOf, Subtree.leaves, ih]

mutual

/-- Every leaf of a tree without errors is a token of the text that the lexer has recognised. -/
theorem real_of_containsError {subtree : Subtree} (clean : subtree.containsError = false) :
    ∀ leaf ∈ subtree.leaves, leaf.raw ≠ errorSymbol ∧ leaf.missing = false := by
  cases subtree with
  | leaf token =>
      intro leaf member
      obtain rfl := List.mem_singleton.mp member
      exact ⟨beq_eq_false_iff_ne.mp (Bool.or_eq_false_iff.mp clean).1,
        (Bool.or_eq_false_iff.mp clean).2⟩
  | node head children =>
      exact real_of_anyContainsError (Bool.or_eq_false_iff.mp clean).2

theorem real_of_anyContainsError {children : List Subtree}
    (clean : anyContainsError children = false) :
    ∀ leaf ∈ leavesOf children, leaf.raw ≠ errorSymbol ∧ leaf.missing = false := by
  cases children with
  | nil => exact fun leaf member => absurd member List.not_mem_nil
  | cons child children =>
      obtain ⟨first, others⟩ := Bool.or_eq_false_iff.mp clean
      intro leaf member
      exact (List.mem_append.mp member).elim (real_of_containsError first leaf)
        (real_of_anyContainsError others leaf)

end

end Subtree

/-- The leaves on a stack in the order of the text. -/
def stackLeaves (stack : List StackEntry) : List Leaf :=
  Subtree.leavesOf (stack.reverse.map StackEntry.subtree)

theorem stackLeaves_append (above below : List StackEntry) :
    stackLeaves (above ++ below) = stackLeaves below ++ stackLeaves above := by
  simp [stackLeaves]

theorem stackLeaves_cons (entry : StackEntry) (stack : List StackEntry) :
    stackLeaves (entry :: stack) = stackLeaves stack ++ entry.subtree.leaves := by
  simp [stackLeaves, Subtree.leavesOf]

/-- A token or an extra without its place: its blank bytes, its own bytes and its symbol. -/
abbrev LeafShape := Nat × Nat × SymbolId

def Leaf.shape (leaf : Leaf) : LeafShape :=
  (leaf.padding, leaf.size, leaf.raw)

/-- The shapes of the leaves that are no missing tokens. -/
def solidShapes (leaves : List Leaf) : List LeafShape :=
  (leaves.filter fun leaf => !leaf.missing).map Leaf.shape

@[simp] theorem solidShapes_append (first second : List Leaf) :
    solidShapes (first ++ second) = solidShapes first ++ solidShapes second := by
  simp [solidShapes]

/-- Missing tokens take no text. -/
def MissingAreEmpty (leaves : List Leaf) : Prop :=
  ∀ leaf ∈ leaves, leaf.missing = true → leaf.padding = 0 ∧ leaf.size = 0

theorem MissingAreEmpty.append {first second : List Leaf} (left : MissingAreEmpty first)
    (right : MissingAreEmpty second) : MissingAreEmpty (first ++ second) := by
  intro leaf member
  rcases List.mem_append.mp member with early | late
  · exact left leaf early
  · exact right leaf late

/-! ## Layout -/

def Piece.shape (piece : Piece) : LeafShape :=
  (piece.padding, piece.size, piece.raw)

/-- Pieces of the given shapes, one behind the other from an offset on. -/
def layOut : Nat → List LeafShape → List Piece
  | _, [] => []
  | start, (padding, size, raw) :: shapes =>
      ⟨start, padding, size, raw⟩ :: layOut (start + padding + size) shapes

/-- Where a text consists of pieces, they are laid out one behind the other. -/
theorem Tiles.eq_layOut {before after : Cursor} {pieces : List Piece}
    (tiles : Tiles before pieces after) :
    pieces = layOut before.offset (pieces.map Piece.shape) := by
  induction tiles with
  | nil => rfl
  | cons _ padding content start pads sized _ ih =>
      rw [List.map_cons, Piece.shape, layOut, ← start, start, pads, sized, ← padding.offset,
        ← content.offset, ← ih, ← start, ← pads, ← sized]

theorem piecesFrom_eq_layOut {leaves : List Leaf} (missing : MissingAreEmpty leaves)
    (start : Nat) : piecesFrom start leaves = layOut start (solidShapes leaves) := by
  induction leaves generalizing start with
  | nil => rfl
  | cons leaf leaves ih =>
      have rest : MissingAreEmpty leaves := fun other member =>
        missing other (List.mem_cons_of_mem _ member)
      cases isMissing : leaf.missing with
      | true =>
          obtain ⟨padding, size⟩ := missing leaf List.mem_cons_self isMissing
          simp [piecesFrom, solidShapes, isMissing, padding, size, ih rest]
      | false => simp [piecesFrom, solidShapes, isMissing, Leaf.shape, layOut, ih rest]

/-- The pieces of leaves lie where the leaves do. -/
theorem bounds_of_mem_piecesFrom {start : Nat} {leaves : List Leaf} {piece : Piece}
    (member : piece ∈ piecesFrom start leaves) :
    start ≤ piece.start ∧
      piece.start + piece.padding + piece.size ≤ start + extent leaves ∧
      ∃ leaf ∈ leaves, leaf.raw = piece.raw := by
  induction leaves generalizing start with
  | nil => cases member
  | cons leaf leaves ih =>
      have later (behind : piece ∈ piecesFrom (start + leaf.padding + leaf.size) leaves) :
          start ≤ piece.start ∧
            piece.start + piece.padding + piece.size ≤ start + extent (leaf :: leaves) ∧
            ∃ other ∈ leaf :: leaves, other.raw = piece.raw := by
        obtain ⟨from_start, to_end, other, listed, raw⟩ := ih behind
        simp only [extent, List.map_cons, List.sum_cons] at to_end ⊢
        exact ⟨by omega, by omega, other, List.mem_cons_of_mem _ listed, raw⟩
      rw [piecesFrom] at member
      split at member
      · exact later member
      · rcases List.mem_cons.mp member with rfl | behind
        · simp only [extent, List.map_cons, List.sum_cons]
          exact ⟨Nat.le_refl _, by omega, leaf, List.mem_cons_self, rfl⟩
        · exact later behind

/-- A piece of the text lies in front of a leaf, is the leaf or lies behind it. -/
theorem mem_piecesFrom_cases {start : Nat} {before after : List Leaf} {leaf : Leaf} {piece : Piece}
    (member : piece ∈ piecesFrom start (before ++ leaf :: after)) :
    piece.start + piece.padding + piece.size ≤ start + extent before ∨
      piece = ⟨start + extent before, leaf.padding, leaf.size, leaf.raw⟩ ∨
      start + extent before + leaf.padding + leaf.size ≤ piece.start := by
  rw [piecesFrom_append] at member
  rcases List.mem_append.mp member with first | later
  · exact .inl (bounds_of_mem_piecesFrom first).2.1
  · rw [piecesFrom] at later
    split at later
    · exact .inr (.inr (bounds_of_mem_piecesFrom later).1)
    · rcases List.mem_cons.mp later with here | behind
      · exact .inr (.inl here)
      · exact .inr (.inr (bounds_of_mem_piecesFrom behind).1)

theorem shapes_piecesFrom (start : Nat) (leaves : List Leaf) :
    (piecesFrom start leaves).map Piece.shape = solidShapes leaves := by
  induction leaves generalizing start with
  | nil => rfl
  | cons leaf leaves ih =>
      cases isMissing : leaf.missing with
      | true => simp [piecesFrom, solidShapes, isMissing, ih]
      | false => simp [piecesFrom, solidShapes, isMissing, Leaf.shape, Piece.shape, ih]

theorem solidShapes_of_solid {leaves : List Leaf} (solid : ∀ leaf ∈ leaves, leaf.missing = false) :
    solidShapes leaves = leaves.map Leaf.shape := by
  have all : leaves.filter (fun leaf => !leaf.missing) = leaves :=
    List.filter_eq_self.mpr fun leaf member => by simp [solid leaf member]
  rw [solidShapes, all]

/-! ## Lexemes that wait -/

namespace Lexeme

/-- The shapes of the extras and of the token. -/
def shapes (lexeme : Lexeme) : List LeafShape :=
  lexeme.extras.map Leaf.shape ++ [(lexeme.padding, lexeme.size, lexeme.raw)]

/-- The leaves that a token and its extras become. -/
def leavesAs (lexeme : Lexeme) (symbol : SymbolId) (state : StateId) : List Leaf :=
  lexeme.extras ++ [lexeme.toLeaf symbol state]

/-- What holds of a lexeme from when it is read to when it is dealt with: a missing one takes
no text, and it stands for the end of the input exactly if it is the end of the input. -/
structure WellKept (lexeme : Lexeme) : Prop where
  missing : lexeme.missing = true → lexeme.padding = 0 ∧ lexeme.size = 0 ∧ lexeme.extras = []
  real : lexeme.raw = endSymbol → lexeme.missing = false
  extras : ∀ leaf ∈ lexeme.extras, leaf.missing = false
  word : ∀ word, lexeme.word = some word → lexeme.raw ≠ endSymbol ∧ word ≠ endSymbol
  symbol : ∀ symbol, lexeme.symbol = some symbol → (symbol = endSymbol ↔ lexeme.raw = endSymbol)

variable {lexeme : Lexeme}

theorem WellKept.forget (kept : lexeme.WellKept) :
    ({ lexeme with symbol := none } : Lexeme).WellKept :=
  ⟨kept.missing, kept.real, kept.extras, kept.word, nofun⟩

theorem ReadFrom.wellKept {before after : Cursor} (read : lexeme.ReadFrom before after) :
    lexeme.WellKept where
  missing isMissing := by simp [read.missing] at isMissing
  real _ := read.missing
  extras := read.extras
  word := read.word
  symbol symbol same := by simp [read.symbol] at same

theorem WellKept.readAhead (kept : lexeme.WellKept) : lexeme.readAhead.WellKept :=
  ⟨kept.missing, kept.real, kept.extras, kept.word, kept.symbol⟩

theorem WellKept.solidShapes_leavesAs (kept : lexeme.WellKept) (symbol : SymbolId)
    (state : StateId) :
    solidShapes (lexeme.leavesAs symbol state) = if lexeme.missing then [] else lexeme.shapes := by
  cases missing : lexeme.missing with
  | true =>
      simp [leavesAs, (kept.missing missing).2.2, solidShapes, toLeaf, missing]
  | false =>
      rw [leavesAs, solidShapes_append, solidShapes_of_solid kept.extras]
      simp [solidShapes, shapes, toLeaf, missing, Leaf.shape]

theorem WellKept.missingAreEmpty_leavesAs (kept : lexeme.WellKept) (symbol : SymbolId)
    (state : StateId) : MissingAreEmpty (lexeme.leavesAs symbol state) := by
  intro leaf member isMissing
  rcases List.mem_append.mp member with extra | own
  · exact absurd isMissing (by simp [kept.extras leaf extra])
  · obtain rfl := List.mem_singleton.mp own
    have empty := kept.missing isMissing
    exact ⟨empty.1, empty.2.1⟩

/-- The symbol of a token in a state before twins are looked for: its own, or the word that
it is read as where no keyword is acceptable. -/
def readAs (language : Language) (state : StateId) (lexeme : Lexeme) : SymbolId :=
  match lexeme.word with
  | some word => if language.acceptsKeywords state then lexeme.raw else word
  | none => lexeme.raw

/-- The twin of a symbol where it has an action, or else the symbol. -/
def twinOr (language : Language) (state : StateId) (symbol : SymbolId) : SymbolId :=
  match language.lexer.twin? symbol with
  | some twin => if language.action state twin = .error then symbol else twin
  | none => symbol

theorem resolveSymbol_eq (language : Language) (state : StateId) (lexeme : Lexeme) :
    resolveSymbol language state lexeme =
      if lexeme.isAdjacent then twinOr language state (lexeme.readAs language state)
      else lexeme.readAs language state :=
  rfl

theorem WellKept.readAs_eq_end_iff (language : Language) (kept : lexeme.WellKept)
    (state : StateId) : lexeme.readAs language state = endSymbol ↔ lexeme.raw = endSymbol := by
  unfold readAs
  split
  case h_2 => rfl
  case h_1 other word =>
      have apart := kept.word other word
      split
      · rfl
      · exact iff_of_false apart.2 apart.1

theorem twinOr_eq_end_iff {language : Language} (knowsNoEnd : language.lexer.KnowsNoEnd)
    (state : StateId) (symbol : SymbolId) :
    twinOr language state symbol = endSymbol ↔ symbol = endSymbol := by
  unfold twinOr
  split
  case h_2 => rfl
  case h_1 twin found =>
      have others := knowsNoEnd.twin? found
      split
      · rfl
      · exact iff_of_false others.2 others.1

theorem WellKept.resolveSymbol_eq_end_iff {language : Language} (kept : lexeme.WellKept)
    (knowsNoEnd : language.lexer.KnowsNoEnd) (state : StateId) :
    resolveSymbol language state lexeme = endSymbol ↔ lexeme.raw = endSymbol := by
  rw [resolveSymbol_eq]
  split
  · rw [twinOr_eq_end_iff knowsNoEnd, kept.readAs_eq_end_iff]
  · exact kept.readAs_eq_end_iff language state

theorem WellKept.named {input : ParseInput} {state : ParseState} (kept : lexeme.WellKept)
    (knowsNoEnd : input.language.lexer.KnowsNoEnd) :
    ({ lexeme with symbol := some (state.symbolOf input lexeme) } : Lexeme).WellKept := by
  refine ⟨kept.missing, kept.real, kept.extras, kept.word, ?_⟩
  intro symbol same
  obtain rfl := Option.some.inj same
  unfold ParseState.symbolOf
  cases known : lexeme.symbol with
  | some symbol => exact kept.symbol symbol known
  | none => exact kept.resolveSymbol_eq_end_iff knowsNoEnd state.topState

end Lexeme

theorem endsLast_congr {first second : List Lexeme}
    (same : first.map Lexeme.asRead = second.map Lexeme.asRead) (endsLast : EndsLast first) :
    EndsLast second := by
  intro lexeme member
  have listed := List.mem_map_of_mem (f := Lexeme.asRead) member
  rw [List.map_dropLast, ← same, ← List.map_dropLast] at listed
  obtain ⟨other, inside, alike⟩ := List.mem_map.mp listed
  rw [show lexeme.raw = lexeme.asRead.raw from rfl, ← alike]
  exact endsLast other inside

/-- Lexemes that wait, as they were read; missing tokens were not read. -/
def asRead (queue : List Lexeme) : List Lexeme :=
  (queue.map Lexeme.asRead).filter fun lexeme => !lexeme.missing

@[simp] theorem asRead_append (first second : List Lexeme) :
    asRead (first ++ second) = asRead first ++ asRead second := by
  simp [asRead]

theorem solidShapes_flatMap_leavesAs {lexemes : List Lexeme}
    (kept : ∀ lexeme ∈ lexemes, lexeme.WellKept) (symbol : Lexeme → SymbolId)
    (state : StateId) :
    solidShapes (lexemes.flatMap fun lexeme => lexeme.leavesAs (symbol lexeme) state) =
        (asRead lexemes).flatMap Lexeme.shapes ∧
      MissingAreEmpty (lexemes.flatMap fun lexeme => lexeme.leavesAs (symbol lexeme) state) := by
  induction lexemes with
  | nil => exact ⟨rfl, by simp [MissingAreEmpty]⟩
  | cons lexeme lexemes ih =>
      have here := kept lexeme List.mem_cons_self
      obtain ⟨shapes, missing⟩ := ih fun other member => kept other (List.mem_cons_of_mem _ member)
      rw [List.flatMap_cons]
      refine ⟨?_, (here.missingAreEmpty_leavesAs _ _).append missing⟩
      rw [solidShapes_append, here.solidShapes_leavesAs, shapes]
      cases isMissing : lexeme.missing with
      | true => simp [asRead, Lexeme.asRead, isMissing]
      | false => simp [asRead, Lexeme.asRead, isMissing, Lexeme.shapes]

theorem ReadInTurn.asRead_eq {language : Language} (knowsNoEnd : language.lexer.KnowsNoEnd)
    {cursor last : Cursor} {scanner final : ScannerState} {read : List Lexeme}
    (inTurn : ReadInTurn language cursor scanner read last final) :
    read.map Lexeme.asRead = read ∧ Lalr.asRead read = read ∧
      ∀ lexeme ∈ read, lexeme.WellKept := by
  induction inTurn with
  | nil => exact ⟨rfl, rfl, by simp⟩
  | @cons _ _ _ _ _ _ lexeme lexemes lexed _ ih =>
      obtain ⟨mapped, kept, wellKept⟩ := ih
      have read := readFrom_of_lex knowsNoEnd lexed
      have same : lexeme.asRead = lexeme := by
        cases lexeme
        simp only [Lexeme.asRead, ← read.fresh, ← read.symbol]
      refine ⟨by rw [List.map_cons, same, mapped], ?_, ?_⟩
      · rw [Lalr.asRead, mapped] at kept
        rw [Lalr.asRead, List.map_cons, same, mapped, List.filter_cons, if_pos, kept]
        simp [read.missing]
      · intro other member
        rcases List.mem_cons.mp member with rfl | later
        · exact read.wellKept
        · exact wellKept other later

theorem map_asRead_readAhead (lexemes : List Lexeme) :
    (lexemes.map Lexeme.readAhead).map Lexeme.asRead = lexemes.map Lexeme.asRead := by
  rw [List.map_map]
  rfl

end Lalr
