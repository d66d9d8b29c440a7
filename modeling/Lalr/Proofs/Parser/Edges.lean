import Lalr.Proofs.Parser.Weight

set_option autoImplicit false

/-!
How subtrees that are built begin and end. The first token of a node is the token at hand where it
is built; the scanner behind its last token is the one that the token behind the node is read with;
and a node that ends where a larger one ends was completed before the same token. A token is
examined up to its end at least; so a node that can be used again, and that was not completed at the
end of the text, knows the character behind it.
-/

namespace Lalr

open Lalr.Text

/-! ## First and last tokens -/

namespace Subtree

theorem LiesAt.length_le {part whole : Subtree} {offset : Nat} (lies : part.LiesAt offset whole) :
    offset + part.length ≤ whole.length := by
  induction lies with
  | whole => exact (Nat.zero_add _).le
  | inside _ ih =>
      simp only [length, lengths_append, lengths]
      omega

theorem LiesAt.bare {part whole : Subtree} {offset : Nat} (lies : part.LiesAt offset whole) :
    part.bare.LiesAt offset whole.bare := by
  induction lies with
  | whole => exact .whole
  | @inside offset head before behind child _ ih =>
      rw [Subtree.bare, bares_append, bares, ← lengths_bares before]
      exact .inside ih

end Subtree

namespace Language.Builds

variable {language : Language} {here last : Juncture} {items : List (StateId × Subtree)}

/-- The first token is the one at hand. -/
theorem exists_firstLeaf (builds : language.Builds here items last) {first : StateId × Subtree}
    (isFirst : items.head? = some first) (isStructural : first.2.isExtra = false) :
    ∃ leaf, first.2.firstLeaf? = some leaf ∧ leaf.symbol = here.symbol ∧ leaf.mode = here.mode ∧
      leaf.scannerBefore = here.scanner := by
  induction builds generalizing first with
  | nil => cases isFirst
  | extra =>
      obtain rfl := Option.some.inj isFirst
      cases isStructural
  | token reads alone =>
      obtain rfl := Option.some.inj isFirst
      obtain ⟨_, _, _, _, _, rfl⟩ := reads.of_no_extras alone
      exact ⟨_, rfl, rfl, rfl, rfl⟩
  | @node _ _ _ children _ _ _ _ _ _ _ lowest _ _ _ _ _ _ _ _ ih =>
      obtain rfl := Option.some.inj isFirst
      obtain ⟨child, isChild, inner⟩ := lowest
      obtain ⟨leaf, found, rest⟩ := ih isChild inner
      obtain ⟨others, rfl⟩ := List.head?_eq_some_iff.mp isChild
      refine ⟨leaf, ?_, rest⟩
      simp [Subtree.firstLeaf?, Subtree.firstLeafOf?, found]

/-- The scanner that reading goes on with is the one behind the last token. -/
theorem exists_lastLeaf (builds : language.Builds here items last) {final : StateId × Subtree}
    (isLast : items.getLast? = some final) (isStructural : final.2.isExtra = false) :
    ∃ leaf, Subtree.lastLeafOf? (items.map Prod.snd) = some leaf ∧
      leaf.scannerAfter = last.scanner := by
  -- what comes behind the first subtree says it, unless there is nothing
  have later {item : StateId × Subtree} {rest : List (StateId × Subtree)} {between : Juncture}
      (ih : ∀ {final : StateId × Subtree}, rest.getLast? = some final →
        final.2.isExtra = false → ∃ leaf, Subtree.lastLeafOf? (rest.map Prod.snd) = some leaf ∧
          leaf.scannerAfter = between.scanner)
      {final : StateId × Subtree} (isLast : (item :: rest).getLast? = some final)
      (isStructural : final.2.isExtra = false) (more : rest ≠ []) :
      ∃ leaf, Subtree.lastLeafOf? ((item :: rest).map Prod.snd) = some leaf ∧
        leaf.scannerAfter = between.scanner := by
    obtain ⟨second, others, rfl⟩ := List.exists_cons_of_ne_nil more
    rw [List.getLast?_cons_cons] at isLast
    obtain ⟨leaf, found, same⟩ := ih isLast isStructural
    refine ⟨leaf, ?_, same⟩
    rw [List.map_cons, Subtree.lastLeafOf?, found]
    rfl
  induction builds generalizing final with
  | nil => cases isLast
  | @extra _ _ _ _ _ _ rest _ _ _ behind ih =>
      by_cases more : rest = []
      · subst more
        obtain rfl := Option.some.inj isLast
        cases isStructural
      · exact later ih isLast isStructural more
  | @token _ _ _ _ _ _ _ rest reads alone _ _ _ _ _ behind ih =>
      by_cases more : rest = []
      · subst more
        cases behind
        exact ⟨_, rfl, rfl⟩
      · exact later ih isLast isStructural more
  | @node _ _ _ children _ _ _ _ _ rest _ _ highest _ _ _ _ _ _ behind ihChildren ih =>
      by_cases more : rest = []
      · subst more
        cases behind
        obtain ⟨child, isChild, inner⟩ := highest
        obtain ⟨leaf, found, same⟩ := ihChildren isChild inner
        exact ⟨leaf, by simp [Subtree.lastLeafOf?, Subtree.lastLeaf?, found], same⟩
      · exact later ih isLast isStructural more

/-- Where anything but extras is built, there is something to do. -/
theorem acts (builds : language.Builds here items last)
    (structural : ∃ item ∈ items, item.2.isExtra = false) :
    language.action here.state here.symbol ≠ .error := by
  induction builds with
  | nil => exact absurd structural (by simp)
  | extra _ _ _ _ ih =>
      obtain ⟨item, member, isStructural⟩ := structural
      rcases List.mem_cons.mp member with rfl | later
      · cases isStructural
      · exact ih ⟨item, later, isStructural⟩
  | token _ _ _ _ _ action =>
      rw [action]
      nofun
  | node _ first _ _ _ _ _ _ _ _ ihChildren =>
      obtain ⟨child, isFirst, isStructural⟩ := first
      exact ihChildren ⟨child, List.mem_of_head? isFirst, isStructural⟩

variable (knowsNoEnd : language.lexer.KnowsNoEnd) (progresses : language.lexer.Progresses)

include knowsNoEnd progresses

/-- What is built takes up text. -/
theorem length_pos (builds : language.Builds here items last) :
    ∀ item ∈ items, 0 < item.2.length := by
  induction builds with
  | nil => exact nofun
  | extra stands inside _ _ ih =>
      intro item member
      rcases List.mem_cons.mp member with rfl | later
      · have some_ := mt utf8Length_eq_zero.mp (stands.finds.content_ne progresses inside)
        simp only [Subtree.length, extraLeaf]
        omega
      · exact ih item later
  | token reads _ inside _ _ _ _ _ ih =>
      intro item member
      rcases List.mem_cons.mp member with rfl | later
      · have size := (reads.size_pos knowsNoEnd progresses).2 inside
        rw [Subtree.length_bare]
        simp only [Subtree.length, Lexeme.toLeaf]
        omega
      · exact ih item later
  | node _ lowest _ _ _ _ _ _ _ _ ihChildren ih =>
      intro item member
      rcases List.mem_cons.mp member with rfl | later
      · obtain ⟨child, isChild, _⟩ := lowest
        obtain ⟨others, rfl⟩ := List.head?_eq_some_iff.mp isChild
        have positive := ihChildren child List.mem_cons_self
        simp only [Subtree.length, List.map_cons, Subtree.lengths]
        omega
      · exact ih item later

theorem exists_front (builds : language.Builds here items last) (more : items ≠ []) :
    ∃ c tail, here.text = c :: tail ++ last.text := by
  obtain ⟨piece, shape, length⟩ := builds.utf8Length_eq
  cases piece with
  | cons c tail => exact ⟨c, tail, shape⟩
  | nil =>
      obtain ⟨item, items, rfl⟩ := List.exists_cons_of_ne_nil more
      have positive := builds.length_pos knowsNoEnd progresses item List.mem_cons_self
      rw [List.map_cons, Subtree.lengths, utf8Length_nil] at length
      omega

/-- A node within subtrees that are built ends before they end, or it was completed before the token
that is at hand behind them. -/
theorem ends (builds : language.Builds here items last) {before behind : List (StateId × Subtree)}
    {item : StateId × Subtree} (split : items = before ++ item :: behind) {head : NodeHead}
    {children : List Subtree} {offset : Nat}
    (lies : (Subtree.node head children).LiesAt offset item.2) {lookahead : Lookahead}
    (known : head.lookahead = some lookahead) :
    Subtree.lengths (before.map Prod.snd) + offset + Subtree.lengths children <
        Subtree.lengths (items.map Prod.snd) ∨
      ∀ following farther, language.Reads last.mode last.text last.scanner following farther →
        lookahead.raw = following.raw := by
  induction builds generalizing before behind item offset with
  | nil => simp at split
  | extra _ _ _ _ ih | token _ _ _ _ _ _ _ _ ih =>
      cases before with
      | nil =>
          obtain ⟨rfl, rfl⟩ := List.cons.inj split
          cases lies
      | cons first before =>
          obtain ⟨rfl, rfl⟩ := List.cons.inj split
          refine (ih rfl lies).imp_left fun short => ?_
          simp only [List.map_cons, Subtree.lengths] at short ⊢
          omega
  | @node here_ between last_ inner following farther id production next rest built _ _ reads _ _ _
      _ _ later ihInner ih =>
      cases before with
      | cons first before =>
          obtain ⟨rfl, rfl⟩ := List.cons.inj split
          refine (ih rfl lies).imp_left fun short => ?_
          simp only [List.map_cons, Subtree.lengths] at short ⊢
          omega
      | nil =>
          obtain ⟨rfl, rfl⟩ := List.cons.inj split
          simp only [List.map_nil, Subtree.lengths, Nat.zero_add, List.map_cons]
          cases rest with
          | cons second others =>
              have short := lies.length_le
              have positive := later.length_pos knowsNoEnd progresses second List.mem_cons_self
              simp only [Subtree.length, List.map_cons, Subtree.lengths] at short ⊢
              exact .inl (by omega)
          | nil =>
              cases later
              simp only [List.map_nil, Subtree.lengths, Nat.add_zero, Subtree.length]
              generalize trees : inner.map Prod.snd = subtrees at lies
              cases lies with
              | whole =>
                  refine .inr fun other _ reads' => ?_
                  obtain ⟨rfl, _⟩ := reads.unique progresses reads'
                  rw [← Option.some.inj known]
              | @inside _ _ front rear child lies =>
                  obtain ⟨early, late, rfl, rfl, second⟩ := List.map_eq_append_iff.mp trees
                  obtain ⟨item, rest, rfl, rfl, rfl⟩ := List.map_eq_cons_iff.mp second
                  have inner := ihInner rfl lies
                  rw [trees] at inner
                  exact inner

end Language.Builds

/-! ## Margins -/

/-- What a lexeme depends on reaches up to its end. -/
def Lexeme.Examined (lexeme : Lexeme) : Prop :=
  lexeme.finish ≤ lexeme.examinedEnd

theorem Lexeme.examined_ofMissing (symbol : SymbolId) (position : Nat) (mode : ValidExternals) :
    (Lexeme.ofMissing symbol position mode).Examined :=
  Nat.le_refl position

theorem examined_of_lexFrom {language : Language} {start limit examinedEnd : Nat}
    {mode : ValidExternals} {extras : List Leaf} {cursor next : Cursor} {scanner : ScannerState}
    {lexeme : Lexeme}
    (read : lexFrom language start mode limit extras examinedEnd cursor scanner =
      .ok (lexeme, next)) : lexeme.Examined := by
  induction limit generalizing extras examinedEnd cursor scanner with
  | zero => cases read
  | succ limit ih =>
      obtain ⟨found, _, rest⟩ := exists_of_bind_eq_ok read
      split at rest
      case isTrue => exact ih rest
      case isFalse =>
          obtain ⟨rfl, _⟩ := Prod.mk.inj (Except.ok.inj rest)
          have onward := (Cursor.Passes.skipWhile cursor isBlank).offset
          simp only [Lexeme.Examined, Lexeme.finish, Lexeme.contentStart]
          omega

theorem ReadInTurn.examined {language : Language} {cursor last : Cursor}
    {scanner final : ScannerState} {lexemes : List Lexeme}
    (inTurn : ReadInTurn language cursor scanner lexemes last final) :
    ∀ lexeme ∈ lexemes, lexeme.Examined := by
  induction inTurn with
  | nil => exact nofun
  | cons read _ ih =>
      intro lexeme member
      rcases List.mem_cons.mp member with rfl | later
      · exact examined_of_lexFrom read
      · exact ih lexeme later

/-- A node at a place knows the character behind it, unless it was completed at the end of the
text. -/
def Subtree.SeesBehind (text : List Char) (place : Nat) (subtree : Subtree) : Prop :=
  ∀ head children lookahead, subtree = .node head children → head.lookahead = some lookahead →
    lookahead.raw ≠ endSymbol → ∃ front c rest, text = front ++ c :: rest ∧
      utf8Length front = place + subtree.length ∧ c.utf8Size ≤ head.lookaheadBytes

/-- A token is read in a text from where it starts. -/
structure Lexeme.ReadIn (lexeme : Lexeme) (language : Language) (text : List Char) : Prop where
  reads : ∃ front rest scanner last, text = front ++ rest ∧ utf8Length front = lexeme.start ∧
    language.Reads lexeme.mode rest scanner lexeme.core last
  tokenStart : lexeme.tokenStart = lexeme.start + (Lalr.widths lexeme.extras).sum

theorem le_foldl_max {α : Type} (measure : α → Nat) (items : List α) (first : Nat) :
    first ≤ items.foldl (fun last item => max last (measure item)) first := by
  induction items generalizing first with
  | nil => exact Nat.le_refl first
  | cons item items ih => exact (Nat.le_max_left ..).trans (ih _)

namespace ParseState

open StackEntry

variable {input : ParseInput} {grammar : FlatGrammar} {state middle after : ParseState}
  {token : Lexeme}

/-- A node that can be used again sees the token behind it. -/
theorem seesBehind_reduced (knowsNoEnd : input.language.lexer.KnowsNoEnd)
    (progresses : input.language.lexer.Progresses) {children below : List StackEntry} (contiguous :
      Contiguous (children ++ below)) (examined : token.Examined)
    (readIn : token.missing = false → token.ReadIn input.language input.text) {id : ProductionId}
    {production : ProductionInfo}
    (reusable : (({ state with stack := below } : ParseState).reducedHead id production token
      children.reverse).lookahead.any Lookahead.reusable = true) :
    Subtree.SeesBehind input.text (totalLength below)
      (.node (({ state with stack := below } : ParseState).reducedHead id production token
        children.reverse) (children.reverse.map StackEntry.subtree)) := by
  rintro head subtrees lookahead same known other
  obtain ⟨rfl, rfl⟩ := Subtree.node.inj same
  obtain ⟨ordinary, reached⟩ := Bool.and_eq_true_iff.mp reusable
  obtain rfl := Option.some.inj known
  obtain ⟨⟨front, rest, scanner, last, text, length, reads⟩, tokenStart⟩ :=
    readIn (by simpa [Lexeme.isOrdinary] using (Bool.and_eq_true_iff.mp
      (Bool.and_eq_true_iff.mp ordinary).1).2)
  have begins := contiguous.start_eq
  rw [contiguous.stackEnd_below, begins, beq_iff_eq] at reached
  -- the token takes up text, so it starts with some character
  obtain ⟨piece, shape, cut⟩ := reads.exists_piece
  have size : utf8Length piece =
      (Lalr.widths token.extras).sum + (token.padding + token.size) := by
    rw [cut.sum_eq, Lexeme.widths, List.sum_append, List.sum_singleton]
    rfl
  have positive := (reads.size_pos knowsNoEnd progresses).2 other
  have some_ : 0 < token.size := positive
  cases piece with
  | nil =>
      have nothing : utf8Length [] = 0 := rfl
      omega
  | cons c piece =>
      refine ⟨front, c, piece ++ last, by rw [text, shape]; rfl, ?_, ?_⟩
      · rw [length, reached, Subtree.length, totalLength_eq children.reverse]
      · have width : utf8Length (c :: piece) = c.utf8Size + utf8Length piece := rfl
        have seen := le_foldl_max (fun entry : StackEntry =>
          entry.finish + entry.subtree.lookaheadBytes) children.reverse token.examinedEnd
        simp only [Lexeme.Examined, Lexeme.finish, Lexeme.contentStart] at examined
        simp only [reducedHead]
        rw [contiguous.stackEnd_below, begins, ← reached]
        omega

theorem Locates.seesBehind_effect (knowsNoEnd : input.language.lexer.KnowsNoEnd)
    (progresses : input.language.lexer.Progresses) (locates : state.Locates (Subtree.SeesBehind input.text))
    (contiguous : Contiguous state.stack) (examined : token.Examined)
    (readIn : token.missing = false → token.ReadIn input.language input.text) {top : StateId}
    {symbol : SymbolId} (effect : Effect input state top symbol token (.next after)) :
    after.Locates (Subtree.SeesBehind input.text) := by
  refine locates.effect (fun id production _ _ => ?_) effect
  obtain ⟨trailing, children, below, shape, _, _, reduced⟩ :=
    reduce_eq input state id production token
  rw [shape] at contiguous
  refine locates.reduce shape reduced fun reusable => ?_
  refine seesBehind_reduced knowsNoEnd progresses contiguous.suffix examined readIn ?_
  simp only [Subtree.isReusable, Subtree.isReusableWith, Bool.and_eq_true] at reusable
  exact reusable.1.2

theorem examined_effect (idle : state.lookahead = none)
    (all : ∀ lexeme ∈ token :: state.pending, lexeme.Examined) {top : StateId}
    {symbol : SymbolId} (effect : Effect input state top symbol token (.next after)) :
    ∀ lexeme ∈ after.queue, lexeme.Examined :=
  forall_queue_of_effect idle all (fun _ known => known)
    (fun missing _ => Lexeme.examined_ofMissing missing _ _)
    (fun _ _ ahead lexeme member => ahead.inTurn.examined lexeme member) effect

theorem examined_current (all : ∀ lexeme ∈ state.queue, lexeme.Examined)
    (taken : state.current input = .ok (token, middle)) :
    ∀ lexeme ∈ token :: middle.pending, lexeme.Examined := by
  obtain ⟨_, _, whole, inTurn⟩ := current_ok taken
  intro lexeme member
  rw [whole] at member
  exact (List.mem_append.mp member).elim (all lexeme) (inTurn.examined lexeme)

theorem Reaches.readIn (knowsNoEnd : input.language.lexer.KnowsNoEnd) (represents : input.language.tables.Represents grammar)
    (inside : input.language.scanner.StaysInside) (fresh : input.reuse = [])
    (reaches : Reaches input state) (taken : state.current input = .ok (token, middle))
    (present : token.missing = false) : token.ReadIn input.language input.text := by
  obtain ⟨front, text, scanner, last, whole, length, reads, _⟩ :=
    reaches.exists_reads represents knowsNoEnd fresh inside taken present
  have placed := (reaches.placed knowsNoEnd inside (by simp [fresh])).current knowsNoEnd inside
    taken token.symbol
  refine ⟨⟨front, text, scanner, last, whole, ?_, reads⟩, ?_⟩
  · rw [length, ← (current_ok taken).1]
    exact placed.atHand.start.symm
  · have start : token.start = totalLength middle.stack := placed.atHand.start
    rw [start]
    exact placed.atHand.tokenStart

end ParseState

end Lalr
