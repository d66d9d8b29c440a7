import Lalr.Proofs.OneScript.Scanner
import Lalr.Proofs.Parser.Rereading
import Lalr.Proofs.Pattern.Settling
import Lalr.Proofs.Text.Bytes
import Lalr.Proofs.Text.Runs

set_option autoImplicit false

/-!
The end of what a lexeme depends on. It covers everything that can change the lexeme, as long as
each of its tokens is settled by the characters up to there. The margin behind a token is no bound
of its own for that: a literal or a pattern may look further, and behind a character that nothing
matches there is no margin at all.
-/

namespace Lalr

open Lalr.Text

/-- A token at a place is settled by the characters before an offset. -/
def Lexer.SettlesBefore (lexer : Lexer) (limit : Nat) (place : Cursor) : Prop :=
  ∃ seen, seen <+: place.rest ∧ place.offset + utf8Length seen ≤ limit ∧ lexer.Settles seen

/-! ## Single tokens -/

/-- Where the text goes on behind the margin, the margin is the full one. -/
theorem margin_eq {rest : List Char}
    (more : min regularLookahead (utf8Length (rest.take regularLookahead)) < utf8Length rest ∨
      regularLookahead ≤ utf8Length rest) :
    min regularLookahead (utf8Length (rest.take regularLookahead)) = regularLookahead := by
  have bytes := length_le_utf8Length (rest.take regularLookahead)
  rw [List.length_take] at bytes
  by_cases short : rest.length ≤ regularLookahead
  · rw [List.take_of_length_le short] at more ⊢
    omega
  · omega

/-- The same token in two texts that agree so far: they go on alike with its content, and agree
behind it too. -/
structure FoundToken.SameIn (limit offset : Nat) (text other content behind behind' : List Char)
    (found found' : FoundToken) : Prop where
  split : text = content ++ behind
  split' : other = content ++ behind'
  size : found.size = utf8Length content
  next : found.next = ⟨offset + utf8Length content, behind⟩
  same : found' = { found with next := ⟨offset + utf8Length content, behind'⟩ }
  agree : AgreeOn (limit - (offset + utf8Length content)) behind behind'
  head : other.head? = text.head?

section tokens

variable {lexer : Lexer} {text other : List Char} {offset examinedEnd limit : Nat}
  {state : ScannerState}

theorem le_examinedEnd_regularToken (place : Cursor) :
    examinedEnd ≤ (regularToken lexer place examinedEnd state).examinedEnd := by
  unfold regularToken
  split
  · exact Nat.le_max_left _ _
  · split <;> exact Nat.le_max_left _ _

/-- What is found does not depend on what was examined before. -/
theorem regularToken_again (lexer : Lexer) (place : Cursor) (state : ScannerState)
    (examinedEnd examinedEnd' : Nat) :
    (regularToken lexer place examinedEnd' state).symbol =
        (regularToken lexer place examinedEnd state).symbol ∧
      (regularToken lexer place examinedEnd' state).next =
        (regularToken lexer place examinedEnd state).next ∧
      (regularToken lexer place examinedEnd' state).scannerAfter = state := by
  unfold regularToken
  split
  · exact ⟨rfl, rfl, rfl⟩
  · split <;> exact ⟨rfl, rfl, rfl⟩

/-- A token that is settled within what it examined is found in every text that agrees so far. -/
theorem regularToken_of_agree (agree : AgreeOn (limit - offset) text other)
    (reported : (regularToken lexer ⟨offset, text⟩ examinedEnd state).examinedEnd ≤ limit)
    (settled : lexer.SettlesBefore limit ⟨offset, text⟩) :
    ∃ content behind behind', FoundToken.SameIn limit offset text other content behind behind'
      (regularToken lexer ⟨offset, text⟩ examinedEnd state)
      (regularToken lexer ⟨offset, other⟩ examinedEnd state) := by
  obtain ⟨seen, ⟨behind, rfl⟩, within, settles⟩ := settled
  dsimp only at within
  have counted : limit - offset = utf8Length seen + (limit - offset - utf8Length seen) := by omega
  obtain ⟨behind', rfl, _⟩ := (counted ▸ agree).split
  have here := settles.matchToken?_append behind
  have there := settles.matchToken?_append behind'
  cases matched : lexer.matchToken? seen with
  | none =>
      rw [matched] at here there
      obtain ⟨c, rest, split⟩ : ∃ c rest, seen ++ behind = c :: rest := by
        refine List.exists_cons_of_ne_nil fun empty => ?_
        rw [empty] at agree
        exact absurd agree.more (Nat.not_lt_zero _)
      rw [split] at here agree reported
      simp only [regularToken, here] at reported
      have inside : offset + c.utf8Size ≤ limit := Nat.le_trans (Nat.le_max_right _ _) reported
      have cut : limit - offset = c.utf8Size + (limit - (offset + c.utf8Size)) := by omega
      obtain ⟨rest', split', agree'⟩ := (cut ▸ agree).cons
      rw [split'] at there
      have single : utf8Length [c] = c.utf8Size := rfl
      refine ⟨[c], rest, rest', split, split', ?_, ?_, ?_, by rwa [single], by rw [split, split']; rfl⟩
      · simp [regularToken, split, here]
      · simp only [regularToken, split, here]
        rfl
      · simp only [regularToken, split, split', here, there]
        rfl
  | some found =>
      obtain ⟨symbol, length, left⟩ := found
      obtain ⟨content, whole, rfl⟩ := Lexer.splits_of_matchToken? matched
      obtain rfl : seen = content ++ left := whole
      rw [matched] at here there
      simp only [regularToken, here, Option.map_some, TokenMatch.extend] at reported
      have reached := Nat.le_trans (Nat.le_max_right _ _) reported
      have inside : offset + utf8Length content ≤ limit := Nat.le_of_add_right_le reached
      have cut : limit - offset =
          utf8Length content + (limit - (offset + utf8Length content)) := by omega
      rw [List.append_assoc, List.append_assoc, cut] at agree
      obtain ⟨rest', split', behindAgree⟩ := agree.split
      obtain rfl := List.append_cancel_left split'
      have more := behindAgree.more
      have more' := behindAgree.more'
      have margin : _ = regularLookahead := margin_eq (.inl (Nat.lt_of_le_of_lt (by omega) more))
      have margin' : _ = regularLookahead := margin_eq (.inr (Nat.le_trans (by omega) (Nat.le_of_lt more')))
      have head : (content ++ (left ++ behind')).head? = (content ++ (left ++ behind)).head? := by
        cases content with
        | cons => rfl
        | nil =>
            -- a token of no size leaves room for the next character in its margin
            rw [List.nil_append, List.nil_append]
            cases whole : left ++ behind with
            | nil =>
                rw [whole] at more
                exact absurd more (Nat.not_lt_zero _)
            | cons c rest =>
                have wide : c.utf8Size ≤ regularLookahead :=
                  Nat.le_trans c.utf8Size_le_four (by decide)
                have cut : limit - (offset + utf8Length []) =
                    c.utf8Size + (limit - (offset + utf8Length []) - c.utf8Size) := by omega
                rw [whole, cut] at behindAgree
                obtain ⟨rest', split, _⟩ := behindAgree.cons
                rw [split]
                rfl
      refine ⟨content, left ++ behind, left ++ behind', by simp, by simp, ?_, ?_, ?_, behindAgree,
        by simpa using head⟩
      · simp only [regularToken, here]
        rfl
      · simp only [regularToken, here]
        rfl
      · simp only [regularToken, here, there, Option.map_some, TokenMatch.extend, margin, margin']

end tokens

/-! ## Lexemes -/

section lexemes

variable {language : Language} {mode : ValidExternals} {state : ScannerState}

/-- Without a scanner, the token at a place is what the lexer finds there. -/
theorem tokenAt_of_silent (silent : language.scanner = .noExternals) {place : Cursor}
    (more : place.rest ≠ []) (mode : ValidExternals) (examinedEnd : Nat) (state : ScannerState) :
    tokenAt language place mode examinedEnd state = .ok (regularToken language.lexer place
      (if mode.isEmpty then examinedEnd else max examinedEnd place.offset) state) := by
  unfold tokenAt
  rw [if_neg (by simpa using more), silent]
  split <;> rfl

theorem examinedEnd_le_of_lexFrom (silent : language.scanner = .noExternals)
    {start fuel examinedEnd : Nat} {extras : List Leaf} {cursor after : Cursor} {lexeme : Lexeme}
    (read : lexFrom language start mode fuel extras examinedEnd cursor state =
      .ok (lexeme, after)) : examinedEnd ≤ lexeme.examinedEnd := by
  induction fuel generalizing examinedEnd extras cursor state with
  | zero => cases read
  | succ fuel ih =>
      obtain ⟨found, finding, rest⟩ := exists_of_bind_eq_ok read
      have grows : examinedEnd ≤ found.examinedEnd := by
        rcases tokenAt_cases finding with ⟨_, rfl⟩ | ⟨more, _⟩ | ⟨more, _⟩
        · exact Nat.le_refl _
        all_goals
          rw [tokenAt_of_silent silent more] at finding
          obtain rfl := Except.ok.inj finding
          refine Nat.le_trans ?_ (le_examinedEnd_regularToken _)
          split
          · exact Nat.le_refl _
          · exact Nat.le_max_left _ _
      split at rest
      case isTrue => exact Nat.le_trans grows (ih rest)
      case isFalse =>
          obtain ⟨rfl, _⟩ := Prod.mk.inj (Except.ok.inj rest)
          exact Nat.le_trans grows (Nat.le_max_left _ _)

/-- An extra of no size would be read for ever. -/
theorem lexFrom_stalls (silent : language.scanner = .noExternals) {place : Cursor}
    (more : place.rest ≠ []) (stays : place.skipWhile isBlank = place) {examinedEnd : Nat}
    (extra : language.lexer.isExtra
      (regularToken language.lexer place examinedEnd state).symbol = true)
    (inside : (regularToken language.lexer place examinedEnd state).symbol ≠ endSymbol)
    (stuck : (regularToken language.lexer place examinedEnd state).next = place)
    (start fuel : Nat) (extras : List Leaf) (examinedEnd' : Nat) :
    ∃ fault, lexFrom language start mode fuel extras examinedEnd' place state = .error fault := by
  induction fuel generalizing extras examinedEnd' with
  | zero => exact ⟨_, rfl⟩
  | succ fuel ih =>
      have again := regularToken_again language.lexer place state examinedEnd
        (if mode.isEmpty then examinedEnd' else max examinedEnd' place.offset)
      rw [lexFrom]
      simp only [stays, tokenAt_of_silent silent more, bind, Except.bind]
      rw [if_pos (by simp [again, extra, inside]), again.2.1, stuck, again.2.2]
      exact ih _ _

/-- The next token is found behind the same blank space in every text that agrees so far. -/
theorem tokenAt_skip_of_agree (silent : language.scanner = .noExternals) {cursor place : Cursor}
    {other : List Char} {limit examinedEnd : Nat} {found : FoundToken}
    (skipped : cursor.skipWhile isBlank = place) (more : place.rest ≠ [])
    (agree : AgreeOn (limit - cursor.offset) cursor.rest other)
    (finding : tokenAt language place mode examinedEnd state = .ok found)
    (reported : found.examinedEnd ≤ limit) (settled : language.lexer.SettlesBefore limit place) :
    ∃ ahead content behind behind' found',
      Cursor.skipWhile ⟨cursor.offset, other⟩ isBlank = ⟨place.offset, ahead⟩ ∧
      ahead.length ≤ other.length ∧
      tokenAt language ⟨place.offset, ahead⟩ mode examinedEnd state = .ok found' ∧
      FoundToken.SameIn limit place.offset place.rest ahead content behind behind' found found' := by
  have blank : ∀ c ∈ cursor.rest.takeWhile isBlank, isBlank c = true :=
    fun _ => List.mem_takeWhile_imp
  have blanks := Cursor.Passes.skipWhile cursor isBlank
  have stops := Cursor.stops_skipWhile cursor isBlank
  rw [skipped] at blanks stops
  generalize cursor.rest.takeWhile isBlank = passed at blank blanks
  obtain ⟨split, offset⟩ := blanks
  obtain ⟨seen, front, within, settles⟩ := settled
  have cut : limit - cursor.offset = utf8Length passed + (limit - place.offset) := by omega
  rw [cut, split] at agree
  obtain ⟨ahead, rfl, ahead_agree⟩ := agree.split
  rw [tokenAt_of_silent silent more] at finding
  obtain rfl := Except.ok.inj finding
  obtain ⟨content, behind, behind', same⟩ :=
    regularToken_of_agree ahead_agree reported ⟨seen, front, within, settles⟩
  have more' : ahead ≠ [] := by
    rintro rfl
    exact more (List.head?_eq_none_iff.mp same.head.symm)
  refine ⟨ahead, content, behind, behind', _, ?_, ?_, tokenAt_of_silent silent more' _ _ _, same⟩
  · rw [Cursor.skipWhile_append blank (by rwa [same.head]), offset]
  · rw [List.length_append]
    omega

/-- An extra that is found takes something from the text, or reading would not come to an end. -/
theorem content_ne_of_lexFrom (silent : language.scanner = .noExternals) {place : Cursor}
    (more : place.rest ≠ []) (stays : place.skipWhile isBlank = place) {examined : Nat}
    {found : FoundToken} (finding : tokenAt language place mode examined state = .ok found)
    (extra : (found.symbol != endSymbol && language.lexer.isExtra found.symbol) = true)
    {start fuel examinedEnd : Nat} {extras : List Leaf} {after : Cursor} {lexeme : Lexeme}
    (read : lexFrom language start mode fuel extras examinedEnd found.next found.scannerAfter =
      .ok (lexeme, after)) : found.next ≠ place := by
  intro stuck
  rw [tokenAt_of_silent silent more] at finding
  obtain rfl := Except.ok.inj finding
  obtain ⟨inside, isExtra⟩ := Bool.and_eq_true_iff.mp extra
  obtain ⟨fault, stalls⟩ : ∃ fault, lexFrom language start mode fuel extras examinedEnd place
      state = .error fault :=
    lexFrom_stalls silent more stays isExtra (by simpa using inside) stuck start fuel extras
      examinedEnd
  rw [stuck, (regularToken_again language.lexer place state 0 _).2.2] at read
  cases read.symm.trans stalls

/-- A lexeme whose tokens are settled within what it examined is read from every text that agrees
so far. -/
theorem lexFrom_of_agree (silent : language.scanner = .noExternals)
    (knowsNoEnd : language.lexer.KnowsNoEnd) {text other : List Char}
    {start fuel fuel' examinedEnd : Nat} {extras : List Leaf} {cursor after : Cursor}
    {lexeme : Lexeme} (reached : ∃ passed, (Cursor.start text).Passes passed cursor)
    (measured : cursor.offset = start + extent extras.reverse)
    (read : lexFrom language start mode fuel extras examinedEnd cursor state = .ok (lexeme, after))
    (agree : AgreeOn (lexeme.examinedEnd - cursor.offset) cursor.rest other)
    (settled : lexeme.KnownBy fun start _ _ => ∀ place, Cursor.at? text start = some place →
      language.lexer.SettlesBefore lexeme.examinedEnd place)
    (enough : other.length < fuel') :
    ∃ rest', lexFrom language start mode fuel' extras examinedEnd ⟨cursor.offset, other⟩ state =
      .ok (lexeme, ⟨after.offset, rest'⟩) := by
  induction fuel generalizing fuel' examinedEnd extras cursor state other with
  | zero => cases read
  | succ fuel ih =>
      obtain ⟨fuel', rfl⟩ := Nat.exists_eq_succ_of_ne_zero (Nat.ne_zero_of_lt enough)
      obtain ⟨passed, onward⟩ := reached
      have blanks := Cursor.Passes.skipWhile cursor isBlank
      have stays := Cursor.skipWhile_again cursor isBlank
      obtain ⟨found, finding, rest⟩ := exists_of_bind_eq_ok read
      generalize skipped : cursor.skipWhile isBlank = place at *
      have placed := Cursor.at?_of_passes (onward.trans blanks)
      have padding : cursor.offset + (place.offset - cursor.offset) = place.offset := by
        have := blanks.offset
        omega
      by_cases more : place.rest = []
      · -- the end of the text has been examined, but the texts are said to go on behind it
        have read : tokenAt language place mode examinedEnd state =
            .ok ⟨endSymbol, 0, examinedEnd, state, place⟩ := by
          simp [tokenAt, more]
        obtain rfl := Except.ok.inj (read.symm.trans finding)
        simp only [bne_self_eq_false, Bool.false_and, Bool.false_eq_true, if_false] at rest
        obtain ⟨rfl, _⟩ := Prod.mk.inj (Except.ok.inj rest)
        have whole := blanks.end_eq
        have inside := agree.more
        have reaches := Nat.le_max_right examinedEnd (place.offset + 0)
        rw [more, utf8Length_nil] at whole
        dsimp only at inside
        omega
      · split at rest
        case isTrue extra =>
            have known := exists_known_of_extra rest rfl settled
            dsimp only at known
            rw [← measured, padding] at known
            have apart := content_ne_of_lexFrom silent more stays finding extra rest
            obtain ⟨ahead, content, behind, behind', found', skipped', shorter, finding', same⟩ :=
              tokenAt_skip_of_agree silent skipped more agree finding
                (examinedEnd_le_of_lexFrom silent rest) (known place placed)
            obtain rfl := same.same
            have fewer : behind'.length < fuel' := by
              have inside : content ≠ [] := by
                rintro rfl
                have split : place.rest = behind := same.split
                rw [same.next, ← split] at apart
                exact apart rfl
              rw [same.split', List.length_append] at shorter
              have := List.length_pos_of_ne_nil inside
              omega
            rw [same.next] at rest
            obtain ⟨rest', read'⟩ := ih ⟨_, (onward.trans blanks).trans ⟨same.split, rfl⟩⟩
              (by
                rw [List.reverse_cons, extent_snoc, same.size]
                dsimp only
                omega) rest same.agree fewer
            refine ⟨rest', ?_⟩
            rw [lexFrom]
            simp only [skipped', finding', bind, Except.bind, extra, if_true]
            exact read'
        case isFalse token =>
            obtain ⟨rfl, rfl⟩ := Prod.mk.inj (Except.ok.inj rest)
            have inside : found.symbol ≠ endSymbol := by
              cases fitsAt_tokenAt knowsNoEnd finding with
              | atEnd empty => exact absurd empty more
              | token _ inside => exact inside
            have known := settled _ (Lexeme.token_mem_pieces
              (mt (knowsNoEnd.getD_eq_end_iff rfl).mp inside))
            dsimp only [Lexeme.token] at known
            rw [padding] at known
            obtain ⟨ahead, content, behind, behind', found', skipped', _, finding', same⟩ :=
              tokenAt_skip_of_agree silent skipped more agree finding (Nat.le_max_left _ _)
                (known place placed)
            obtain rfl := same.same
            have cut := splitBytes?_eq_some_iff.mpr ⟨same.split, same.size.symm⟩
            have cut' := splitBytes?_eq_some_iff.mpr ⟨same.split', same.size.symm⟩
            refine ⟨behind', ?_⟩
            rw [lexFrom]
            simp only [skipped', finding', bind, Except.bind, token, cut, cut', same.next]
            rfl

end lexemes

/-- In a language without external tokens, a lexeme whose tokens are settled by what it examined is
read at the same place of every text that has the same bytes so far. -/
theorem lex_examined {source : Grammar} {language : Language}
    (loaded : Language.ofGrammar source .noExternals = .ok language) {text other : List Char}
    {offset : Nat} {cursor cursor' after : Cursor} {mode : ValidExternals} {state : ScannerState}
    {lexeme : Lexeme} (here : Cursor.at? text offset = some cursor)
    (there : Cursor.at? other offset = some cursor')
    (read : lex language cursor mode state = .ok (lexeme, after))
    (agree : AgreeOn lexeme.examinedEnd text other)
    (settled : lexeme.KnownBy fun start _ _ => ∀ place, Cursor.at? text start = some place →
      language.lexer.SettlesBefore lexeme.examinedEnd place) :
    ∃ after', lex language cursor' mode state = .ok (lexeme, after') := by
  have silent : language.scanner = .noExternals :=
    (Language.ofTables_ok (Language.ofGrammar_ok loaded).2).2.2.2.2
  have knowsNoEnd := Language.knowsNoEnd_of_ofGrammar loaded
  obtain ⟨front, passes, length⟩ := Cursor.Passes.of_advance? here
  have placed : cursor.offset = utf8Length front := by simpa [Cursor.start] using passes.offset
  have reaches := examinedEnd_le_of_lexFrom silent read
  have cut : lexeme.examinedEnd = utf8Length front + (lexeme.examinedEnd - cursor.offset) := by
    omega
  have split : text = front ++ cursor.rest := passes.rest
  rw [cut, split] at agree
  obtain ⟨behind, rfl, behind_agree⟩ := agree.split
  have onward : (Cursor.start (front ++ behind)).Passes front ⟨cursor.offset, behind⟩ :=
    ⟨rfl, by simp [Cursor.start, placed]⟩
  obtain rfl : ⟨cursor.offset, behind⟩ = cursor' := by
    have found := Cursor.at?_of_passes onward
    dsimp only at found
    rw [placed, length, there] at found
    exact (Option.some.inj found).symm ▸ by rw [placed, length]
  obtain ⟨rest', read'⟩ := lexFrom_of_agree silent knowsNoEnd ⟨front, passes⟩ rfl read behind_agree
    settled (Nat.lt_succ_self _)
  exact ⟨_, read'⟩

set_option maxRecDepth 10000 in
/-- The first token of a text for the pair grammar is settled by its first character. -/
theorem lex_examined_pair :
    ∃ language lexeme after, Language.ofGrammar pairGrammar .noExternals = .ok language ∧
      lex language ⟨0, "abbbbbbbbbb".toList⟩ .none .empty = .ok (lexeme, after) ∧
      ∃ after', lex language ⟨0, "abbbbbbbbcc".toList⟩ .none .empty = .ok (lexeme, after') := by
  have shown : ((Language.ofGrammar pairGrammar .noExternals).toOption.map fun language =>
      ((language.lexer.literals, language.lexer.patterns.length),
        (lex language ⟨0, "abbbbbbbbbb".toList⟩ .none .empty).toOption.map fun read =>
          (read.1.pieces, read.1.examinedEnd))) =
      some (([(['a'], 1), (['b'], 2)], 0), some ([⟨0, 0, 1, 1⟩], 9)) := by cbv
  obtain ⟨_, language, _, loaded, _⟩ := pairGrammar_loads
  rw [loaded] at shown
  cases read : lex language ⟨0, "abbbbbbbbbb".toList⟩ .none .empty with
  | error fault =>
      simp only [read, Except.toOption, Option.map_some, Option.map_none, Option.some.injEq,
        Prod.mk.injEq, reduceCtorEq, and_false] at shown
  | ok result =>
      obtain ⟨lexeme, after⟩ := result
      simp only [read, Except.toOption, Option.map_some, Option.some.injEq, Prod.mk.injEq,
        List.length_eq_zero_iff] at shown
      obtain ⟨⟨literals, patterns⟩, pieces, examined⟩ := shown
      refine ⟨language, lexeme, after, loaded, read, ?_⟩
      have agree : AgreeOn lexeme.examinedEnd "abbbbbbbbbb".toList "abbbbbbbbcc".toList := by
        rw [examined]
        exact ⟨by decide, by decide, by decide⟩
      have start (text : List Char) : Cursor.at? text 0 = some (.start text) :=
        Cursor.at?_of_passes (Cursor.Passes.refl _)
      refine lex_examined loaded (start _) (start _) read agree fun piece member place found => ?_
      rw [pieces, List.mem_singleton] at member
      subst member
      obtain rfl := Option.some.inj ((start _).symm.trans found)
      have within : 0 + utf8Length ['a'] ≤ lexeme.examinedEnd := by rw [examined]; decide
      exact ⟨['a'], by decide, within, by simp [literals], by simp [patterns]⟩

end Lalr
