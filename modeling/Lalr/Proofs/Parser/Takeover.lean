import Lalr.Proofs.Parser.Edges
import Lalr.Proofs.Parser.Lockstep

set_option autoImplicit false

/-!
A parse with an old tree and one without. Where the one takes over a subtree the other one builds
it again, if the language carries what it builds over to other text behind; in every other step
both do the same.
-/

namespace Lalr

open Lalr.Text

/-- What stays built when the text behind it changes: a node, if the token behind it is of the
same kind still and, short of the end of the text, starts with the same character. -/
def Language.Carries (language : Language) : Prop :=
  ∀ {here last : Juncture} {next : StateId} {head : NodeHead} {children : List Subtree}
    {piece behind : List Char} {following following' : Lexeme} {farther farther' : List Char},
    language.Builds here [(next, .node head children)] last → here.text = piece ++ last.text →
    language.Reads last.mode last.text last.scanner following farther →
    language.Reads last.mode behind last.scanner following' farther' →
    following'.raw = following.raw →
    (following.raw = endSymbol ∨ ∃ c rest rest', last.text = c :: rest ∧ behind = c :: rest') →
      language.Builds { here with text := piece ++ behind } [(next, .node head children)]
        { last with text := behind }

/-- A subtree that is offered to the parse of a text stands there as it was built before other
text, which goes on with the same character unless the text ended. -/
structure ReuseCandidate.Offered (candidate : ReuseCandidate) (language : Language)
    (text : List Char) : Prop where
  reusable : candidate.subtree.isReusable = true
  place : ∃ front piece behind here last next, text = front ++ (piece ++ behind) ∧
    candidate.offset = utf8Length front + candidate.subtree.padding ∧
    here.text = piece ++ last.text ∧
    language.Builds here [(next, candidate.subtree.bare)] last ∧
    (∀ following farther, language.Reads last.mode last.text last.scanner following farther →
      following.raw = endSymbol ∨ ∃ c rest rest', last.text = c :: rest ∧ behind = c :: rest') ∧
    candidate.subtree.Located (Subtree.SeesBehind text) (utf8Length front)

theorem Language.Builds.cutInto_leaves {language : Language} {here last : Juncture}
    {next : StateId} {subtree : Subtree} (builds : language.Builds here [(next, subtree.bare)] last)
    {piece : List Char} (text : here.text = piece ++ last.text) :
    CutInto piece (widths subtree.leaves) := by
  obtain ⟨other, shape, cut⟩ := builds.exists_piece
  obtain rfl := List.append_cancel_right (text.symm.trans shape)
  have same : widths (Subtree.leavesOf ([(next, subtree.bare)].map Prod.snd)) =
      widths subtree.leaves := by
    simp only [List.map_cons, List.map_nil, Subtree.leavesOf, List.append_nil,
      Subtree.leaves_bare, widths, List.map_map]
    rfl
  exact same ▸ cut

theorem ReuseCandidate.Offered.standsIn {candidate : ReuseCandidate} {language : Language}
    {text : List Char} (offered : candidate.Offered language text) : candidate.StandsIn text := by
  obtain ⟨front, piece, behind, here, last, next, shape, offset, split, builds, _⟩ := offered.place
  exact ⟨⟨_, piece, offset, ⟨front, behind, by rw [shape, List.append_assoc], rfl⟩,
    builds.cutInto_leaves split⟩, fun _ => Subtree.padding_of_isReusable offered.reusable⟩

theorem Lexeme.ReadIn.of_loose {language : Language} {text : List Char} {lexeme lexeme' : Lexeme}
    (readIn : lexeme'.ReadIn language text) (alike : lexeme.loose = lexeme'.loose)
    (symbol : Option SymbolId) : ({ lexeme with symbol := symbol } : Lexeme).ReadIn language text := by
  obtain ⟨⟨front, rest, scanner, last, shape, length, reads⟩, tokenStart⟩ := readIn
  have start := congrArg Lexeme.start alike
  have core := congrArg Lexeme.core alike
  have extras := congrArg Lexeme.extras alike
  have start' := congrArg Lexeme.tokenStart alike
  change lexeme.core = lexeme'.core at core
  change lexeme.extras = lexeme'.extras at extras
  refine ⟨⟨front, rest, scanner, last, shape, length.trans start.symm, ?_⟩, ?_⟩
  · have mode := congrArg Lexeme.mode alike
    change lexeme.mode = lexeme'.mode at mode
    rw [← core, ← mode] at reads
    exact reads
  · rw [← extras] at tokenStart
    exact (start'.trans tokenStart).trans (congrArg (· + _) start.symm)

/-- The input of a parse without the old tree. -/
def ParseInput.anew (input : ParseInput) : ParseInput :=
  { input with reuse := [] }

namespace ParseState

open StackEntry

variable {input : ParseInput} {grammar : FlatGrammar} {state other middle after : ParseState}
  {token : Lexeme}

/-! ## Steps that make no use of the old tree -/

theorem findAcceptable_anew (attempts place : Nat) (state : ParseState) :
    state.findAcceptable input.anew attempts place = state.findAcceptable input attempts place := by
  induction attempts generalizing place state with
  | zero => rfl
  | succ attempts ih =>
      rw [findAcceptable_succ, findAcceptable_succ]
      simp only [ih]
      rfl

theorem recover_anew (token : Lexeme) :
    state.recover input.anew token = state.recover input token := by
  unfold recover skipTokens
  simp only [findAcceptable_anew]
  rfl

/-- A step takes over a subtree, fails in the attempt, or is that of a parse without the tree. -/
theorem step_cases (input : ParseInput) (state : ParseState) :
    state.step input = state.step input.anew ∨
      ∃ token middle next, state.current input = .ok (token, middle) ∧
        let symbol := state.symbolOf input token
        let named : Lexeme := { token with symbol := some symbol }
        input.language.action state.topState symbol = .shift next ∧
        ((∃ after, state.step input = .ok (.next after) ∧
            TakesOver input middle symbol named after) ∨
          ∃ fault candidate lookahead last next, state.step input = .error fault ∧
            Tries input middle symbol named candidate lookahead last next ∧
            FailsBehind input named candidate lookahead last fault) := by
  have same : state.current input.anew = state.current input := rfl
  cases taken : state.current input with
  | error fault =>
      left
      rw [step_eq, step_eq, same, taken]
      rfl
  | ok result =>
      obtain ⟨token, middle⟩ := result
      let named : Lexeme := { token with symbol := some (state.symbolOf input token) }
      have stepped : state.step input =
          act input (state.symbolOf input token) named middle state.topState := by
        rw [step_eq, taken]
        rfl
      have anew : state.step input.anew =
          act input.anew (state.symbolOf input token) named middle state.topState := by
        rw [step_eq, same, taken]
        rfl
      have language : input.anew.language = input.language := rfl
      have recovers : middle.recover input.anew named = middle.recover input named :=
        recover_anew named
      have fresh : middle.reuse? input.anew (state.symbolOf input token) named = .ok none :=
        reuse?_eq_none rfl _ _
      rw [stepped, anew]
      cases action : input.language.action state.topState (state.symbolOf input token) with
      | shift next =>
          have cases_ : middle.reuse? input (state.symbolOf input token) named = _ := rfl
          rcases reuse?_cases cases_ with none_ | ⟨after, some_, takes⟩ |
            ⟨fault, candidate, lookahead, last, next', failed, tries, fails⟩
          · left
            simp only [act, language, action, none_, fresh]
          · refine .inr ⟨token, middle, next, rfl, action, .inl ⟨after, ?_, takes⟩⟩
            simp only [act, action, some_]
            rfl
          · refine .inr ⟨token, middle, next, rfl, action,
              .inr ⟨fault, candidate, lookahead, last, next', ?_, tries, fails⟩⟩
            simp only [act, action, failed]
            rfl
      | error | goto next =>
          left
          simp only [act, language, action, recovers]
      | reduce id | accept =>
          left
          simp only [act, language, action, recovers]
          rfl

/-! ## Several steps -/

theorem runSteps_of_le {few many : Nat} (le : few ≤ many) {result : Subtree × ParseStats}
    (ran : runSteps input few state = .ok result) : runSteps input many state = .ok result := by
  induction few generalizing many state with
  | zero => cases ran
  | succ few ih =>
      obtain ⟨many, rfl⟩ := Nat.exists_eq_add_one_of_ne_zero (Nat.ne_zero_of_lt le)
      rw [runSteps] at ran ⊢
      cases stepped : state.step input with
      | error fault =>
          rw [stepped] at ran
          cases ran
      | ok outcome =>
          rw [stepped] at ran
          cases outcome with
          | done root stats => exact ran
          | next after => exact ih (Nat.le_of_succ_le_succ le) ran

theorem exists_runSteps_of_leads
    (leads : Relation.TransGen (fun before after => before.step input = .ok (.next after)) state
      after) {limit : Nat} {result : Subtree × ParseStats}
    (ran : runSteps input limit state = .ok result) :
    ∃ less < limit, runSteps input less after = .ok result := by
  have single : ∀ {state after : ParseState} {limit : Nat},
      state.step input = .ok (.next after) → runSteps input limit state = .ok result →
        ∃ less < limit, runSteps input less after = .ok result := by
    intro state after limit stepped ran
    cases limit with
    | zero => cases ran
    | succ limit =>
        rw [runSteps, stepped] at ran
        exact ⟨limit, Nat.lt_succ_self limit, ran⟩
  induction leads with
  | single stepped => exact single stepped ran
  | tail _ stepped ih =>
      obtain ⟨less, fewer, ran⟩ := ih
      obtain ⟨least, fewest, ran⟩ := single stepped ran
      exact ⟨least, fewest.trans fewer, ran⟩

theorem exists_limit_of_leads
    (leads : Relation.TransGen (fun before after => before.step input = .ok (.next after)) state
      after) {limit : Nat} {result : Subtree × ParseStats}
    (ran : runSteps input limit after = .ok result) :
    ∃ more, runSteps input more state = .ok result := by
  induction leads generalizing limit with
  | single stepped => exact ⟨limit + 1, by rw [runSteps, stepped]; exact ran⟩
  | tail _ stepped ih => exact ih (show runSteps input (limit + 1) _ = _ by rw [runSteps, stepped]; exact ran)

/-! ## The two parses side by side -/

/-- A state of a parse with an old tree is that of a parse without one, but for margins. -/
structure Mirrors (input : ParseInput) (state other : ParseState) : Prop where
  same : state.bare = other.bare
  reaches : Reaches input.anew other
  placed : state.Placed input
  locates : state.Locates (Subtree.SeesBehind input.text)
  examined : ∀ lexeme ∈ state.queue, lexeme.Examined

theorem mirrors_initial (input : ParseInput) :
    Mirrors input (.initial input.text) (.initial input.text) where
  same := rfl
  reaches := .initial
  placed := placed_initial input
  locates := trivial
  examined := nofun

theorem map_bare_eq_of_profile {stack stack' : List StackEntry} (contiguous : Contiguous stack)
    (contiguous' : Contiguous stack') (profiles : stack.map profile = stack'.map profile) :
    stack.map StackEntry.bare = stack'.map StackEntry.bare := by
  induction stack generalizing stack' with
  | nil =>
      rw [List.map_nil, eq_comm, List.map_eq_nil_iff] at profiles
      rw [profiles]
  | cons entry below ih =>
      obtain ⟨entry', below', rfl, same, rest⟩ := List.map_eq_cons_iff.mp profiles.symm
      have under := ih contiguous.2 contiguous'.2 rest.symm
      have starts : entry.start = entry'.start := by
        rw [contiguous.1, contiguous'.1, ← totalLength_map_bare, under, totalLength_map_bare]
      obtain ⟨state, subtree⟩ := Prod.mk.inj same
      rw [List.map_cons, List.map_cons, under]
      have lengths : entry.length = entry'.length := by
        rw [entry.length_eq, entry'.length_eq, ← Subtree.length_bare, ← subtree,
          Subtree.length_bare]
      rw [StackEntry.bare, StackEntry.bare]
      simp only [List.cons.injEq, and_true, StackEntry.mk.injEq]
      exact ⟨state.symm, subtree.symm, starts, lengths⟩

/-- Lexemes of the same wording and at the same place differ in their margins alone. -/
theorem loose_eq_of_core {lexeme lexeme' : Lexeme} (core : lexeme.core = lexeme'.core)
    (start : lexeme.start = lexeme'.start) (tokenStart : lexeme.tokenStart = lexeme'.tokenStart)
    (fresh : lexeme.fresh = lexeme'.fresh) (symbol : lexeme.symbol = lexeme'.symbol) :
    lexeme.loose = lexeme'.loose := by
  simp only [Lexeme.core, Lexeme.mk.injEq] at core
  simp only [Lexeme.loose, Lexeme.mk.injEq]
  simp [core, start, tokenStart, fresh, symbol]

theorem Reaches.present_of_fresh (knowsNoEnd : input.language.lexer.KnowsNoEnd)
    (fresh : input.reuse = []) (reaches : Reaches input state)
    (taken : state.current input = .ok (token, middle)) (isFresh : token.fresh = true) :
    token.missing = false := by
  have current : ∀ {state middle : ParseState} {token : Lexeme},
      (∀ lexeme ∈ state.queue, lexeme.fresh = true → lexeme.missing = false) →
      state.current input = .ok (token, middle) →
        ∀ lexeme ∈ token :: middle.pending, lexeme.fresh = true → lexeme.missing = false := by
    intro state middle token all taken lexeme member
    obtain ⟨_, _, whole, inTurn⟩ := current_ok taken
    rw [whole] at member
    exact (List.mem_append.mp member).elim (all lexeme)
      fun read _ => inTurn.present knowsNoEnd lexeme read
  suffices all : ∀ lexeme ∈ state.queue, lexeme.fresh = true → lexeme.missing = false from
    current all taken token List.mem_cons_self isFresh
  clear taken
  induction reaches with
  | initial => nofun
  | step reaches stepped ih =>
      obtain ⟨token, middle, taken, effect⟩ := effect_of_step fresh stepped
      obtain ⟨held, waiting⟩ := List.forall_mem_cons.mp (current ih taken)
      refine forall_queue_of_effect (current_ok taken).2.1 ?_ (fun _ known => known)
        (fun _ _ => nofun) (fun _ _ _ _ _ => nofun) effect
      exact List.forall_mem_cons.mpr ⟨held, waiting⟩

section running

variable (represents : input.language.tables.Represents grammar)
  (knowsNoEnd : input.language.lexer.KnowsNoEnd)
  (progresses : input.language.lexer.Progresses)
  (inside : input.language.scanner.StaysInside) (carries : input.language.Carries)
  {candidate : ReuseCandidate} {lookahead : Lookahead} {last : Leaf} {next : StateId}

include represents knowsNoEnd progresses inside carries

omit represents knowsNoEnd progresses inside carries in
theorem Tries.first_eq {symbol : SymbolId}
    (tries : Tries input state symbol token candidate lookahead last next) :
    ∃ first, candidate.subtree.firstLeaf? = some first ∧ first.symbol = symbol ∧
      first.mode = token.mode ∧ first.scannerBefore = token.scannerBefore := by
  have starts := tries.starts
  simp only [startsWith, Option.any_eq_true, Bool.and_eq_true, beq_iff_eq] at starts
  obtain ⟨first, isFirst, ⟨⟨⟨⟨symbol, _⟩, _⟩, _⟩, mode⟩, scanner⟩ := starts
  exact ⟨first, isFirst, symbol, mode, scanner⟩

omit progresses carries in
/-- The token at hand in the parse without the old tree, and where it was read. -/
theorem Mirrors.exists_reads (mirrors : Mirrors input state other)
    (taken : state.current input = .ok (token, middle)) (alone : middle.pending = [])
    (isFresh : token.fresh = true) :
    ∃ token' middle' front rest, other.current input.anew = .ok (token', middle') ∧
      token.loose = token'.loose ∧ middle'.pending = [] ∧
      middle'.scannerState = token'.scannerAfter ∧ input.text = front ++ rest ∧
      utf8Length front = token.tokenStart ∧ input.language.Reads token.mode rest
        token.scannerBefore (token'.core.withExtras []) middle'.cursor.rest := by
  have knowsNoEnd' : input.anew.language.lexer.KnowsNoEnd := knowsNoEnd
  have inside' : input.anew.language.scanner.StaysInside := inside
  obtain ⟨token', middle', taken', alike, same⟩ := exists_current_of_bare_eq mirrors.same taken
  have taken' : other.current input.anew = .ok (token', middle') := taken'
  have pending := (bare_eq_iff.mp same).pending
  rw [alone] at pending
  have alone' : middle'.pending = [] := List.map_eq_nil_iff.mp pending.symm
  have isFresh' : token'.fresh = true := (congrArg Lexeme.fresh alike).symm.trans isFresh
  have present := mirrors.reaches.present_of_fresh knowsNoEnd' rfl taken' isFresh'
  obtain ⟨before, text, scanner, final, shape, length, reads, behind⟩ :=
    mirrors.reaches.exists_reads (show input.anew.language.tables.Represents grammar from represents)
      knowsNoEnd' rfl inside' taken' present
  obtain ⟨rfl, after⟩ := behind alone'
  obtain ⟨passed, rest, rfl, cut, reads⟩ := reads.strip
  have held := (mirrors.reaches.placed knowsNoEnd' inside' nofun).current knowsNoEnd' inside' taken'
    token'.symbol
  have mode := congrArg Lexeme.mode alike
  have scannerBefore := congrArg Lexeme.scannerBefore alike
  change token.mode = token'.mode at mode
  change token.scannerBefore = token'.scannerBefore at scannerBefore
  refine ⟨token', middle', before ++ passed, rest, taken', alike, alone', after,
    shape.trans (List.append_assoc before passed rest).symm, ?_, ?_⟩
  · have tokenStart := congrArg Lexeme.tokenStart alike
    change token.tokenStart = token'.tokenStart at tokenStart
    have stands : token'.tokenStart = totalLength middle'.stack + (Lalr.widths token'.extras).sum :=
      held.atHand.tokenStart
    rw [utf8Length_append, length, cut.sum_eq, tokenStart, stands, (current_ok taken').1]
    rfl
  · rw [mode, scannerBefore]
    exact reads

omit represents knowsNoEnd progresses inside carries in
/-- The text before a subtree that is tried ends where the token at hand begins. -/
theorem Tries.front_eq {symbol : SymbolId}
    (tries : Tries input state symbol token candidate lookahead last next)
    (reusable : candidate.subtree.isReusable = true) {place : Nat}
    (offset : candidate.offset = place + candidate.subtree.padding) : place = token.tokenStart := by
  obtain ⟨first, isFirst, padding⟩ := tries.exists_first
  have firstPadding := Subtree.padding_of_isReusable reusable isFirst
  have offered := tries.offset
  rw [Lexeme.contentStart] at offered
  omega

omit knowsNoEnd progresses inside carries in
/-- The parse without the old tree is where a subtree that is tried was built, with the same token
at hand. -/
theorem Mirrors.standsAt (mirrors : Mirrors input state other) {token' : Lexeme}
    {middle' : ParseState} (taken' : other.current input.anew = .ok (token', middle'))
    (alike : token.loose = token'.loose) (isFresh : token.fresh = true)
    (alone : middle'.pending = [])
    (scanner : middle'.scannerState = token'.scannerAfter) {here : Juncture}
    (under : state.topState = here.state) (symbol : state.symbolOf input token = here.symbol)
    (mode : token.mode = here.mode) (scannerBefore : token.scannerBefore = here.scanner)
    (reads : input.language.Reads token.mode here.text token.scannerBefore
      (token'.core.withExtras []) middle'.cursor.rest) :
    StandsAt input.anew other token' middle' token.extras here := by
  have extras := congrArg Lexeme.extras alike
  change token.extras = token'.extras at extras
  have onlyExtras := ((mirrors.reaches.sound
    (show input.anew.language.tables.Represents grammar from represents) rfl rfl).current taken').1
  have top := topState_congr mirrors.same
  have symbolOf_ : other.symbolOf input.anew token' = state.symbolOf input token := by
    have symbol' := congrArg Lexeme.symbol alike
    change token.symbol = token'.symbol at symbol'
    rw [symbolOf, symbolOf, ← symbol', ← top]
    exact congrArg _ (resolveSymbol_congr alike _ _).symm
  rw [mode, scannerBefore] at reads
  refine ⟨taken', alone, (congrArg Lexeme.fresh alike).symm.trans isFresh, ?_,
    top.symm.trans under, symbolOf_.trans symbol, (congrArg Lexeme.mode alike).symm.trans mode,
    ⟨[], ?_, reads⟩, scanner⟩
  · rw [extras]
    exact onlyExtras
  · rw [List.append_nil]
    exact extras.symm

omit represents knowsNoEnd progresses inside carries in
/-- A subtree that is tried was built from a token like the one at hand, and the scanner was left
where its last token left it. -/
theorem Tries.seam {symbol : SymbolId}
    (tries : Tries input state symbol token candidate lookahead last next) {leads : StateId}
    {here there : Juncture}
    (builds : input.language.Builds here [(leads, candidate.subtree.bare)] there)
    (isStructural : candidate.subtree.bare.isExtra = false) :
    symbol = here.symbol ∧ token.mode = here.mode ∧ token.scannerBefore = here.scanner ∧
      last.scannerAfter = there.scanner := by
  obtain ⟨leaf, isLeaf, symbolAt, modeAt, scannerAt⟩ := tries.first_eq
  have begins := congrArg (Option.map Leaf.bare) isLeaf
  rw [← Subtree.firstLeaf?_bare] at begins
  obtain ⟨first, isFirst, same, mode, scannerBefore⟩ := builds.exists_firstLeaf rfl isStructural
  obtain rfl : leaf.bare = first := Option.some.inj (begins.symm.trans isFirst)
  have ends := congrArg (Option.map Leaf.bare) tries.last
  rw [← Subtree.lastLeaf?_bare] at ends
  obtain ⟨final, isLast, scannerAfter⟩ := builds.exists_lastLeaf rfl isStructural
  have alike : Subtree.lastLeafOf? [candidate.subtree.bare] = some last.bare := by
    simpa [Subtree.lastLeafOf?] using ends
  obtain rfl := Option.some.inj (alike.symm.trans isLast)
  exact ⟨symbolAt.symm.trans same, modeAt.symm.trans mode, scannerAt.symm.trans scannerBefore,
    scannerAfter⟩

/-- What a parse takes over, the parse without the old tree builds from the same token on. -/
theorem Mirrors.exists_built (mirrors : Mirrors input state other)
    (taken : state.current input = .ok (token, middle))
    (tries : Tries input middle (state.symbolOf input token)
      { token with symbol := some (state.symbolOf input token) } candidate lookahead last next)
    (offered : candidate.Offered input.language input.text) {place cursor : Cursor}
    {following : Lexeme}
    (found : Cursor.at? input.text (token.tokenStart + candidate.subtree.length) = some place)
    (read : lex input.language place lookahead.mode last.scannerAfter = .ok (following, cursor))
    (raw : following.raw = lookahead.raw) :
    ∃ after token' middle' here there,
      Relation.TransGen (fun before after => before.step input.anew = .ok (.next after)) other
        after ∧ after.lookahead = some token' ∧ token'.symbol = some lookahead.symbol ∧
      Built input.anew other token.extras here [(next, candidate.subtree.bare)] there after token'
        middle' [] ∧ here.state = state.topState ∧ there.text = place.rest ∧
      there.mode = lookahead.mode ∧ there.scanner = last.scannerAfter := by
  have knowsNoEnd' : input.anew.language.lexer.KnowsNoEnd := knowsNoEnd
  have progresses' : input.anew.language.lexer.Progresses := progresses
  have inside' : input.anew.language.scanner.StaysInside := inside
  obtain ⟨front, piece, behind, here, there, leads, text, offset, split, builds, seam, _⟩ :=
    offered.place
  obtain ⟨head, children, node, state_, known, target⟩ := tries.node
  obtain ⟨token', middle', before, rest, taken', alike, alone, scanner, text', length, reads⟩ :=
    mirrors.exists_reads represents knowsNoEnd inside taken tries.alone tries.fresh
  have reached : utf8Length front = token.tokenStart := tries.front_eq offered.reusable offset
  obtain ⟨rfl, rfl⟩ := eq_of_utf8Length_eq (text'.symm.trans text) (length.trans reached.symm)
  -- where the token behind the subtree was read again
  have place_ : place.rest = behind := by
    rw [← reached, Subtree.length_eq_sum, ← (builds.cutInto_leaves split).sum_eq,
      ← utf8Length_append, text, ← List.append_assoc, Cursor.at?_append] at found
    exact Option.some.inj found ▸ rfl
  have isStructural : candidate.subtree.bare.isExtra = false := by
    have shape := builds
    rw [node, Subtree.bare] at shape ⊢
    obtain ⟨_, _, _, _, _, _, _, _, _, _, _, _, _, _, _, head_, _⟩ := shape.exists_children
    rw [head_]
    rfl
  obtain ⟨symbol, mode, scannerBefore, last_⟩ := tries.seam builds isStructural
  rw [node, Subtree.bare] at builds
  obtain ⟨known', _, following', farther, _, _, _, _, _, known_reads, _, _, _, _, _, head_, _, rfl⟩ :=
    builds.exists_children
  have lookahead_ : head.bare.lookahead = some lookahead := known
  rw [head_, Option.some.injEq] at lookahead_
  subst lookahead_
  -- what was built before the text changed is built still
  have readsNow := reads_of_lex read
  rw [place_, last_] at readsNow
  have carried := carries builds split known_reads readsNow raw (seam _ _ known_reads)
  obtain ⟨before', children', following', farther', id, production, inner, isFirst', isLast', reads',
    real, action, production_, count, goto_, head', subtrees, there⟩ := carried.exists_children
  have under : state.topState = here.state := by
    rw [topState, ← (current_ok taken).1]
    exact state_.symm.trans (congrArg NodeHead.state head_ : head.bare.state = _)
  have stands : StandsAt input.anew other token' middle' token.extras
      { here with text := piece ++ behind } :=
    mirrors.standsAt represents taken' alike tries.fresh alone scanner under symbol mode
      scannerBefore reads
  obtain ⟨between, token'', middle'', done, built⟩ :=
    ParseState.exists_built knowsNoEnd' progresses' inside' rfl inner mirrors.reaches stands
  obtain ⟨after, final', last', stepped, lookahead', symbol', whole⟩ :=
    built.complete knowsNoEnd' progresses' inside' rfl mirrors.reaches stands.top isFirst' isLast'
      reads' real action production_ count goto_
  rw [← head', ← subtrees, ← Subtree.bare, ← node] at whole
  obtain rfl : leads = next := by
    have symbol : head.bare.symbol = production.lhs := congrArg NodeHead.symbol head'
    rw [← symbol, ← under, topState, ← (current_ok taken).1] at goto_
    exact Option.some.inj (goto_.symm.trans target)
  refine ⟨after, final', last', _, _, .tail' built.leads stepped, lookahead', ?_, whole, under.symm,
    ?_, ?_, ?_⟩
  · exact symbol'.trans (congrArg some (congrArg Juncture.symbol there).symm)
  · exact (congrArg Juncture.text there).symm.trans place_.symm
  · exact (congrArg Juncture.mode there).symm
  · exact (congrArg Juncture.scanner there).symm.trans last_.symm

omit represents knowsNoEnd progresses inside carries in
/-- What is taken over lies on the stack as what is built again does. -/
theorem Mirrors.stack_takeOver (mirrors : Mirrors input state other)
    (taken : state.current input = .ok (token, middle)) {named following : Lexeme}
    (extras : named.extras = token.extras) {subtree : Subtree} {cursor : Cursor}
    {other' middle' : ParseState} {token' : Lexeme} {here there : Juncture}
    (built : Built input.anew other token.extras here [(next, subtree.bare)] there other' token'
      middle' []) (under : here.state = state.topState)
    (contiguous : Contiguous (middle.afterTakeOver named subtree next following cursor).stack)
    (contiguous' : Contiguous other'.stack) :
    (middle.afterTakeOver named subtree next following cursor).stack.map StackEntry.bare =
      other'.stack.map StackEntry.bare := by
  have stack := (current_ok taken).1
  obtain ⟨above, shape, profiles⟩ := middle.exists_stack_push_token named next subtree
  obtain ⟨above', shape', profiles'⟩ := built.stack
  change (middle.afterTakeOver named subtree next following cursor).stack = _ at shape
  have top : middle.topState = here.state := by rw [under, topState, stack]; rfl
  refine map_bare_eq_of_profile contiguous contiguous' ?_
  have low : middle.stack.map profile = other.stack.map profile := by
    have same := congrArg (List.map fun entry : StackEntry => (entry.state, entry.subtree))
      (bare_eq_iff.mp mirrors.same).stack
    rw [List.map_map, List.map_map] at same
    rw [stack]
    exact same
  have high : above.map profile = above'.map profile := by
    refine List.reverse_injective ?_
    rw [← List.map_reverse, ← List.map_reverse, profiles, top, extras]
    rw [passedItems, List.map_nil, List.append_nil] at profiles'
    exact profiles'.symm
  rw [shape, shape', List.map_append, List.map_append, low, high]

omit represents carries in
/-- A parse that takes a subtree over comes to the state of one that builds it again. -/
theorem Mirrors.bare_takeOver (mirrors : Mirrors input state other)
    (taken : state.current input = .ok (token, middle)) {named following : Lexeme}
    (extras : named.extras = token.extras) (alone : middle.pending = []) {subtree : Subtree}
    {place cursor : Cursor} {symbol : SymbolId} {mode : ValidExternals} {scanner : ScannerState}
    (read : lex input.language place mode scanner = .ok (following, cursor))
    {other' middle' : ParseState} {token' : Lexeme} {here there : Juncture}
    (built : Built input.anew other token.extras here [(next, subtree.bare)] there other' token'
      middle' []) (under : here.state = state.topState) (text : there.text = place.rest)
    (mode_ : there.mode = mode) (scanner_ : there.scanner = scanner)
    (waits : other'.lookahead = some token') (symbol_ : token'.symbol = some symbol)
    (placed : (middle.afterTakeOver named subtree next { following with symbol := some symbol }
      cursor).Placed input) (placed' : other'.Placed input.anew) :
    (middle.afterTakeOver named subtree next { following with symbol := some symbol }
      cursor).bare = other'.bare := by
  have knowsNoEnd' : input.anew.language.lexer.KnowsNoEnd := knowsNoEnd
  have inside' : input.anew.language.scanner.StaysInside := inside
  have entries := mirrors.stack_takeOver taken extras built under placed.contiguous placed'.contiguous
  have total := congrArg totalLength entries
  rw [totalLength_map_bare, totalLength_map_bare] at total
  have later : { other' with lookahead := none } = middle' := (Prod.mk.inj (Except.ok.inj
    ((current_of_lookahead waits).symm.trans built.stands.current))).2
  subst later
  -- both read the same lexeme behind the subtree
  obtain ⟨more, shape, again⟩ := built.stands.reads
  obtain rfl : token'.extras = more := shape
  rw [mode_, text, scanner_] at again
  obtain ⟨core, rest⟩ := (reads_of_lex read).unique progresses again
  have core : following.core = token'.core := core
  have inPlace := (placed.current knowsNoEnd inside (current_of_lookahead rfl) (some symbol)).atHand
  have inPlace' :=
    (placed'.current knowsNoEnd' inside' built.stands.current token'.symbol).atHand
  obtain ⟨passed, passes, _⟩ := placed.text
  obtain ⟨passed', passes', _⟩ := placed'.text
  have frame := middle.sameBut_push_token named next subtree
  refine bare_eq_iff.mpr ⟨entries, ?_, ?_, ?_, ?_, ?_⟩
  · rw [waits]
    refine congrArg some (loose_eq_of_core core ?_ ?_ ?_ symbol_.symm)
    · exact inPlace.start.trans (total.trans inPlace'.start.symm)
    · have extras_ := congrArg Lexeme.extras core
      refine inPlace.tokenStart.trans (Eq.trans ?_ inPlace'.tokenStart.symm)
      exact congrArg₂ (· + ·) total (congrArg (fun leaves => (Lalr.widths leaves).sum) extras_)
    · exact (congrArg Lexeme.fresh (asRead_of_lex knowsNoEnd read)).symm.trans
        built.stands.fresh.symm
  · have alone' : other'.pending = [] := built.stands.alone
    rw [alone']
    exact congrArg _ (frame.pending.trans alone)
  · have ends := passes.end_eq.trans passes'.end_eq.symm
    have rest : cursor.rest = other'.cursor.rest := rest
    change cursor.offset + utf8Length cursor.rest = _ at ends
    rw [rest] at ends
    exact congrArg₂ Cursor.mk (Nat.add_right_cancel ends) rest
  · have scannerAfter := congrArg Lexeme.scannerAfter core
    exact scannerAfter.trans built.stands.scanner.symm
  · have inserted : middle.missingInsertedAt = state.missingInsertedAt :=
      missingInsertedAt_current taken
    rw [built.missingInsertedAt, ← (bare_eq_iff.mp mirrors.same).missingInsertedAt, ← inserted]
    exact frame.missingInsertedAt

omit represents progresses carries in
theorem Mirrors.locates_takeOver (mirrors : Mirrors input state other)
    (taken : state.current input = .ok (token, middle)) {named following : Lexeme}
    (named_ : named = { token with symbol := some (state.symbolOf input token) })
    {subtree : Subtree} (cursor : Cursor)
    (located : subtree.Located (Subtree.SeesBehind input.text) token.tokenStart) :
    (middle.afterTakeOver named subtree next following cursor).Locates
      (Subtree.SeesBehind input.text) := by
  have held := mirrors.placed.current knowsNoEnd inside taken (some (state.symbolOf input token))
  rw [← named_] at held
  have locates : middle.Locates (Subtree.SeesBehind input.text) :=
    mirrors.locates.of_stack (current_ok taken).1
  have start : totalLength (middle.pushExtras middle.topState named).stack = token.tokenStart := by
    have stands : named.tokenStart = totalLength middle.stack + (Lalr.widths named.extras).sum :=
      held.atHand.tokenStart
    rw [← lengths_forest, forest_pushExtras, Subtree.lengths_append, lengths_forest,
      Subtree.lengths_eq_sum, Subtree.leavesOf_map_leaf, ← stands, named_]
  have pushed := (locates.pushExtras middle.topState named).push next (start ▸ located)
  exact pushed.of_stack rfl

/-- Where a parse takes over a subtree, the parse without the old tree takes some steps. -/
theorem Mirrors.takeOver (mirrors : Mirrors input state other)
    (offered : ∀ candidate ∈ input.reuse, candidate.Offered input.language input.text)
    (taken : state.current input = .ok (token, middle))
    (takes : TakesOver input middle (state.symbolOf input token)
      { token with symbol := some (state.symbolOf input token) } after) :
    ∃ other', Relation.TransGen (fun before after => before.step input.anew = .ok (.next after))
        other other' ∧ Mirrors input after other' := by
  have held := mirrors.placed.current knowsNoEnd inside taken (some (state.symbolOf input token))
  have placed := held.takeOver knowsNoEnd inside (fun _ listed => (offered _ listed).standsIn) takes
  cases takes with
  | @behind candidate lookahead last next place cursor following tries found read raw =>
      obtain ⟨other', token', middle', here, there, leads, waits, symbol, built, under, text, mode,
        scanner⟩ := mirrors.exists_built represents knowsNoEnd progresses inside carries taken tries
          (offered _ tries.listed) found read raw
      have reaches := ParseState.Leads.reaches leads.to_reflTransGen mirrors.reaches
      have placed' := reaches.placed (show input.anew.language.lexer.KnowsNoEnd from knowsNoEnd)
        (show input.anew.language.scanner.StaysInside from inside) nofun
      refine ⟨other', leads, ?_, reaches, placed, ?_, ?_⟩
      · exact mirrors.bare_takeOver knowsNoEnd progresses inside taken rfl tries.alone read built
          under text mode scanner waits symbol placed placed'
      · obtain ⟨_, _, _, _, _, _, _, offset, _, _, _, located⟩ := (offered _ tries.listed).place
        rw [tries.front_eq (offered _ tries.listed).reusable offset] at located
        exact mirrors.locates_takeOver knowsNoEnd inside taken rfl cursor located
      · have examined := examined_of_lexFrom read
        have pending : (middle.afterTakeOver { token with symbol := some (state.symbolOf input token) }
            candidate.subtree next { following with symbol := some lookahead.symbol } cursor).pending =
              [] :=
          (middle.sameBut_push_token _ next candidate.subtree).pending.trans tries.alone
        rw [queue, pending, List.append_nil]
        rintro lexeme member
        obtain rfl := List.mem_singleton.mp member
        exact examined

omit carries in
/-- A step that makes no use of the old tree is taken by both parses. -/
theorem Mirrors.step_anew (mirrors : Mirrors input state other)
    (offered : ∀ candidate ∈ input.reuse, candidate.Offered input.language input.text)
    (anew : state.step input = state.step input.anew)
    (stepped : state.step input = .ok (.next after)) :
    ∃ other', other.step input.anew = .ok (.next other') ∧ Mirrors input after other' := by
  have knowsNoEnd' : input.anew.language.lexer.KnowsNoEnd := knowsNoEnd
  have placed := mirrors.placed.step knowsNoEnd inside
    (fun _ listed => (offered _ listed).standsIn) stepped
  rw [anew] at stepped
  obtain ⟨outcome, stepped', same⟩ := exists_step_of_bare_eq rfl mirrors.same stepped
  cases outcome with
  | done root stats => cases same
  | next other' =>
      obtain ⟨token, middle, taken, effect⟩ := effect_of_step rfl stepped
      have taken : state.current input = .ok (token, middle) := taken
      obtain ⟨token', middle', taken', alike, _⟩ := exists_current_of_bare_eq mirrors.same taken
      obtain ⟨stack, idle, _, _⟩ := current_ok taken
      have held := mirrors.placed.current knowsNoEnd inside taken (some (state.symbolOf input token))
      have examined := examined_current mirrors.examined taken
      obtain ⟨tokenExamined, waiting⟩ := List.forall_mem_cons.mp examined
      have locates : middle.Locates (Subtree.SeesBehind input.anew.text) :=
        mirrors.locates.of_stack stack
      refine ⟨other', stepped', ParseStep.next.inj same, mirrors.reaches.step stepped', placed, ?_, ?_⟩
      · refine @Locates.seesBehind_effect input.anew _ _ _ knowsNoEnd
          progresses locates held.stack ?_ ?_ _ _ effect
        · exact tokenExamined
        · intro present
          have missing := congrArg Lexeme.missing alike
          have readIn := mirrors.reaches.readIn knowsNoEnd'
            (show input.anew.language.tables.Represents grammar from represents)
            (show input.anew.language.scanner.StaysInside from inside) rfl taken'
            (missing.symm.trans present)
          exact readIn.of_loose alike _
      · refine examined_effect idle ?_ effect
        exact List.forall_mem_cons.mpr ⟨tokenExamined, waiting⟩

theorem Mirrors.step (mirrors : Mirrors input state other)
    (offered : ∀ candidate ∈ input.reuse, candidate.Offered input.language input.text)
    (stepped : state.step input = .ok (.next after)) :
    ∃ other', Relation.TransGen (fun before after => before.step input.anew = .ok (.next after))
        other other' ∧ Mirrors input after other' := by
  rcases step_cases input state with
    anew | ⟨token, middle, next, taken, _, ⟨after', taken', takes⟩ | ⟨_, _, _, _, _, failed, _⟩⟩
  · obtain ⟨other', stepped', mirrors'⟩ :=
      mirrors.step_anew represents knowsNoEnd progresses inside offered anew stepped
    exact ⟨other', .single stepped', mirrors'⟩
  · obtain rfl := ParseStep.next.inj (Except.ok.inj (taken'.symm.trans stepped))
    exact mirrors.takeOver represents knowsNoEnd progresses inside carries offered taken takes
  · cases failed.symm.trans stepped

omit knowsNoEnd progresses inside carries in
/-- Both parses end with the same tree, but for margins. -/
theorem Mirrors.done (mirrors : Mirrors input state other) {root : Subtree} {stats : ParseStats}
    (stepped : state.step input = .ok (.done root stats)) :
    ∃ root' stats', other.step input.anew = .ok (.done root' stats') ∧ root.bare = root'.bare ∧
      root.Located (Subtree.SeesBehind input.text) 0 := by
  have anew : state.step input = state.step input.anew := by
    rcases step_cases input state with
      anew | ⟨token, middle, next, taken, _, ⟨after', taken', takes⟩ | ⟨_, _, _, _, _, failed, _⟩⟩
    · exact anew
    · cases taken'.symm.trans stepped
    · cases failed.symm.trans stepped
  obtain ⟨outcome, stepped', same⟩ :=
    exists_step_of_bare_eq (show input.anew.reuse = [] from rfl) mirrors.same
      (anew.symm.trans stepped)
  cases outcome with
  | next other' => cases same
  | done root' stats' =>
      refine ⟨root', stats', stepped', (ParseStep.done.inj same).1, ?_⟩
      obtain ⟨token, middle, taken, outcome⟩ := done_cases stepped
      obtain ⟨stack, _, _, _⟩ := current_ok taken
      have locates : middle.Locates (Subtree.SeesBehind input.text) := mirrors.locates.of_stack stack
      rcases outcome with ⟨action, rfl⟩ | ⟨_, _, _, rfl⟩
      · refine locates.accept _ fun entry member isStructural => ?_
        have sound := mirrors.reaches.sound
          (show input.anew.language.tables.Represents grammar from represents) rfl rfl
        rw [topState_congr mirrors.same] at action
        rw [stack] at member
        have listed := List.mem_map_of_mem (f := StackEntry.bare) member
        rw [(bare_eq_iff.mp mirrors.same).stack] at listed
        obtain ⟨entry', member', same⟩ := List.mem_map.mp listed
        have isStructural' : entry'.isExtra = false := by
          rw [← StackEntry.isExtra_bare, same, StackEntry.isExtra_bare, isStructural]
        obtain ⟨head, children, node⟩ := sound.isNode_of_accept
          (show input.anew.language.tables.Represents grammar from represents) action member'
          isStructural'
        have subtree : entry.subtree.bare = .node head.bare (Subtree.bares children) := by
          have same := congrArg StackEntry.subtree same
          rw [subtree_bare, subtree_bare, node, Subtree.bare] at same
          exact same.symm
        obtain ⟨head', children', shape, _⟩ := Subtree.bare_eq_node subtree
        exact ⟨head', children', shape⟩
      · exact locates.wrapAll _

omit represents inside carries in
theorem Mirrors.error (fits : input.language.scanner.Fits) (mirrors : Mirrors input state other)
    (offered : ∀ candidate ∈ input.reuse, candidate.Offered input.language input.text)
    {fault : Fault} (stepped : state.step input = .error fault) :
    ∃ fault', other.step input.anew = .error fault' := by
  rcases step_cases input state with
    anew | ⟨token, middle, next, taken, _, ⟨after', taken', takes⟩ |
      ⟨_, candidate, lookahead, last, next', _, tries, fails⟩⟩
  · have both := step_congr (show input.anew.reuse = [] from rfl) mirrors.same
    rw [← anew, stepped] at both
    cases other_ : other.step input.anew with
    | error fault' => exact ⟨fault', rfl⟩
    | ok outcome =>
        rw [other_] at both
        cases both
  · cases taken'.symm.trans stepped
  · -- the subtree ends in the text, and reading goes on there
    obtain ⟨front, piece, behind, here, there, leads, text, offset, split, builds, _⟩ :=
      (offered _ tries.listed).place
    have found : Cursor.at? input.text (token.tokenStart + candidate.subtree.length) =
        some ⟨utf8Length (front ++ piece), behind⟩ := by
      rw [← tries.front_eq (offered _ tries.listed).reusable offset, Subtree.length_eq_sum,
        ← (builds.cutInto_leaves split).sum_eq, ← utf8Length_append, text, ← List.append_assoc,
        Cursor.at?_append]
    simp only [FailsBehind, found] at fails
    rcases lex_progress knowsNoEnd progresses ⟨utf8Length (front ++ piece), behind⟩ lookahead.mode
      last.scannerAfter with ⟨lexeme, after, read, _⟩ | ⟨_, _, _, unfit⟩
    · cases fails.symm.trans read
    · exact absurd fits unfit

/-- A parse with an old tree comes to an end within the steps of a parse without one, and to the
same tree but for margins. -/
theorem Mirrors.exists_run (fits : input.language.scanner.Fits)
    (offered : ∀ candidate ∈ input.reuse, candidate.Offered input.language input.text) {limit : Nat}
    {root' : Subtree} {stats' : ParseStats} (mirrors : Mirrors input state other)
    (ran : runSteps input.anew limit other = .ok (root', stats')) :
    ∃ root stats, runSteps input limit state = .ok (root, stats) ∧ root.bare = root'.bare := by
  -- on the steps of the parse without the old tree, of which one step of the other may take several
  induction limit using Nat.strong_induction_on generalizing state other with
  | h limit ih =>
      cases limit with
      | zero => cases ran
      | succ limit =>
          cases stepped : state.step input with
          | error fault =>
              obtain ⟨fault', failed⟩ :=
                mirrors.error knowsNoEnd progresses fits offered stepped
              rw [runSteps, failed] at ran
              cases ran
          | ok outcome =>
              cases outcome with
              | done root stats =>
                  obtain ⟨root'', stats'', stepped', same, _⟩ := mirrors.done represents stepped
                  rw [runSteps, stepped'] at ran
                  cases ran
                  exact ⟨root, stats, by rw [runSteps, stepped], same⟩
              | next after =>
                  obtain ⟨other', leads, mirrors'⟩ :=
                    mirrors.step represents knowsNoEnd progresses inside carries offered stepped
                  obtain ⟨less, fewer, ran'⟩ := exists_runSteps_of_leads leads ran
                  obtain ⟨root, stats, again, same⟩ := ih less fewer mirrors' ran'
                  refine ⟨root, stats, ?_, same⟩
                  rw [runSteps, stepped]
                  exact runSteps_of_le (Nat.le_of_lt_succ fewer) again

/-- Where a parse with an old tree comes to an end, so does a parse without one, and to the same
tree but for margins. -/
theorem Mirrors.exists_run_anew
    (offered : ∀ candidate ∈ input.reuse, candidate.Offered input.language input.text) {limit : Nat}
    {root : Subtree} {stats : ParseStats} (mirrors : Mirrors input state other)
    (ran : runSteps input limit state = .ok (root, stats)) :
    ∃ limit' root' stats', runSteps input.anew limit' other = .ok (root', stats') ∧
      root.bare = root'.bare ∧ root.Located (Subtree.SeesBehind input.text) 0 := by
  induction limit generalizing state other with
  | zero => cases ran
  | succ limit ih =>
      cases stepped : state.step input with
      | error fault =>
          rw [runSteps, stepped] at ran
          cases ran
      | ok outcome =>
          rw [runSteps, stepped] at ran
          cases outcome with
          | done root' stats' =>
              cases ran
              obtain ⟨root', stats', stepped', same, located⟩ := mirrors.done represents stepped
              exact ⟨1, root', stats', by rw [runSteps, stepped'], same, located⟩
          | next after =>
              obtain ⟨other', leads, mirrors'⟩ :=
                mirrors.step represents knowsNoEnd progresses inside carries offered stepped
              obtain ⟨limit', root', stats', again, same, located⟩ := ih mirrors' ran
              obtain ⟨more, ran'⟩ := exists_limit_of_leads leads again
              exact ⟨more, root', stats', ran', same, located⟩

end running

end ParseState

end Lalr
