import Lalr.Proofs.FlatGrammar.Transcription
import Lalr.Proofs.Operators.Ladder

set_option autoImplicit false

/-!
Ladders as they are written. Whether the operations of a grammar climb a ladder can be seen from
its rules, without flattening it.
-/

namespace Lalr

/-- Whether a symbol is a terminal. -/
def WrittenSymbol.isTerminal : WrittenSymbol → Bool
  | .terminal _ => true
  | _ => false

/-- Whether a symbol is a rule. -/
def WrittenSymbol.isRule : WrittenSymbol → Bool
  | .rule _ => true
  | _ => false

/-- The symbols of a production that stand side by side. -/
def WrittenProduction.neighbours (production : WrittenProduction) :
    List (WrittenSymbol × WrittenSymbol) :=
  production.symbols.zip production.symbols.tail

namespace Grammar

/-- Whether all that a symbol stands for starts with a terminal, as can be seen at once: the symbol
is a terminal or repeats what starts with one. -/
def opensWithTerminal (source : Grammar) : WrittenSymbol → Bool
  | .terminal _ => true
  | .rule _ => false
  | .repetition content => (source.written content).all fun steps =>
      steps.head?.any fun step => step.symbol.isTerminal

/-- The rules of the operations of a grammar climb a ladder: they carry the levels of their
operators, and nothing else in the grammar can be taken for an operation. -/
structure Climbs (source : Grammar) (ladder : Ladder WrittenSymbol) : Prop where
  start : ∀ name ∈ source.startRule?, ladder.binary ≠ .rule name ∧ ladder.unary ≠ .rule name
  rules : ∀ symbol ∈ [ladder.expression, ladder.binary, ladder.unary], symbol.isRule = true
  terminals : ∀ operator ∈ ladder.binaries ++ ladder.unaries, operator.1.isTerminal = true
  /-- Every binary operation has the level of its operator and groups to the left. -/
  binary : ∀ production ∈ source.writtenProductions, production.lhs = ladder.binary →
    ∃ operator ∈ ladder.binaries,
      production.symbols = [ladder.expression, operator.1, ladder.expression] ∧
        ∀ step ∈ production.steps,
          step.precedence = some operator.2 ∧ step.associativity = some .left
  /-- Every unary operation has the level of its operator. -/
  unary : ∀ production ∈ source.writtenProductions, production.lhs = ladder.unary →
    ∃ operator ∈ ladder.unaries, production.symbols = [operator.1, ladder.expression] ∧
      ∀ step ∈ production.steps, step.precedence = some operator.2
  /-- An expression is one of several things, without marks of its own. -/
  wraps : ∀ production ∈ source.writtenProductions, production.lhs = ladder.expression →
    production.symbols.length = 1
  wraps_binary : ∃ production ∈ source.writtenProductions,
    production.lhs = ladder.expression ∧ production.symbols = [ladder.binary]
  wraps_unary : ∃ production ∈ source.writtenProductions,
    production.lhs = ladder.expression ∧ production.symbols = [ladder.unary]
  known : ∀ operator ∈ ladder.binaries, ∃ production ∈ source.writtenProductions,
    production.lhs = ladder.binary ∧
      production.symbols = [ladder.expression, operator.1, ladder.expression]
  known_unary : ∀ operator ∈ ladder.unaries, ∃ production ∈ source.writtenProductions,
    production.lhs = ladder.unary ∧ production.symbols = [operator.1, ladder.expression]
  /-- Only in its own rule does a binary operator stand behind an expression. -/
  behind : ∀ production ∈ source.writtenProductions, ∀ pair ∈ production.neighbours,
    pair.1 = ladder.expression → ∀ operator ∈ ladder.binaries, pair.2 = operator.1 →
      production.lhs = ladder.binary
  /-- No operation can follow an expression. -/
  apart : ∀ production ∈ source.writtenProductions, ∀ pair ∈ production.neighbours,
    pair.1 = ladder.expression → source.opensWithTerminal pair.2 = true
  /-- Unary operators stand in operations only. -/
  elsewhere : ∀ production ∈ source.writtenProductions, ∀ operator ∈ ladder.unaries,
    operator.1 ∈ production.symbols →
      production.lhs = ladder.binary ∨ production.lhs = ladder.unary
  level : ∀ first ∈ ladder.binaries, ∀ second ∈ ladder.binaries, first.1 = second.1 →
    first.2 = second.2
  level_unary : ∀ first ∈ ladder.unaries, ∀ second ∈ ladder.unaries, first.1 = second.1 →
    first.2 = second.2
  distinct : ∀ first ∈ ladder.unaries, ∀ second ∈ ladder.binaries, first.2 ≠ second.2

instance (source : Grammar) (ladder : Ladder WrittenSymbol) : Decidable (source.Climbs ladder) :=
  decidable_of_iff
    ((∀ name ∈ source.startRule?, ladder.binary ≠ .rule name ∧ ladder.unary ≠ .rule name) ∧
      (∀ symbol ∈ [ladder.expression, ladder.binary, ladder.unary], symbol.isRule = true) ∧
      (∀ operator ∈ ladder.binaries ++ ladder.unaries, operator.1.isTerminal = true) ∧
      (∀ production ∈ source.writtenProductions, production.lhs = ladder.binary →
        ∃ operator ∈ ladder.binaries,
          production.symbols = [ladder.expression, operator.1, ladder.expression] ∧
            ∀ step ∈ production.steps,
              step.precedence = some operator.2 ∧ step.associativity = some .left) ∧
      (∀ production ∈ source.writtenProductions, production.lhs = ladder.unary →
        ∃ operator ∈ ladder.unaries, production.symbols = [operator.1, ladder.expression] ∧
          ∀ step ∈ production.steps, step.precedence = some operator.2) ∧
      (∀ production ∈ source.writtenProductions, production.lhs = ladder.expression →
        production.symbols.length = 1) ∧
      (∃ production ∈ source.writtenProductions,
        production.lhs = ladder.expression ∧ production.symbols = [ladder.binary]) ∧
      (∃ production ∈ source.writtenProductions,
        production.lhs = ladder.expression ∧ production.symbols = [ladder.unary]) ∧
      (∀ operator ∈ ladder.binaries, ∃ production ∈ source.writtenProductions,
        production.lhs = ladder.binary ∧
          production.symbols = [ladder.expression, operator.1, ladder.expression]) ∧
      (∀ operator ∈ ladder.unaries, ∃ production ∈ source.writtenProductions,
        production.lhs = ladder.unary ∧
          production.symbols = [operator.1, ladder.expression]) ∧
      (∀ production ∈ source.writtenProductions, ∀ pair ∈ production.neighbours,
        pair.1 = ladder.expression → ∀ operator ∈ ladder.binaries, pair.2 = operator.1 →
          production.lhs = ladder.binary) ∧
      (∀ production ∈ source.writtenProductions, ∀ pair ∈ production.neighbours,
        pair.1 = ladder.expression → source.opensWithTerminal pair.2 = true) ∧
      (∀ production ∈ source.writtenProductions, ∀ operator ∈ ladder.unaries,
        operator.1 ∈ production.symbols →
          production.lhs = ladder.binary ∨ production.lhs = ladder.unary) ∧
      (∀ first ∈ ladder.binaries, ∀ second ∈ ladder.binaries, first.1 = second.1 →
        first.2 = second.2) ∧
      (∀ first ∈ ladder.unaries, ∀ second ∈ ladder.unaries, first.1 = second.1 →
        first.2 = second.2) ∧
      ∀ first ∈ ladder.unaries, ∀ second ∈ ladder.binaries, first.2 ≠ second.2)
    ⟨fun ⟨start, rules, terminals, binary, unary, wraps, wrapsBinary, wrapsUnary, known,
        knownUnary, behind, apart, elsewhere, level, levelUnary, distinct⟩ =>
      ⟨start, rules, terminals, binary, unary, wraps, wrapsBinary, wrapsUnary, known, knownUnary,
        behind, apart, elsewhere, level, levelUnary, distinct⟩,
    fun climbs => ⟨climbs.start, climbs.rules, climbs.terminals, climbs.binary, climbs.unary,
      climbs.wraps, climbs.wraps_binary, climbs.wraps_unary, climbs.known, climbs.known_unary,
      climbs.behind, climbs.apart, climbs.elsewhere, climbs.level, climbs.level_unary,
      climbs.distinct⟩⟩

end Grammar

/-- The ladder of a flat grammar, whose symbols have numbers. -/
structure Ladder.NumberedBy {σ τ : Type} (number? : σ → Option τ) (ladder : Ladder σ)
    (numbers : Ladder τ) : Prop where
  expression : number? ladder.expression = some numbers.expression
  binary : number? ladder.binary = some numbers.binary
  unary : number? ladder.unary = some numbers.unary
  binaries : List.Forall₂ (fun operator other =>
    number? operator.1 = some other.1 ∧ operator.2 = other.2) ladder.binaries numbers.binaries
  unaries : List.Forall₂ (fun operator other =>
    number? operator.1 = some other.1 ∧ operator.2 = other.2) ladder.unaries numbers.unaries

namespace Grammar

variable {source : Grammar} {grammar : FlatGrammar} {ladder : Ladder WrittenSymbol}
  {numbers : Ladder Nat}

theorem showsAll_of_showsSteps {steps : List Step} {written : List WrittenStep}
    (each : List.Forall₂ source.ShowsStep steps written) :
    List.Forall₂ source.Shows (steps.map Step.symbol) (written.map WrittenStep.symbol) :=
  List.rel_map (fun _ _ here => here.symbol) each

theorem exists_shown_of_mem (flattened : FlatGrammar.ofGrammar source = .ok grammar)
    {production : Production} (member : production ∈ grammar.productions) :
    ∃ entry ∈ source.writtenProductions, source.Shows production.lhs entry.lhs ∧
      List.Forall₂ source.Shows production.rhs entry.symbols ∧
      List.Forall₂ source.ShowsStep production.steps entry.steps := by
  obtain ⟨entry, listed, left, each⟩ := exists_written_of_mem flattened member
  exact ⟨entry, listed, left, showsAll_of_showsSteps each, each⟩

theorem exists_mem_of_shows (flattened : FlatGrammar.ofGrammar source = .ok grammar)
    {production : WrittenProduction} (written : production ∈ source.writtenProductions)
    (isRule : production.lhs.isRule = true) :
    ∃ flat ∈ grammar.productions, source.Shows flat.lhs production.lhs ∧
      List.Forall₂ source.Shows flat.rhs production.symbols := by
  obtain ⟨lhs, steps⟩ := production
  cases lhs with
  | rule name =>
      obtain ⟨flat, member, lhs, each⟩ := exists_mem_of_written flattened written
      exact ⟨flat, member, lhs, showsAll_of_showsSteps each⟩
  | terminal | repetition => cases isRule

/-! ## What stands behind an expression -/

/-- A production of what opens with a terminal starts with such a symbol again. -/
theorem exists_head_of_opens (flattened : FlatGrammar.ofGrammar source = .ok grammar)
    {production : Production} (member : production ∈ grammar.productions) {symbol : WrittenSymbol}
    (here : source.Shows production.lhs symbol) (opens : source.opensWithTerminal symbol = true) :
    ∃ next written, source.Shows next written ∧ production.rhs.head? = some next ∧
      source.opensWithTerminal written = true := by
  obtain ⟨⟨lhs, steps⟩, listed, left, each⟩ := exists_written_of_mem flattened member
  obtain rfl := here.unique left
  have leads : ∃ step, steps.head? = some step ∧ source.opensWithTerminal step.symbol = true := by
    rcases mem_writtenProductions_iff.mp listed with ⟨_, _, rfl, _⟩ | ⟨content, rfl, _, sequence⟩
    · cases opens
    · rcases List.mem_append.mp sequence with again | once
      · obtain ⟨others, _, rfl⟩ := List.mem_map.mp again
        exact ⟨_, rfl, opens⟩
      · have first := List.all_eq_true.mp opens steps once
        cases steps with
        | nil => cases first
        | cons step others =>
            refine ⟨step, rfl, ?_⟩
            cases known : step.symbol with
            | terminal key => rfl
            | rule | repetition => simp [known, WrittenSymbol.isTerminal] at first
  obtain ⟨step, first, opens⟩ := leads
  obtain ⟨others, rfl⟩ := List.head?_eq_some_iff.mp first
  obtain ⟨head, _, reads, _, shape⟩ := List.forall₂_cons_right_iff.mp each
  exact ⟨head.symbol, step.symbol, reads.symbol, by simp [Production.rhs, shape], opens⟩

/-- What opens with a terminal never stands for nothing. -/
theorem not_nullable_of_opens (flattened : FlatGrammar.ofGrammar source = .ok grammar)
    {symbols word : List Nat} (yields : grammar.Yields symbols word) {first : Nat}
    (leads : symbols.head? = some first) {symbol : WrittenSymbol} (here : source.Shows first symbol)
    (opens : source.opensWithTerminal symbol = true) : word ≠ [] := by
  induction yields generalizing first symbol with
  | nil => cases leads
  | terminal => exact List.cons_ne_nil _ _
  | @production production symbols front word member _ _ inner _ =>
      obtain rfl := Option.some.inj leads
      obtain ⟨next, written, named, first, opens⟩ := exists_head_of_opens flattened member here opens
      exact fun empty => inner first named opens (List.append_eq_nil_iff.mp empty).1

/-- Nothing starts with a rule that opens with a terminal. -/
theorem not_startsWith_of_opens (flattened : FlatGrammar.ofGrammar source = .ok grammar)
    {number rule : Nat} {symbol : WrittenSymbol} (here : source.Shows number symbol)
    (opens : source.opensWithTerminal symbol = true) {name : String}
    (isRule : source.Shows rule (.rule name)) : ¬ grammar.StartsWith number rule := by
  intro starts
  induction starts using Relation.ReflTransGen.head_induction_on generalizing symbol with
  | refl =>
      obtain rfl := here.unique isRule
      cases opens
  | head leads _ ih =>
      obtain ⟨before, nullable, production, member, rest, rfl, rhs⟩ := leads
      obtain ⟨next, written, named, first, opens⟩ := exists_head_of_opens flattened member here opens
      cases before with
      | nil =>
          rw [rhs] at first
          obtain rfl := Option.some.inj first
          exact ih named opens
      | cons other before =>
          rw [rhs] at first
          exact not_nullable_of_opens flattened nullable first named opens rfl

/-! ## Flattening -/

/-- The symbols that the numbers of a production stand for have these numbers. -/
theorem eq_of_showsAll {rhs numbers : List Nat} {symbols : List WrittenSymbol}
    (each : List.Forall₂ source.Shows rhs symbols)
    (numbered : List.Forall₂ (fun symbol number => source.symbolNumber? symbol = some number)
      symbols numbers) : rhs = numbers := by
  induction each generalizing numbers with
  | nil =>
      cases numbered
      rfl
  | cons here _ ih =>
      cases numbered with
      | cons first rest => rw [here.eq first, ih rest]

theorem exists_neighbours {rhs : List Nat} {production : WrittenProduction}
    (each : List.Forall₂ source.Shows rhs production.symbols) {dot first second : Nat}
    (left : rhs[dot]? = some first) (right : rhs[dot + 1]? = some second) :
    ∃ pair ∈ production.neighbours, source.Shows first pair.1 ∧ source.Shows second pair.2 := by
  unfold WrittenProduction.neighbours
  generalize production.symbols = symbols at each
  induction each generalizing dot with
  | nil => cases left
  | @cons _ symbol rhs symbols here rest ih =>
      cases dot with
      | zero =>
          obtain rfl := Option.some.inj left
          cases rest with
          | nil => cases right
          | cons next _ =>
              obtain rfl := Option.some.inj right
              exact ⟨_, List.mem_cons_self, here, next⟩
      | succ dot =>
          obtain ⟨pair, listed, shown⟩ := ih left right
          cases rest with
          | nil => cases left
          | cons => exact ⟨pair, List.mem_cons_of_mem _ listed, shown⟩

namespace Climbs

variable (climbs : source.Climbs ladder) (flattened : FlatGrammar.ofGrammar source = .ok grammar)

include climbs

theorem settled {operator : WrittenSymbol × Int32}
    (listed : operator ∈ ladder.binaries ++ ladder.unaries) (content : Rule) :
    operator.1 ≠ .repetition content := by
  intro same
  have terminal := climbs.terminals operator listed
  rw [same] at terminal
  cases terminal

theorem settled_rule {symbol : WrittenSymbol}
    (listed : symbol ∈ [ladder.expression, ladder.binary, ladder.unary]) (content : Rule) :
    symbol ≠ .repetition content := by
  rintro rfl
  cases climbs.rules _ listed

include flattened

/-- All symbols of a ladder have numbers. -/
theorem exists_numbers : ∃ numbers, ladder.NumberedBy source.symbolNumber? numbers := by
  have isRule := climbs.rules
  simp only [List.forall_mem_cons] at isRule
  obtain ⟨isExpression, isBinary, isUnary, _⟩ := isRule
  have binaries : ∀ operator ∈ ladder.binaries, ∃ number,
      source.symbolNumber? operator.1 = some number := by
    intro operator listed
    obtain ⟨production, written, lhs, symbols⟩ := climbs.known operator listed
    obtain ⟨flat, _, _, each⟩ := exists_mem_of_shows flattened written (lhs ▸ isBinary)
    rw [symbols] at each
    obtain ⟨number, _, here⟩ := exists_of_mem_forall₂ each (List.mem_cons_of_mem _ List.mem_cons_self)
    exact ⟨number, (shows_iff (climbs.settled (List.mem_append_left _ listed))).mp here⟩
  have unaries : ∀ operator ∈ ladder.unaries, ∃ number,
      source.symbolNumber? operator.1 = some number := by
    intro operator listed
    obtain ⟨production, written, lhs, symbols⟩ := climbs.known_unary operator listed
    obtain ⟨flat, _, _, each⟩ := exists_mem_of_shows flattened written (lhs ▸ isUnary)
    rw [symbols] at each
    obtain ⟨number, _, here⟩ := exists_of_mem_forall₂ each List.mem_cons_self
    exact ⟨number, (shows_iff (climbs.settled (List.mem_append_right _ listed))).mp here⟩
  have wrapped : ∀ symbol ∈ [ladder.expression, ladder.binary, ladder.unary],
      (∃ production ∈ source.writtenProductions,
        production.lhs = ladder.expression ∧ production.symbols = [symbol]) →
      (∃ number, source.symbolNumber? ladder.expression = some number) ∧
        ∃ number, source.symbolNumber? symbol = some number := by
    rintro symbol listed ⟨production, written, lhs, symbols⟩
    obtain ⟨flat, _, left, each⟩ := exists_mem_of_shows flattened written (lhs ▸ isExpression)
    rw [symbols] at each
    obtain ⟨number, _, here⟩ := exists_of_mem_forall₂ each List.mem_cons_self
    exact ⟨⟨_, (shows_iff (climbs.settled_rule List.mem_cons_self)).mp (lhs ▸ left)⟩,
      number, (shows_iff (climbs.settled_rule listed)).mp here⟩
  obtain ⟨⟨expression, hasExpression⟩, binary, hasBinary⟩ :=
    wrapped ladder.binary (by simp) climbs.wraps_binary
  obtain ⟨_, unary, hasUnary⟩ := wrapped ladder.unary (by simp) climbs.wraps_unary
  let number (operator : WrittenSymbol × Int32) : Nat × Int32 :=
    ((source.symbolNumber? operator.1).getD 0, operator.2)
  refine ⟨⟨expression, binary, unary, ladder.binaries.map number, ladder.unaries.map number⟩,
    hasExpression, hasBinary, hasUnary, ?_, ?_⟩
  · refine List.forall₂_map_right_iff.mpr (List.forall₂_same.mpr fun operator listed => ?_)
    obtain ⟨found, has⟩ := binaries operator listed
    simp [number, has]
  · refine List.forall₂_map_right_iff.mpr (List.forall₂_same.mpr fun operator listed => ?_)
    obtain ⟨found, has⟩ := unaries operator listed
    simp [number, has]

variable (numbered : ladder.NumberedBy source.symbolNumber? numbers)

include numbered

omit climbs flattened in
theorem exists_operator {operator : Nat × Int32} (listed : operator ∈ numbers.binaries) :
    ∃ written ∈ ladder.binaries,
      source.symbolNumber? written.1 = some operator.1 ∧ written.2 = operator.2 :=
  exists_of_mem_forall₂ numbered.binaries listed

omit climbs flattened in
theorem exists_operator_unary {operator : Nat × Int32} (listed : operator ∈ numbers.unaries) :
    ∃ written ∈ ladder.unaries,
      source.symbolNumber? written.1 = some operator.1 ∧ written.2 = operator.2 :=
  exists_of_mem_forall₂ numbered.unaries listed

theorem binary_of_written {production : Production} (member : production ∈ grammar.productions)
    (same : production.lhs = numbers.binary) :
    ∃ operator ∈ numbers.binaries,
      production.rhs = [numbers.expression, operator.1, numbers.expression] ∧
        ∀ step ∈ production.steps,
          step.precedence = operator.2 ∧ step.associativity = some .left := by
  obtain ⟨entry, listed, left, shown, each⟩ := exists_shown_of_mem flattened member
  have isBinary := left.unique (same ▸ shows_of_symbolNumber? numbered.binary)
  obtain ⟨written, inBinaries, symbols, marks⟩ := climbs.binary entry listed isBinary
  obtain ⟨operator, otherListed, number, level⟩ :=
    exists_of_mem_forall₂ numbered.binaries.flip inBinaries
  rw [symbols] at shown
  refine ⟨operator, otherListed, eq_of_showsAll shown (.cons numbered.expression
    (.cons number (.cons numbered.expression .nil))), fun step inside => ?_⟩
  obtain ⟨mark, marked, here⟩ := exists_of_mem_forall₂ each.flip inside
  obtain ⟨precedence, associativity⟩ := marks mark marked
  exact ⟨by rw [here.precedence, precedence, level, Option.getD_some],
    here.associativity.trans associativity⟩

theorem unary_of_written {production : Production} (member : production ∈ grammar.productions)
    (same : production.lhs = numbers.unary) :
    ∃ operator ∈ numbers.unaries, production.rhs = [operator.1, numbers.expression] ∧
      ∀ step ∈ production.steps, step.precedence = operator.2 := by
  obtain ⟨entry, listed, left, shown, each⟩ := exists_shown_of_mem flattened member
  have isUnary := left.unique (same ▸ shows_of_symbolNumber? numbered.unary)
  obtain ⟨written, inUnaries, symbols, marks⟩ := climbs.unary entry listed isUnary
  obtain ⟨operator, otherListed, number, level⟩ :=
    exists_of_mem_forall₂ numbered.unaries.flip inUnaries
  rw [symbols] at shown
  refine ⟨operator, otherListed, eq_of_showsAll shown (.cons number
    (.cons numbered.expression .nil)), fun step inside => ?_⟩
  obtain ⟨mark, marked, here⟩ := exists_of_mem_forall₂ each.flip inside
  rw [here.precedence, marks mark marked, level, Option.getD_some]

omit climbs in
theorem exists_wrap {symbol : WrittenSymbol} {number : Nat} (isRule : ladder.expression.isRule = true)
    (named : source.symbolNumber? symbol = some number)
    (wraps : ∃ production ∈ source.writtenProductions,
      production.lhs = ladder.expression ∧ production.symbols = [symbol]) :
    ∃ production ∈ grammar.productions,
      production.lhs = numbers.expression ∧ production.rhs = [number] := by
  obtain ⟨production, written, lhs, symbols⟩ := wraps
  obtain ⟨flat, member, left, each⟩ := exists_mem_of_shows flattened written (lhs ▸ isRule)
  rw [symbols] at each
  exact ⟨flat, member, (lhs ▸ left).eq numbered.expression, eq_of_showsAll each (.cons named .nil)⟩

/-- Where the rules of a grammar climb a ladder, its flat productions do. -/
theorem climbs_of_written : grammar.Climbs numbers where
  binary _ := climbs.binary_of_written flattened numbered
  unary _ := climbs.unary_of_written flattened numbered
  wraps := by
    intro production member same
    obtain ⟨entry, listed, left, shown, _⟩ := exists_shown_of_mem flattened member
    have isExpression := left.unique (same ▸ shows_of_symbolNumber? numbered.expression)
    exact shown.length_eq.trans (climbs.wraps entry listed isExpression)
  wraps_binary := exists_wrap flattened numbered (climbs.rules _ (by simp)) numbered.binary
    climbs.wraps_binary
  wraps_unary := exists_wrap flattened numbered (climbs.rules _ (by simp)) numbered.unary
    climbs.wraps_unary
  terminals := by
    intro operator listed
    have written : ∃ written ∈ ladder.binaries ++ ladder.unaries,
        source.symbolNumber? written.1 = some operator.1 := by
      rcases List.mem_append.mp listed with isBinary | isUnary
      · obtain ⟨written, known, number, _⟩ := exists_operator numbered isBinary
        exact ⟨written, List.mem_append_left _ known, number⟩
      · obtain ⟨written, known, number, _⟩ := exists_operator_unary numbered isUnary
        exact ⟨written, List.mem_append_right _ known, number⟩
    obtain ⟨written, known, number⟩ := written
    have terminal := climbs.terminals written known
    have here := shows_of_symbolNumber? number
    cases shape : written.1 with
    | terminal key => exact Shows.lt_terminalCount flattened (shape ▸ here)
    | rule | repetition => simp [shape, WrittenSymbol.isTerminal] at terminal
  known := by
    intro operator listed
    obtain ⟨written, known, number, _⟩ := exists_operator numbered listed
    obtain ⟨production, inRules, lhs, symbols⟩ := climbs.known written known
    obtain ⟨flat, member, left, each⟩ := exists_mem_of_shows flattened inRules
      (lhs ▸ climbs.rules ladder.binary (by simp))
    rw [symbols] at each
    exact ⟨flat, member, (lhs ▸ left).eq numbered.binary, eq_of_showsAll each
      (.cons numbered.expression (.cons number (.cons numbered.expression .nil)))⟩
  behind := by
    intro production member dot first operator listed second
    obtain ⟨entry, inRules, left, shown, _⟩ := exists_shown_of_mem flattened member
    obtain ⟨written, known, number, _⟩ := exists_operator numbered listed
    obtain ⟨pair, inside, here, next⟩ := exists_neighbours shown first second
    have isBinary := climbs.behind entry inRules pair inside
      (here.unique (shows_of_symbolNumber? numbered.expression)) written known
      (next.unique (shows_of_symbolNumber? number))
    exact (isBinary ▸ left).eq numbered.binary
  apart := by
    intro production member dot next first second
    obtain ⟨entry, inRules, left, shown, _⟩ := exists_shown_of_mem flattened member
    obtain ⟨pair, inside, here, behind⟩ := exists_neighbours shown first second
    have opens := climbs.apart entry inRules pair inside
      (here.unique (shows_of_symbolNumber? numbered.expression))
    have isRule := climbs.rules ladder.unary (by simp)
    have operation := shows_of_symbolNumber? numbered.unary
    cases shape : ladder.unary with
    | rule name => exact not_startsWith_of_opens flattened behind opens (shape ▸ operation)
    | terminal | repetition => simp [shape, WrittenSymbol.isRule] at isRule
  elsewhere := by
    intro production member operator listed inside
    obtain ⟨entry, inRules, left, shown, _⟩ := exists_shown_of_mem flattened member
    obtain ⟨written, known, number, _⟩ := exists_operator_unary numbered listed
    obtain ⟨symbol, here, shows_symbol⟩ := exists_of_mem_forall₂ shown.flip inside
    have same : symbol = written.1 := Shows.unique shows_symbol (shows_of_symbolNumber? number)
    exact (climbs.elsewhere entry inRules written known (same ▸ here)).imp
      (fun isBinary => (isBinary ▸ left).eq numbered.binary)
      fun isUnary => (isUnary ▸ left).eq numbered.unary
  level := by
    intro first inFirst second inSecond same
    obtain ⟨one, listedOne, numberOne, levelOne⟩ := exists_operator numbered inFirst
    obtain ⟨other, listedOther, numberOther, levelOther⟩ := exists_operator numbered inSecond
    have equal := (shows_of_symbolNumber? numberOne).unique
      (same ▸ shows_of_symbolNumber? numberOther)
    rw [← levelOne, ← levelOther, climbs.level one listedOne other listedOther equal]
  level_unary := by
    intro first inFirst second inSecond same
    obtain ⟨one, listedOne, numberOne, levelOne⟩ := exists_operator_unary numbered inFirst
    obtain ⟨other, listedOther, numberOther, levelOther⟩ := exists_operator_unary numbered inSecond
    have equal := (shows_of_symbolNumber? numberOne).unique
      (same ▸ shows_of_symbolNumber? numberOther)
    rw [← levelOne, ← levelOther, climbs.level_unary one listedOne other listedOther equal]
  distinct := by
    intro first inFirst second inSecond
    obtain ⟨one, listedOne, _, levelOne⟩ := exists_operator_unary numbered inFirst
    obtain ⟨other, listedOther, _, levelOther⟩ := exists_operator numbered inSecond
    rw [← levelOne, ← levelOther]
    exact climbs.distinct one listedOne other listedOther

/-- The start symbol is no operation. -/
theorem start_ne : grammar.start ≠ numbers.binary ∧ grammar.start ≠ numbers.unary := by
  obtain ⟨name, first, here⟩ := shows_start flattened
  obtain ⟨notBinary, notUnary⟩ := climbs.start name first
  refine ⟨fun same => ?_, fun same => ?_⟩
  · rw [same] at here
    exact notBinary ((shows_of_symbolNumber? numbered.binary).unique here)
  · rw [same] at here
    exact notUnary ((shows_of_symbolNumber? numbered.unary).unique here)

end Climbs

end Grammar

end Lalr
