import Lalr.Proofs.FlatGrammar.Written

set_option autoImplicit false

/-!
Flat grammars as they were written. Every number stands for one symbol of the rules, and under
this reading the flat productions are the sequences that the rules write.
-/

namespace Lalr


namespace FlatDraft

variable {grammar : Grammar} {draft : FlatDraft}

/-- What a number stands for. -/
def Shows (grammar : Grammar) (draft : FlatDraft) (number : Nat) (symbol : WrittenSymbol) : Prop :=
  ∃ known, draft.symbol? grammar known = some symbol ∧ draft.symbolId grammar known = number

theorem eq_of_symbolId_eq_of_symbol? (sound : draft.Sound grammar) {first second : SymbolRef}
    {symbol other : WrittenSymbol} (named : draft.symbol? grammar first = some symbol)
    (otherNamed : draft.symbol? grammar second = some other)
    (same : draft.symbolId grammar first = draft.symbolId grammar second) : first = second := by
  have small : ∀ {index : Nat} {symbol : WrittenSymbol},
      draft.symbol? grammar (.terminal index) = some symbol →
        draft.terminalId grammar index < draft.terminalCount grammar := by
    intro index symbol named
    obtain ⟨key, placed, _⟩ := Option.map_eq_some_iff.mp named
    exact terminalId_lt sound (lt_length_terminals placed)
  have between : ∀ {index : Nat} {symbol : WrittenSymbol},
      draft.symbol? grammar (.rule index) = some symbol → index < grammar.syntacticRules.length := by
    intro index symbol named
    obtain ⟨name, placed, _⟩ := Option.map_eq_some_iff.mp named
    exact (List.getElem?_eq_some_iff.mp placed).1
  cases first with
  | terminal index =>
      have left := small named
      cases second with
      | terminal place =>
          obtain ⟨key, placed, _⟩ := Option.map_eq_some_iff.mp named
          rw [(terminalId_inj sound (lt_length_terminals placed)).mp same]
      | rule place =>
          simp only [symbolId] at same
          omega
      | repetition place =>
          simp only [symbolId] at same
          omega
  | rule index =>
      have left := between named
      cases second with
      | terminal place =>
          have right := small otherNamed
          simp only [symbolId] at same
          omega
      | rule place =>
          simp only [symbolId] at same
          exact congrArg SymbolRef.rule (by omega)
      | repetition place =>
          simp only [symbolId] at same
          omega
  | repetition index =>
      cases second with
      | terminal place =>
          have right := small otherNamed
          simp only [symbolId] at same
          omega
      | rule place =>
          have right := between otherNamed
          simp only [symbolId] at same
          omega
      | repetition place =>
          simp only [symbolId] at same
          exact congrArg SymbolRef.repetition (by omega)

theorem Shows.unique (sound : draft.Sound grammar) {number : Nat} {symbol other : WrittenSymbol}
    (first : draft.Shows grammar number symbol) (second : draft.Shows grammar number other) :
    symbol = other := by
  obtain ⟨known, named, rfl⟩ := first
  obtain ⟨place, otherNamed, same⟩ := second
  obtain rfl := eq_of_symbolId_eq_of_symbol? sound otherNamed named same
  exact Option.some.inj (named.symm.trans otherNamed)

theorem shows_terminal_iff (sound : draft.Sound grammar) {number : Nat} {key : TerminalKey} :
    draft.Shows grammar number (.terminal key) ↔
      draft.terminalNumber? grammar key = some number := by
  rw [terminalNumber?_eq_some_iff sound]
  constructor
  · rintro ⟨known, named, rfl⟩
    cases known with
    | terminal index =>
        obtain ⟨other, placed, same⟩ := Option.map_eq_some_iff.mp named
        obtain rfl := WrittenSymbol.terminal.inj same
        exact ⟨index, placed, rfl⟩
    | rule | repetition =>
        obtain ⟨_, _, same⟩ := Option.map_eq_some_iff.mp named
        cases same
  · rintro ⟨index, placed, rfl⟩
    exact ⟨.terminal index, by simp only [symbol?, placed, Option.map_some], rfl⟩

theorem shows_rule_iff {number : Nat} {name : String} :
    draft.Shows grammar number (.rule name) ↔
      (grammar.syntacticRules.idxOf? name).map (draft.terminalCount grammar + ·) =
        some number := by
  have placed (index : Nat) : grammar.syntacticRules.idxOf? name = some index ↔
      grammar.syntacticRules[index]? = some name := by
    rw [Grammar.idxOf?_syntacticRules_iff]
    simp [Grammar.syntacticRules, Grammar.syntacticEntries, List.getElem?_map]
  simp only [Option.map_eq_some_iff, placed]
  constructor
  · rintro ⟨known, named, rfl⟩
    cases known with
    | rule index =>
        obtain ⟨other, found, same⟩ := Option.map_eq_some_iff.mp named
        obtain rfl := WrittenSymbol.rule.inj same
        exact ⟨index, found, rfl⟩
    | terminal | repetition =>
        obtain ⟨_, _, same⟩ := Option.map_eq_some_iff.mp named
        cases same
  · rintro ⟨index, found, rfl⟩
    exact ⟨.rule index, by simp only [symbol?, found, Option.map_some], rfl⟩

end FlatDraft

namespace Grammar

/-- The number that a rule gets when a grammar is flattened. -/
def ruleNumber? (grammar : Grammar) (name : String) : Option Nat :=
  match FlatDraft.ofGrammar grammar with
  | .ok draft => (grammar.syntacticRules.idxOf? name).map (draft.terminalCount grammar + ·)
  | .error _ => none

/-- The number that a terminal or a rule gets when a grammar is flattened. -/
def symbolNumber? (grammar : Grammar) : WrittenSymbol → Option Nat
  | .terminal key => grammar.terminalNumber? key
  | .rule name => grammar.ruleNumber? name
  | .repetition _ => none

/-- What a number stands for in a flattened grammar. -/
def Shows (grammar : Grammar) (number : Nat) (symbol : WrittenSymbol) : Prop :=
  ∃ draft, FlatDraft.ofGrammar grammar = .ok draft ∧ draft.Shows grammar number symbol

/-- A step of a flattened grammar is one that was written. -/
structure ShowsStep (grammar : Grammar) (step : Step) (written : WrittenStep) : Prop where
  symbol : grammar.Shows step.symbol written.symbol
  precedence : step.precedence = written.precedence.getD 0
  associativity : step.associativity = written.associativity

variable {source : Grammar} {grammar : FlatGrammar}

theorem Shows.unique {number : Nat} {symbol other : WrittenSymbol}
    (first : source.Shows number symbol) (second : source.Shows number other) :
    symbol = other := by
  obtain ⟨draft, drafted, here⟩ := first
  obtain ⟨same, draftedSame, there⟩ := second
  obtain rfl := Except.ok.inj (drafted.symm.trans draftedSame)
  exact here.unique (FlatDraft.sound_of_ofGrammar drafted) there

/-- Every terminal and every rule has one number. -/
theorem shows_iff {number : Nat} {symbol : WrittenSymbol}
    (settled : ∀ content, symbol ≠ .repetition content) :
    source.Shows number symbol ↔ source.symbolNumber? symbol = some number := by
  cases drafted : FlatDraft.ofGrammar source with
  | error failure =>
      cases symbol <;> simp [Shows, symbolNumber?, terminalNumber?, ruleNumber?, drafted]
  | ok draft =>
      cases symbol with
      | terminal key =>
          simp [Shows, symbolNumber?, terminalNumber?, drafted,
            FlatDraft.shows_terminal_iff (FlatDraft.sound_of_ofGrammar drafted)]
      | rule name =>
          simp only [Shows, symbolNumber?, ruleNumber?, drafted, Except.ok.injEq,
            exists_eq_left', FlatDraft.shows_rule_iff]
      | repetition content => exact absurd rfl (settled content)

theorem shows_of_symbolNumber? {number : Nat} {symbol : WrittenSymbol}
    (numbered : source.symbolNumber? symbol = some number) : source.Shows number symbol := by
  refine (shows_iff ?_).mpr numbered
  rintro content rfl
  cases numbered

theorem Shows.eq {number other : Nat} {symbol : WrittenSymbol} (here : source.Shows other symbol)
    (numbered : source.symbolNumber? symbol = some number) : other = number := by
  have settled : ∀ content, symbol ≠ .repetition content := by
    rintro content rfl
    cases numbered
  exact Option.some.inj (((shows_iff settled).mp here).symm.trans numbered)

theorem showsSteps_of_numbers {draft : FlatDraft} (drafted : FlatDraft.ofGrammar source = .ok draft)
    {steps : List Step} {between : List DraftStep} {written : List WrittenStep}
    (numbers : List.Forall₂ (draft.NumbersStep source) steps between)
    (writes : List.Forall₂ (draft.Writes source) between written) :
    List.Forall₂ source.ShowsStep steps written := by
  induction numbers generalizing written with
  | nil =>
      cases writes
      exact .nil
  | cons here _ ih =>
      cases writes with
      | cons each rest =>
          refine .cons ⟨⟨draft, drafted, _, each.symbol, here.symbol.symm⟩, ?_, ?_⟩ (ih rest)
          · rw [here.precedence, each.precedence]
          · rw [here.associativity, each.associativity]

/-- The productions of a flattened grammar are those that were written. -/
theorem exists_written_of_mem (flattened : FlatGrammar.ofGrammar source = .ok grammar)
    {production : Production} (member : production ∈ grammar.productions) :
    ∃ entry ∈ source.writtenProductions, source.Shows production.lhs entry.lhs ∧
      List.Forall₂ source.ShowsStep production.steps entry.steps := by
  obtain ⟨draft, drafted, numbered⟩ := FlatGrammar.exists_draft_of_ofGrammar flattened
  obtain ⟨convert, members, converted⟩ := FlatDraft.mem_productions_of_number numbered
  obtain ⟨origin, listed, rfl⟩ := (members production).mp member
  obtain ⟨lhs, steps⟩ := converted origin
  obtain ⟨entry, written, named, writes⟩ :=
    (FlatDraft.entered_of_ofGrammar drafted).written origin listed
  exact ⟨entry, written, ⟨draft, drafted, _, named, lhs.symm⟩,
    showsSteps_of_numbers drafted steps writes⟩

/-- What was written for a rule has become a production. -/
theorem exists_mem_of_written (flattened : FlatGrammar.ofGrammar source = .ok grammar)
    {name : String} {steps : List WrittenStep}
    (written : ⟨.rule name, steps⟩ ∈ source.writtenProductions) :
    ∃ production ∈ grammar.productions, source.Shows production.lhs (.rule name) ∧
      List.Forall₂ source.ShowsStep production.steps steps := by
  obtain ⟨draft, drafted, numbered⟩ := FlatGrammar.exists_draft_of_ofGrammar flattened
  obtain ⟨convert, members, converted⟩ := FlatDraft.mem_productions_of_number numbered
  rcases mem_writtenProductions_iff.mp written with ⟨_, body, same, entry, listed⟩ | ⟨_, same, _⟩
  · obtain rfl := WrittenSymbol.rule.inj same
    obtain ⟨index, placed⟩ := List.mem_iff_getElem?.mp entry
    obtain ⟨origin, member, left, writes⟩ := (FlatDraft.entered_of_ofGrammar drafted).rules index
      (List.getElem?_eq_some_iff.mp placed).1 name body placed steps listed
    obtain ⟨lhs, numbers⟩ := converted origin
    exact ⟨convert origin, (members _).mpr ⟨origin, member, rfl⟩,
      ⟨draft, drafted, _, FlatDraft.symbol?_rule placed, by rw [lhs, left]⟩,
      showsSteps_of_numbers drafted numbers writes⟩
  · cases same

/-- Terminals have the lowest numbers. -/
theorem Shows.lt_terminalCount (flattened : FlatGrammar.ofGrammar source = .ok grammar)
    {number : Nat} {key : TerminalKey} (here : source.Shows number (.terminal key)) :
    number < grammar.terminalCount := by
  obtain ⟨draft, drafted, numbered⟩ := FlatGrammar.exists_draft_of_ofGrammar flattened
  obtain ⟨_, same, here⟩ := here
  obtain rfl := Except.ok.inj (drafted.symm.trans same)
  have sound := FlatDraft.sound_of_ofGrammar drafted
  obtain ⟨index, placed, rfl⟩ := (FlatDraft.terminalNumber?_eq_some_iff sound).mp
    ((FlatDraft.shows_terminal_iff sound).mp here)
  rw [(FlatDraft.numbersTo_of_number numbered).terminalCount]
  exact FlatDraft.terminalId_lt sound (FlatDraft.lt_length_terminals placed)

/-- The start symbol is the first rule. -/
theorem shows_start (flattened : FlatGrammar.ofGrammar source = .ok grammar) :
    ∃ name, source.startRule? = some name ∧ source.Shows grammar.start (.rule name) := by
  obtain ⟨draft, drafted, numbered⟩ := FlatGrammar.exists_draft_of_ofGrammar flattened
  obtain ⟨name, index, first, place, same⟩ := (FlatDraft.numbersTo_of_number numbered).start
  refine ⟨name, first, draft, drafted, FlatDraft.shows_rule_iff.mpr ?_⟩
  rw [place, same]
  rfl

end Grammar

end Lalr
