import Lalr.Proofs.Automaton.First
import Lalr.Proofs.FlatGrammar.Language

set_option autoImplicit false

/-!
The loop that finds what the symbols of a grammar begin with. It goes on while a round reports
something new; each such round adds to the weight of the sets, and behind the last one the sets are
exact.
-/

namespace Lalr

namespace FirstSets

variable {grammar : FlatGrammar}

/-- The sets behind a number of rounds, with the report of the last one. In front of the first
round one has to be made. -/
def afterRounds (grammar : FlatGrammar) : Nat → FirstSets × Bool
  | 0 => (start grammar, true)
  | rounds + 1 => round grammar (afterRounds grammar rounds).1

theorem fits_afterRounds (grammar : FlatGrammar) (rounds : Nat) :
    (afterRounds grammar rounds).1.Fits grammar := by
  induction rounds with
  | zero => exact fits_start grammar
  | succ rounds ih =>
      rw [afterRounds, round_eq ih]
      exact (extendAll_grows grammar).keeps _ ih

/-- A round that reports something new adds to the weight. -/
theorem weight_lt_of_report {rounds : Nat}
    (reported : (afterRounds grammar (rounds + 1)).2 = true) :
    totalWeight Beginning.weight (afterRounds grammar rounds).1.beginnings <
      totalWeight Beginning.weight (afterRounds grammar (rounds + 1)).1.beginnings := by
  have fits := fits_afterRounds grammar rounds
  rw [afterRounds, round_eq fits] at reported ⊢
  exact ((extendAll_grows grammar).grows _ fits).resolve_left (of_decide_eq_true reported)

/-- Only so many rounds report something new. -/
theorem le_of_reports {rounds : Nat}
    (reported : ∀ earlier ≤ rounds, (afterRounds grammar earlier).2 = true) :
    rounds ≤ grammar.nonterminalCount * (grammar.terminalCount + 1) := by
  refine Nat.le_trans ?_ (fits_afterRounds grammar rounds).weight_le
  induction rounds with
  | zero => exact Nat.zero_le _
  | succ rounds ih =>
      have before := ih fun earlier le => reported earlier (Nat.le_succ_of_le le)
      exact Nat.lt_of_le_of_lt before (weight_lt_of_report (reported _ (Nat.le_refl _)))

/-- Settling goes on to the first round that reports nothing new, if the limit is not met. -/
theorem settle_eq_afterRounds (limit done : Nat)
    (reported : ∀ earlier ≤ done, (afterRounds grammar earlier).2 = true)
    (enough : grammar.nonterminalCount * (grammar.terminalCount + 1) < done + limit) :
    ∃ rounds, (∀ earlier < rounds, (afterRounds grammar earlier).2 = true) ∧
      afterRounds grammar rounds = (settle grammar limit (afterRounds grammar done).1, false) := by
  induction limit generalizing done with
  | zero => exact absurd enough (Nat.not_lt_of_le (le_of_reports reported))
  | succ limit ih =>
      have next : round grammar (afterRounds grammar done).1 = afterRounds grammar (done + 1) := rfl
      rw [settle, next]
      rcases here : afterRounds grammar (done + 1) with ⟨sets, report⟩
      cases report with
      | true =>
          have later := ih (done + 1) (fun earlier le => ?_) (by omega)
          · rwa [here] at later
          rcases Nat.lt_or_eq_of_le le with before | rfl
          · exact reported earlier (Nat.le_of_lt_succ before)
          · rw [here]
      | false =>
          exact ⟨done + 1, fun earlier before => reported earlier (Nat.le_of_lt_succ before), here⟩

/-- The loop ends, at the latest when every nonterminal is nullable and begins with every terminal:
there is a first round that reports nothing new, and it leaves the beginnings of the grammar. These
are exact. A symbol is nullable if and only if it derives the empty sequence, it begins with the
terminals that a sentential form derived from it can begin with, and so does a sequence, which
begins with what follows it exactly if it derives the empty sequence. -/
theorem ofGrammar_exact {source : Grammar}
    (prepared : FlatGrammar.ofGrammar source = .ok grammar) :
    (∃ rounds ≤ grammar.nonterminalCount * (grammar.terminalCount + 1) + 1,
      (∀ earlier < rounds, (afterRounds grammar earlier).2 = true) ∧
        afterRounds grammar rounds = (ofGrammar grammar, false)) ∧
    (∀ symbol, ((ofGrammar grammar).ofSymbol symbol).nullable = true ↔
      grammar.Derives [symbol] []) ∧
    (∀ symbol terminal, ((ofGrammar grammar).ofSymbol symbol).tokens.contains terminal = true ↔
      grammar.Begins [symbol] terminal) ∧
    ∀ symbols follow terminal,
      (((ofGrammar grammar).ofSequence symbols).followedBy follow).contains terminal = true ↔
        grammar.Begins symbols terminal ∨
          grammar.Derives symbols [] ∧ follow.contains terminal = true := by
  have numbered := FlatGrammar.wellNumbered_of_ofGrammar prepared
  have single (symbol : Nat) :
      (ofGrammar grammar).ofSequence [symbol] = (ofGrammar grammar).ofSymbol symbol :=
    Beginning.append_empty _
  refine ⟨?loop, fun symbol => ?nullable, fun symbol terminal => ?first,
    fun symbols follow terminal => ?sequence⟩
  case loop =>
      have made : ∀ earlier ≤ 0, (afterRounds grammar earlier).2 = true := by
        intro earlier le
        rw [Nat.le_zero.mp le]
        rfl
      obtain ⟨rounds, reported, settled⟩ := settle_eq_afterRounds
        (grammar.nonterminalCount * (grammar.terminalCount + 1) + 1) 0 made (by omega)
      refine ⟨rounds, ?_, reported, settled⟩
      cases rounds with
      | zero => exact Nat.zero_le _
      | succ rounds =>
          exact Nat.succ_le_succ (le_of_reports fun earlier le =>
            reported earlier (Nat.lt_succ_of_le le))
  case nullable => rw [← single, nullable_ofSequence_iff numbered]
  case first => rw [← single, contains_ofSequence_iff numbered]
  case sequence =>
      rw [Beginning.contains_followedBy_iff, contains_ofSequence_iff numbered,
        nullable_ofSequence_iff numbered]

set_option maxRecDepth 10000 in
/-- In the grammar of a list an item may be empty, so a list can begin with what stands behind
one. -/
theorem ofGrammar_exact_list :
    ∃ grammar, FlatGrammar.ofGrammar listGrammar = .ok grammar ∧
      grammar.Derives [7] [] ∧ ¬ grammar.Derives [6] [] ∧
      ∀ terminal, grammar.Begins [6] terminal ↔ terminal ∈ [1, 3, 4, 5] := by
  have measured : ((FlatGrammar.ofGrammar listGrammar).toOption.map fun grammar =>
      let sets := ofGrammar grammar
      ((sets.ofSymbol 7).nullable, (sets.ofSymbol 6).nullable,
        (sets.ofSymbol 6).tokens.toList)) = some (true, false, [1, 3, 4, 5]) := by cbv
  cases prepared : FlatGrammar.ofGrammar listGrammar with
  | error failure => simp [prepared, Except.toOption] at measured
  | ok grammar =>
      simp only [prepared, Except.toOption, Option.map_some, Option.some.injEq,
        Prod.mk.injEq] at measured
      obtain ⟨item, list, tokens⟩ := measured
      obtain ⟨_, nullable, first, _⟩ := ofGrammar_exact prepared
      refine ⟨grammar, rfl, (nullable 7).mp item, fun empty => ?_, fun terminal => ?_⟩
      · rw [(nullable 6).mpr empty] at list
        cases list
      · rw [← first, ← TokenSet.mem_toList, tokens]

end FirstSets

end Lalr
