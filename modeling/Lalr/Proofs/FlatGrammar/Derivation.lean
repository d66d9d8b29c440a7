import Mathlib.Logic.Relation
import Lalr.Proofs.FlatGrammar.Numbering

set_option autoImplicit false

/-!
What a flat grammar derives. Rewriting one nonterminal at a time defines the language; the
same words are yielded symbol by symbol, which is the form that follows a parse.
-/

namespace Lalr.FlatGrammar

variable (grammar : FlatGrammar)

/-- One nonterminal is replaced by the right-hand side of one of its productions. -/
def Rewrites (before after : List Nat) : Prop :=
  ∃ production ∈ grammar.productions, ∃ left right,
    before = left ++ production.lhs :: right ∧ after = left ++ production.rhs ++ right

/-- Any number of rewriting steps. -/
def Derives : List Nat → List Nat → Prop :=
  Relation.ReflTransGen grammar.Rewrites

/-- A word of the language: terminals only, derived from the start symbol. -/
def Generates (word : List Nat) : Prop :=
  grammar.Derives [grammar.start] word ∧ ∀ symbol ∈ word, grammar.isTerminal symbol = true

/-- What a sequence of symbols stands for: a terminal for itself, a nonterminal for what one
of its right-hand sides stands for. -/
inductive Yields : List Nat → List Nat → Prop where
  | nil : Yields [] []
  | terminal {symbol : Nat} {symbols word : List Nat} :
      grammar.isTerminal symbol = true → Yields symbols word →
        Yields (symbol :: symbols) (symbol :: word)
  | production {production : Production} {symbols first word : List Nat} :
      production ∈ grammar.productions → Yields production.rhs first → Yields symbols word →
        Yields (production.lhs :: symbols) (first ++ word)

variable {grammar}

namespace Rewrites

theorem append_left {before after : List Nat} (rewrites : grammar.Rewrites before after)
    (front : List Nat) : grammar.Rewrites (front ++ before) (front ++ after) := by
  obtain ⟨production, member, left, right, rfl, rfl⟩ := rewrites
  exact ⟨production, member, front ++ left, right, by simp, by simp⟩

theorem append_right {before after : List Nat} (rewrites : grammar.Rewrites before after)
    (back : List Nat) : grammar.Rewrites (before ++ back) (after ++ back) := by
  obtain ⟨production, member, left, right, rfl, rfl⟩ := rewrites
  exact ⟨production, member, left, right ++ back, by simp, by simp⟩

end Rewrites

namespace Derives

theorem append {first firstAfter second secondAfter : List Nat}
    (left : grammar.Derives first firstAfter) (right : grammar.Derives second secondAfter) :
    grammar.Derives (first ++ second) (firstAfter ++ secondAfter) :=
  (left.lift (· ++ second) fun _ _ step => step.append_right second).trans
    (right.lift (firstAfter ++ ·) fun _ _ step => step.append_left firstAfter)

theorem of_production {production : Production} (member : production ∈ grammar.productions) :
    grammar.Derives [production.lhs] production.rhs :=
  .single ⟨production, member, [], [], by simp, by simp⟩

end Derives

namespace Yields

theorem isTerminal {symbols word : List Nat} (yields : grammar.Yields symbols word) :
    ∀ symbol ∈ word, grammar.isTerminal symbol = true := by
  induction yields with
  | nil => simp
  | terminal terminal _ rest =>
      intro symbol member
      rcases List.mem_cons.mp member with rfl | later
      · exact terminal
      · exact rest symbol later
  | production _ _ _ first rest =>
      intro symbol member
      rcases List.mem_append.mp member with early | later
      · exact first symbol early
      · exact rest symbol later

theorem append {first firstWord second secondWord : List Nat}
    (left : grammar.Yields first firstWord) (right : grammar.Yields second secondWord) :
    grammar.Yields (first ++ second) (firstWord ++ secondWord) := by
  induction left with
  | nil => exact right
  | terminal terminal _ rest => exact .terminal terminal rest
  | production member inner _ _ rest =>
      rw [List.append_assoc]
      exact .production member inner rest

/-- What two sequences in a row stand for is made of what each of them stands for. -/
theorem split {first second word : List Nat} (yields : grammar.Yields (first ++ second) word) :
    ∃ firstWord secondWord, word = firstWord ++ secondWord ∧
      grammar.Yields first firstWord ∧ grammar.Yields second secondWord := by
  induction first generalizing word with
  | nil => exact ⟨[], word, rfl, .nil, yields⟩
  | cons symbol symbols hypothesis =>
      cases yields with
      | terminal terminal rest =>
          obtain ⟨firstWord, secondWord, rfl, front, back⟩ := hypothesis rest
          exact ⟨_ :: firstWord, secondWord, rfl, .terminal terminal front, back⟩
      | production member inner rest =>
          obtain ⟨firstWord, secondWord, rfl, front, back⟩ := hypothesis rest
          exact ⟨_, secondWord, (List.append_assoc ..).symm, .production member inner front, back⟩

theorem of_terminals {word : List Nat}
    (terminals : ∀ symbol ∈ word, grammar.isTerminal symbol = true) :
    grammar.Yields word word := by
  induction word with
  | nil => exact .nil
  | cons symbol word hypothesis =>
      exact .terminal (terminals symbol List.mem_cons_self)
        (hypothesis fun other member => terminals other (List.mem_cons_of_mem _ member))

theorem of_rewrites {before after word : List Nat} (rewrites : grammar.Rewrites before after)
    (yields : grammar.Yields after word) : grammar.Yields before word := by
  obtain ⟨production, member, left, right, rfl, rfl⟩ := rewrites
  obtain ⟨front, back, rfl, front_yields, back_yields⟩ := yields.split
  obtain ⟨outer, inner, rfl, outer_yields, inner_yields⟩ := front_yields.split
  rw [List.append_assoc]
  exact outer_yields.append (.production member inner_yields back_yields)

theorem derives {symbols word : List Nat} (yields : grammar.Yields symbols word) :
    grammar.Derives symbols word := by
  induction yields with
  | nil => exact .refl
  | @terminal symbol symbols word _ _ rest =>
      have lead : grammar.Derives [symbol] [symbol] := .refl
      exact lead.append rest
  | @production production symbols first word member _ _ inner rest =>
      have lead : grammar.Derives [production.lhs] first :=
        (Derives.of_production member).trans inner
      exact lead.append rest

end Yields

theorem yields_of_derives {symbols word : List Nat} (derives : grammar.Derives symbols word)
    (terminals : ∀ symbol ∈ word, grammar.isTerminal symbol = true) :
    grammar.Yields symbols word := by
  induction derives using Relation.ReflTransGen.head_induction_on with
  | refl => exact .of_terminals terminals
  | head step _ rest => exact .of_rewrites step rest

/-- The words of the language are those the start symbol yields. -/
theorem generates_iff_yields {word : List Nat} :
    grammar.Generates word ↔ grammar.Yields [grammar.start] word := by
  constructor
  · rintro ⟨derives, terminals⟩
    exact yields_of_derives derives terminals
  · intro yields
    exact ⟨yields.derives, yields.isTerminal⟩

end Lalr.FlatGrammar
