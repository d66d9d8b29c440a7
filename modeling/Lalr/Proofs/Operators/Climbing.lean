import Lalr.Grammar.Rule

set_option autoImplicit false

/-!
Precedence climbing. A chain of binary operators between atoms is read from the left; the right
operand of an operator takes in all operators behind it that bind more tightly.
-/

namespace Lalr

/-- A binary operator with its token. -/
structure BinaryOperator (τ : Type) where
  token : τ
  level : Int32
  associativity : Associativity
deriving DecidableEq, Repr

/-- The expressions over binary operators, with all atoms alike. -/
inductive Expression (τ : Type) where
  | atom
  | binary (operator : BinaryOperator τ) (left right : Expression τ)
deriving DecidableEq, Repr

variable {τ σ : Type}

namespace BinaryOperator

/-- The least level of an operator that belongs to the right operand of this one: a greater one,
or the same if operators of this one's level group to the right of it. -/
def rightMinimum (operator : BinaryOperator τ) : Int :=
  match operator.associativity with
  | .left => operator.level.toInt + 1
  | .right => operator.level.toInt

/-- An operator of a higher level binds tighter; one of the same level belongs to the right operand
if operators of this level group to the right. -/
theorem rightMinimum_le_iff {operator : BinaryOperator τ} {level : Int} :
    operator.rightMinimum ≤ level ↔ operator.level.toInt < level ∨
      operator.level.toInt = level ∧ operator.associativity = .right := by
  obtain ⟨token, own, side⟩ := operator
  cases side <;> simp only [rightMinimum, reduceCtorEq, and_false, and_true, or_false] <;> omega

theorem level_le_rightMinimum (operator : BinaryOperator τ) :
    operator.level.toInt ≤ operator.rightMinimum := by
  obtain ⟨token, level, side⟩ := operator
  cases side <;> simp only [rightMinimum] <;> omega

theorem rightMinimum_le (operator : BinaryOperator τ) :
    operator.rightMinimum ≤ operator.level.toInt + 1 := by
  obtain ⟨token, level, side⟩ := operator
  cases side <;> simp only [rightMinimum] <;> omega

/-- The operator with another token. -/
def map (change : τ → σ) (operator : BinaryOperator τ) : BinaryOperator σ :=
  ⟨change operator.token, operator.level, operator.associativity⟩

@[simp] theorem level_map (change : τ → σ) (operator : BinaryOperator τ) :
    (operator.map change).level = operator.level :=
  rfl

@[simp] theorem rightMinimum_map (change : τ → σ) (operator : BinaryOperator τ) :
    (operator.map change).rightMinimum = operator.rightMinimum :=
  rfl

end BinaryOperator

namespace Expression

/-- Climbs from an operand over all operators of at least a level. The atoms are left out: there
is one behind every operator. -/
def climbFrom (minimum : Int) (left : Expression τ) : (operators : List (BinaryOperator τ)) →
    Expression τ × { rest : List (BinaryOperator τ) // rest.length ≤ operators.length }
  | [] => (left, ⟨[], Nat.le_refl _⟩)
  | operator :: operators =>
      if minimum ≤ operator.level.toInt then
        match climbFrom operator.rightMinimum .atom operators with
        | (right, ⟨behind, shorter⟩) =>
            match climbFrom minimum (.binary operator left right) behind with
            | (whole, ⟨rest, shortest⟩) =>
                (whole, ⟨rest, Nat.le_succ_of_le (Nat.le_trans shortest shorter)⟩)
      else (left, ⟨operator :: operators, Nat.le_refl _⟩)
termination_by operators => operators.length

/-- The expression of a chain of operators with an atom before each of them and one at the end.
Every operator has at least the least level. -/
def climb (operators : List (BinaryOperator τ)) : Expression τ :=
  (climbFrom Int32.minValue.toInt .atom operators).1

/-- What is left over when climbing ends is the end of the chain, and its first operator is of a
lesser level. -/
theorem climbFrom_rest (minimum : Int) (left : Expression τ)
    (operators : List (BinaryOperator τ)) :
    (climbFrom minimum left operators).2.val <:+ operators ∧
      ∀ operator ∈ (climbFrom minimum left operators).2.val.head?,
        operator.level.toInt < minimum := by
  fun_induction climbFrom minimum left operators with
  | case1 minimum left => simp
  | case2 minimum left operator operators taken right behind shorter climbed whole rest shortest
      continued inner outer =>
      rw [climbed] at inner
      rw [continued] at outer
      exact ⟨(outer.1.trans inner.1).trans (List.suffix_cons _ _), outer.2⟩
  | case3 minimum left operator operators lesser =>
      exact ⟨List.suffix_refl _, by simpa using lesser⟩

/-! ## What climbing builds -/

/-- The operators of an expression from left to right. -/
def operators : Expression τ → List (BinaryOperator τ)
  | .atom => []
  | .binary operator left right => left.operators ++ operator :: right.operators

/-- The operator between the operands of an expression. -/
def outer? : Expression τ → Option (BinaryOperator τ)
  | .atom => none
  | .binary operator _ _ => some operator

/-- Operators of higher levels bind tighter, and among those of one level the associativity of the
left one decides. -/
def Grouped : Expression τ → Prop
  | .atom => True
  | .binary operator left right =>
      (∀ inner ∈ left.outer?, operator.level.toInt < inner.rightMinimum) ∧
        (∀ inner ∈ right.outer?, operator.rightMinimum ≤ inner.level.toInt) ∧
        left.Grouped ∧ right.Grouped

theorem climbFrom_grouped {minimum : Int} {left : Expression τ}
    {chain : List (BinaryOperator τ)} (grouped : left.Grouped)
    (closed : ∀ inner ∈ left.outer?, ∀ operator ∈ chain.head?,
      operator.level.toInt < inner.rightMinimum) :
    (climbFrom minimum left chain).1.Grouped ∧
      (climbFrom minimum left chain).1.operators ++ (climbFrom minimum left chain).2.val =
        left.operators ++ chain ∧
      ((climbFrom minimum left chain).1 = left ∨
        ∀ inner ∈ (climbFrom minimum left chain).1.outer?, minimum ≤ inner.level.toInt) := by
  fun_induction climbFrom minimum left chain with
  | case1 minimum left => exact ⟨grouped, rfl, .inl rfl⟩
  | case2 minimum left operator chain taken right behind shorter climbed whole rest shortest
      continued inner outer =>
      obtain ⟨_, ends⟩ := climbFrom_rest operator.rightMinimum .atom chain
      rw [climbed] at inner ends
      rw [continued] at outer
      obtain ⟨rightGrouped, rightOperators, higher⟩ := inner trivial nofun
      have higher : ∀ other ∈ right.outer?, operator.rightMinimum ≤ other.level.toInt := by
        rcases higher with rfl | higher
        · exact nofun
        · exact higher
      obtain ⟨wholeGrouped, wholeOperators, least⟩ := outer
        ⟨fun other found => closed other found operator rfl, higher, grouped, rightGrouped⟩
        (by rintro _ ⟨⟩; exact ends)
      refine ⟨wholeGrouped, ?_, .inr ?_⟩
      · simp_all [operators]
      · rcases least with rfl | least
        · rintro _ ⟨⟩
          exact taken
        · exact least
  | case3 minimum left operator chain lesser => exact ⟨grouped, rfl, .inl rfl⟩

/-- Climbing takes in the whole chain. -/
theorem climbFrom_minValue_rest (left : Expression τ) (chain : List (BinaryOperator τ)) :
    (climbFrom Int32.minValue.toInt left chain).2.val = [] := by
  obtain ⟨_, stops⟩ := climbFrom_rest Int32.minValue.toInt left chain
  cases behind : (climbFrom Int32.minValue.toInt left chain).2.val with
  | nil => rfl
  | cons operator others =>
      have lesser := stops operator (by rw [behind]; rfl)
      exact absurd (Int32.le_toInt operator.level) (Int.not_le.mpr lesser)

/-- Climbing keeps the operators in their order and groups them. -/
theorem climb_grouped (chain : List (BinaryOperator τ)) :
    (climb chain).operators = chain ∧ (climb chain).Grouped := by
  have climbed : (climb chain).Grouped ∧ (climb chain).operators ++ _ = [] ++ chain ∧ _ :=
    climbFrom_grouped (show (atom : Expression τ).Grouped from trivial) nofun
  rw [climbFrom_minValue_rest] at climbed
  exact ⟨by simpa using climbed.2.1, climbed.1⟩

/-- No operator of an expression is of a lesser level than the outer one may be. -/
theorem Grouped.le_level {minimum : Int} {expression : Expression τ}
    (grouped : expression.Grouped)
    (least : ∀ operator ∈ expression.outer?, minimum ≤ operator.level.toInt) :
    ∀ operator ∈ expression.operators, minimum ≤ operator.level.toInt := by
  induction expression generalizing minimum with
  | atom => exact nofun
  | binary outer left right leftIh rightIh =>
      obtain ⟨leftBound, rightBound, leftGrouped, rightGrouped⟩ := grouped
      have here := least outer rfl
      intro operator member
      rcases List.mem_append.mp member with inLeft | member
      · refine leftIh leftGrouped (fun inner found => ?_) operator inLeft
        have bound := leftBound inner found
        have near := inner.rightMinimum_le
        omega
      · rcases List.mem_cons.mp member with rfl | inRight
        · exact here
        · refine rightIh rightGrouped (fun inner found => ?_) operator inRight
          have bound := rightBound inner found
          have near := outer.level_le_rightMinimum
          omega

/-- Every operator of an expression ends where the outer one has to. -/
theorem Grouped.lt_rightMinimum {level : Int} {expression : Expression τ}
    (grouped : expression.Grouped)
    (least : ∀ operator ∈ expression.outer?, level < operator.rightMinimum) :
    ∀ operator ∈ expression.operators, level < operator.rightMinimum := by
  induction expression generalizing level with
  | atom => exact nofun
  | binary outer left right leftIh rightIh =>
      obtain ⟨leftBound, rightBound, leftGrouped, rightGrouped⟩ := grouped
      have here := least outer rfl
      intro operator member
      rcases List.mem_append.mp member with inLeft | member
      · refine leftIh leftGrouped (fun inner found => ?_) operator inLeft
        have bound := leftBound inner found
        have near := outer.rightMinimum_le
        omega
      · rcases List.mem_cons.mp member with rfl | inRight
        · exact here
        · refine rightIh rightGrouped (fun inner found => ?_) operator inRight
          have bound := rightBound inner found
          have near := inner.level_le_rightMinimum
          omega

/-- There is one way to group the operators of a chain. -/
theorem Grouped.eq {expression other : Expression τ} (grouped : expression.Grouped)
    (otherGrouped : other.Grouped) (same : expression.operators = other.operators) :
    expression = other := by
  induction expression generalizing other with
  | atom =>
      cases other with
      | atom => rfl
      | binary => simp [operators] at same
  | binary outer left right leftIh rightIh =>
      cases other with
      | atom => simp [operators] at same
      | binary otherOuter otherLeft otherRight =>
          obtain ⟨leftBound, rightBound, leftGrouped, rightGrouped⟩ := grouped
          obtain ⟨otherLeftBound, otherRightBound, otherLeftGrouped, otherRightGrouped⟩ :=
            otherGrouped
          simp only [operators] at same
          -- an outer operator cannot stand in front of the other one
          rcases List.append_eq_append_iff.mp same with
            ⟨between, leftSame, rightSame⟩ | ⟨between, leftSame, rightSame⟩
          · cases between with
            | nil =>
                obtain ⟨rfl, behind⟩ := List.cons.inj rightSame
                rw [List.append_nil] at leftSame
                rw [leftIh leftGrouped otherLeftGrouped leftSame.symm,
                  rightIh rightGrouped otherRightGrouped behind]
            | cons operator between =>
                obtain ⟨rfl, behind⟩ := List.cons.inj rightSame
                have above := rightGrouped.le_level rightBound otherOuter (by simp [behind])
                have below := otherLeftGrouped.lt_rightMinimum otherLeftBound outer
                  (by simp [leftSame])
                omega
          · cases between with
            | nil =>
                obtain ⟨rfl, behind⟩ := List.cons.inj rightSame
                rw [List.append_nil] at leftSame
                rw [leftIh leftGrouped otherLeftGrouped leftSame,
                  rightIh rightGrouped otherRightGrouped behind.symm]
            | cons operator between =>
                obtain ⟨rfl, behind⟩ := List.cons.inj rightSame
                have above := otherRightGrouped.le_level otherRightBound outer
                  (by simp [behind])
                have below := leftGrouped.lt_rightMinimum leftBound otherOuter (by simp [leftSame])
                omega

/-- What climbing builds of a chain is the one expression with its operators that is grouped. -/
theorem eq_climb_iff {expression : Expression τ} {chain : List (BinaryOperator τ)} :
    expression = climb chain ↔ expression.operators = chain ∧ expression.Grouped := by
  obtain ⟨same, grouped⟩ := climb_grouped chain
  refine ⟨fun built => built ▸ ⟨same, grouped⟩, fun ⟨operators, others⟩ => ?_⟩
  exact others.eq grouped (operators.trans same.symm)

example :
    let minus : BinaryOperator String := ⟨"-", 1, .left⟩
    let times : BinaryOperator String := ⟨"*", 2, .left⟩
    climb [minus, times, minus] =
      .binary minus (.binary minus .atom (.binary times .atom .atom)) .atom := by
  cbv

end Expression

end Lalr
