import Lalr.Proofs.Automaton.Settling
import Lalr.Proofs.FlatGrammar.Derivation

set_option autoImplicit false

/-!
The beginnings of symbols are settled: every production has been taken into account, and nothing
else. So the first terminals of a sequence of symbols are those that what it derives can begin
with, and it is known to be nullable if and only if it derives the empty sequence.
-/

namespace Lalr

namespace FlatGrammar

/-- What some symbols derive can begin with a terminal. -/
def Begins (grammar : FlatGrammar) (symbols : List Nat) (terminal : Nat) : Prop :=
  grammar.isTerminal terminal = true ∧ ∃ rest, grammar.Derives symbols (terminal :: rest)

namespace Begins

variable {grammar : FlatGrammar} {first second : List Nat} {terminal : Nat}

theorem of_terminal (isTerminal : grammar.isTerminal terminal = true) (rest : List Nat) :
    grammar.Begins (terminal :: rest) terminal :=
  ⟨isTerminal, rest, .refl⟩

theorem of_derives (derives : grammar.Derives first second)
    (begins : grammar.Begins second terminal) : grammar.Begins first terminal := by
  obtain ⟨isTerminal, rest, later⟩ := begins
  exact ⟨isTerminal, rest, derives.trans later⟩

theorem append_left (begins : grammar.Begins first terminal) (second : List Nat) :
    grammar.Begins (first ++ second) terminal := by
  obtain ⟨isTerminal, rest, derives⟩ := begins
  exact ⟨isTerminal, rest ++ second, derives.append .refl⟩

theorem append_right (empty : grammar.Derives first []) (begins : grammar.Begins second terminal) :
    grammar.Begins (first ++ second) terminal :=
  begins.of_derives (empty.append .refl)

end Begins

end FlatGrammar

namespace Beginning

/-- The beginning of either of two things. -/
def union (left right : Beginning) : Beginning :=
  ⟨left.tokens.union right.tokens, left.nullable || right.nullable⟩

/-- The terminals, and one more for being nullable. -/
def weight (beginning : Beginning) : Nat :=
  beginning.tokens.weight + if beginning.nullable then 1 else 0

theorem union_grows (left : Beginning) {right : Beginning} (trimmed : right.tokens.Trimmed) :
    left.union right = left ∨ left.weight < (left.union right).weight := by
  obtain ⟨tokens, nullable⟩ := left
  rcases tokens.union_grows trimmed with same | more
  · cases nullable with
    | true => exact .inl (by simp [union, same])
    | false =>
        cases other : right.nullable with
        | false => exact .inl (by simp [union, same, other])
        | true => exact .inr (by simp [union, weight, same, other])
  · refine .inr ?_
    simp only [union, weight]
    cases nullable with
    | true => simpa using more
    | false => exact Nat.lt_of_lt_of_le (by simpa using more) (Nat.le_add_right _ _)

theorem union_eq_iff {left right : Beginning} :
    left.union right = left ↔
      left.tokens.union right.tokens = left.tokens ∧
        (right.nullable = true → left.nullable = true) := by
  obtain ⟨tokens, nullable⟩ := left
  cases nullable <;> simp [union]

theorem tokens_subset_of_union_eq {left right : Beginning} (same : left.union right = left)
    {terminal : Nat} (member : right.tokens.contains terminal = true) :
    left.tokens.contains terminal = true :=
  TokenSet.contains_of_union_eq (congrArg Beginning.tokens same) member

theorem nullable_of_union_eq {left right : Beginning} (same : left.union right = left)
    (nullable : right.nullable = true) : left.nullable = true := by
  have equal := congrArg Beginning.nullable same
  simpa [union, nullable] using equal.symm

theorem contains_append_left {first second : Beginning} {terminal : Nat}
    (member : first.tokens.contains terminal = true) :
    (first.append second).tokens.contains terminal = true := by
  unfold append
  split <;> simp [member]

theorem contains_append_right {first second : Beginning} {terminal : Nat}
    (nullable : first.nullable = true) (member : second.tokens.contains terminal = true) :
    (first.append second).tokens.contains terminal = true := by
  simp [append, nullable, member]

theorem contains_append {first second : Beginning} {terminal : Nat} :
    (first.append second).tokens.contains terminal = true ↔
      first.tokens.contains terminal = true ∨
        first.nullable = true ∧ second.tokens.contains terminal = true := by
  cases nullable : first.nullable <;> simp [append, nullable]

theorem nullable_append {first second : Beginning} :
    (first.append second).nullable = true ↔ first.nullable = true ∧ second.nullable = true := by
  cases nullable : first.nullable <;> simp [append, nullable]

theorem empty_append (beginning : Beginning) : empty.append beginning = beginning := by
  simp [append, empty]

theorem append_empty (beginning : Beginning) : beginning.append empty = beginning := by
  obtain ⟨tokens, nullable⟩ := beginning
  cases nullable <;> simp [append, empty]

theorem append_assoc (first second third : Beginning) :
    (first.append second).append third = first.append (second.append third) := by
  cases front : first.nullable <;> cases middle : second.nullable <;>
    simp [append, front, middle, TokenSet.union_assoc]

theorem contains_followedBy_iff {beginning : Beginning} {follow : TokenSet} {terminal : Nat} :
    (beginning.followedBy follow).contains terminal = true ↔
      beginning.tokens.contains terminal = true ∨
        beginning.nullable = true ∧ follow.contains terminal = true := by
  cases nullable : beginning.nullable <;> simp [followedBy, nullable]

/-- All that a beginning says of some symbols is derived from them. -/
structure Derived (grammar : FlatGrammar) (symbols : List Nat) (beginning : Beginning) : Prop where
  tokens : ∀ terminal, beginning.tokens.contains terminal = true →
    grammar.Begins symbols terminal
  nullable : beginning.nullable = true → grammar.Derives symbols []

/-- A beginning says all that another one says. -/
structure Covers (more less : Beginning) : Prop where
  tokens : ∀ terminal, less.tokens.contains terminal = true →
    more.tokens.contains terminal = true
  nullable : less.nullable = true → more.nullable = true

section derived

variable {grammar : FlatGrammar} {symbols others : List Nat} {beginning other : Beginning}

theorem derived_none : Derived grammar symbols .none :=
  ⟨by simp [none], nofun⟩

theorem derived_empty : Derived grammar [] .empty :=
  ⟨by simp [empty], fun _ => .refl⟩

theorem Derived.union (left : Derived grammar symbols beginning)
    (right : Derived grammar symbols other) : Derived grammar symbols (beginning.union other) := by
  constructor
  · intro terminal member
    rw [Beginning.union, TokenSet.contains_union, Bool.or_eq_true] at member
    exact member.elim (left.tokens terminal) (right.tokens terminal)
  · intro nullable
    rw [Beginning.union, Bool.or_eq_true] at nullable
    exact nullable.elim left.nullable right.nullable

theorem Derived.append (left : Derived grammar symbols beginning)
    (right : Derived grammar others other) :
    Derived grammar (symbols ++ others) (beginning.append other) := by
  constructor
  · intro terminal member
    rcases contains_append.mp member with front | ⟨nullable, back⟩
    · exact (left.tokens terminal front).append_left others
    · exact .append_right (left.nullable nullable) (right.tokens terminal back)
  · intro nullable
    obtain ⟨front, back⟩ := nullable_append.mp nullable
    exact (left.nullable front).append (right.nullable back)

theorem Derived.of_derives (derives : grammar.Derives symbols others)
    (later : Derived grammar others beginning) : Derived grammar symbols beginning :=
  ⟨fun terminal member => (later.tokens terminal member).of_derives derives,
    fun nullable => derives.trans (later.nullable nullable)⟩

theorem covers_of_union_eq (same : beginning.union other = beginning) : beginning.Covers other :=
  ⟨fun _ => tokens_subset_of_union_eq same, nullable_of_union_eq same⟩

theorem Covers.refl (beginning : Beginning) : beginning.Covers beginning :=
  ⟨fun _ member => member, fun nullable => nullable⟩

theorem Covers.trans {third : Beginning} (left : beginning.Covers other)
    (right : other.Covers third) : beginning.Covers third :=
  ⟨fun terminal member => left.tokens terminal (right.tokens terminal member),
    fun nullable => left.nullable (right.nullable nullable)⟩

theorem Covers.append {less lower : Beginning} (front : beginning.Covers less)
    (back : other.Covers lower) : (beginning.append other).Covers (less.append lower) := by
  constructor
  · intro terminal member
    rw [contains_append] at member ⊢
    exact member.imp (front.tokens terminal)
      (And.imp front.nullable (back.tokens terminal))
  · intro nullable
    rw [nullable_append] at nullable ⊢
    exact nullable.imp front.nullable back.nullable

end derived

end Beginning

namespace FirstSets

variable {grammar : FlatGrammar} {sets : FirstSets}

/-- The sets have the shape of a grammar, and hold its terminals only. -/
structure Fits (grammar : FlatGrammar) (sets : FirstSets) : Prop where
  terminalCount : sets.terminalCount = grammar.terminalCount
  size : sets.beginnings.size = grammar.nonterminalCount
  below : ∀ beginning ∈ sets.beginnings, beginning.tokens.Below grammar.terminalCount

theorem Fits.below_getD (fits : sets.Fits grammar) (place : Nat) :
    (sets.beginnings.getD place .none).tokens.Below grammar.terminalCount := by
  rw [Array.getD_eq_getD_getElem?]
  cases found : sets.beginnings[place]? with
  | none => exact TokenSet.below_empty _
  | some beginning => exact fits.below beginning (Array.mem_of_getElem? found)

theorem Fits.below_ofSymbol (fits : sets.Fits grammar) (symbol : Nat) :
    (sets.ofSymbol symbol).tokens.Below grammar.terminalCount := by
  unfold ofSymbol
  split
  case isTrue inside => exact TokenSet.below_single (fits.terminalCount ▸ inside)
  case isFalse => exact fits.below_getD _

theorem Fits.below_ofSequence (fits : sets.Fits grammar) (symbols : List Nat) :
    (sets.ofSequence symbols).tokens.Below grammar.terminalCount := by
  induction symbols with
  | nil => exact TokenSet.below_empty _
  | cons symbol symbols hypothesis =>
      simp only [ofSequence, Beginning.append]
      split
      · exact (fits.below_ofSymbol symbol).union hypothesis
      · exact fits.below_ofSymbol symbol

/-! ## One production -/

/-- The sets with all that a production says of its left-hand side. -/
def extend (sets : FirstSets) (production : Production) : FirstSets :=
  { sets with
    beginnings := sets.beginnings.modify (production.lhs - sets.terminalCount)
      (·.union (sets.ofSequence production.rhs)) }

/-- The terminals found up to the first symbol that is not nullable are those of the whole
sequence. What is known of the nonterminal itself may be left out, since it is there already. -/
theorem scan_eq (fits : sets.Fits grammar) {place : Nat} {symbols : List Nat}
    {tokens : TokenSet} (changed : Bool)
    (known : tokens.union (sets.beginnings.getD place .none).tokens = tokens) :
    sets.scan place symbols tokens changed =
      (tokens.union (sets.ofSequence symbols).tokens,
        changed || decide (tokens.union (sets.ofSequence symbols).tokens ≠ tokens),
        (sets.ofSequence symbols).nullable) := by
  induction symbols generalizing tokens changed with
  | nil => simp [scan, ofSequence, Beginning.empty, TokenSet.union_empty]
  | cons symbol symbols ih =>
      by_cases inside : symbol < sets.terminalCount
      · have single : (sets.ofSequence (symbol :: symbols)) =
            ⟨TokenSet.empty.insert symbol, false⟩ := by
          simp [ofSequence, ofSymbol, inside, Beginning.append]
        have report : (tokens.insertNew symbol).2 = decide (tokens.insert symbol ≠ tokens) := by
          rw [Bool.eq_iff_iff, TokenSet.insertNew_snd_iff, decide_eq_true_iff]
        rw [scan, if_pos inside, single, TokenSet.union_insert_empty]
        simp only [report]
        rfl
      · obtain ⟨other, found⟩ :
            ∃ other, sets.beginnings.getD (symbol - sets.terminalCount) .none = other := ⟨_, rfl⟩
        have here : sets.ofSequence (symbol :: symbols) =
            other.append (sets.ofSequence symbols) := by
          rw [ofSequence, ofSymbol, if_neg inside, found]
        have added : (if symbol - sets.terminalCount = place then (tokens, false)
            else tokens.addAll other.tokens) =
              (tokens.union other.tokens, decide (tokens.union other.tokens ≠ tokens)) := by
          split
          case isTrue same =>
              rw [← same, found] at known
              rw [known]
              simp
          case isFalse =>
              have trimmed := (fits.below_getD (symbol - sets.terminalCount)).trimmed
              rw [found] at trimmed
              refine Prod.ext rfl (Bool.eq_iff_iff.mpr ?_)
              rw [TokenSet.addAll_snd_iff trimmed, decide_eq_true_iff]
        have still : (tokens.union other.tokens).union
            (sets.beginnings.getD place .none).tokens = tokens.union other.tokens := by
          rw [TokenSet.union_right_comm, known]
        by_cases nullable : other.nullable = true
        · rw [scan, if_neg inside, here, Beginning.append, if_pos nullable]
          simp only [found, added, if_pos nullable]
          rw [ih _ still, ← TokenSet.union_assoc, Bool.or_assoc, ← Bool.decide_or]
          refine congrArg (fun report => (_, changed || report, _)) (decide_eq_decide.mpr ?_)
          rw [ne_eq, ne_eq, ne_eq, TokenSet.union_union_eq_iff, not_and_or]
        · rw [scan, if_neg inside, here, Beginning.append, if_neg nullable]
          simp only [found, added, if_neg nullable]

/-- Taking a production into account extends the sets, and the report is right. -/
theorem withProduction_eq (fits : sets.Fits grammar) (changed : Bool) (production : Production) :
    withProduction (sets, changed) production =
      (sets.extend production, changed || decide (sets.extend production ≠ sets)) := by
  simp only [withProduction]
  cases found : sets.beginnings[production.lhs - sets.terminalCount]? with
  | none =>
      have same : sets.extend production = sets := by
        rw [extend, modify_eq_iff.mpr fun value here => nomatch found.symm.trans here]
      simp [same]
  | some own =>
      have known : own.tokens.union
          (sets.beginnings.getD (production.lhs - sets.terminalCount) .none).tokens =
            own.tokens := by
        rw [Array.getD_eq_getD_getElem?, found, Option.getD_some, TokenSet.union_self]
      have same : sets.extend production = sets ↔
          own.union (sets.ofSequence production.rhs) = own := by
        simp only [extend, FirstSets.ext_iff, true_and, modify_eq_iff, found, Option.some.injEq,
          forall_eq']
      simp only [scan_eq fits _ known]
      refine Prod.ext (by rw [extend, modify_eq_set found]; rfl) ?_
      simp only [Bool.or_assoc]
      refine congrArg (changed || ·) (Bool.eq_iff_iff.mpr ?_)
      rw [decide_eq_true_iff, ne_eq (extend _ _), same, Beginning.union_eq_iff, not_and_or,
        Classical.not_imp, Bool.or_eq_true, decide_eq_true_iff, Bool.and_eq_true,
        Bool.not_eq_true', Bool.not_eq_true]

/-- Taking a production into account loses nothing. -/
theorem extend_grows (production : Production) :
    Grows (Fits grammar) (fun sets => totalWeight Beginning.weight sets.beginnings)
      fun sets => sets.extend production := by
  refine ⟨fun sets fits => ⟨fits.terminalCount, ?_, ?_⟩, fun sets fits => ?_⟩
  · simpa [extend] using fits.size
  · intro beginning member
    obtain ⟨place, bound, rfl⟩ := Array.getElem_of_mem member
    simp only [extend, Array.getElem_modify]
    have inside : place < sets.beginnings.size := by simpa [extend] using bound
    have here := fits.below sets.beginnings[place] (Array.getElem_mem inside)
    split
    · exact here.union (fits.below_ofSequence production.rhs)
    · exact here
  · simp only [extend]
    rcases modify_grows sets.beginnings (production.lhs - sets.terminalCount)
      fun beginning _ =>
        beginning.union_grows (fits.below_ofSequence production.rhs).trimmed with same | more
    · exact .inl (by rw [same])
    · exact .inr more

/-! ## Rounds -/

/-- The sets with all that the productions say, one after the other. -/
def extendAll (grammar : FlatGrammar) (sets : FirstSets) : FirstSets :=
  grammar.productions.toList.foldl extend sets

theorem extendAll_grows (grammar : FlatGrammar) :
    Grows (Fits grammar) (fun sets => totalWeight Beginning.weight sets.beginnings)
      (extendAll grammar) :=
  .foldl fun production _ => extend_grows production

/-- A round takes all productions into account, and tells whether that changed anything. -/
theorem round_eq (fits : sets.Fits grammar) :
    round grammar sets =
      (extendAll grammar sets, decide (extendAll grammar sets ≠ sets)) := by
  rw [round, ← Array.foldl_toList]
  refine (Grows.foldl_report (fun _ changed production fits =>
    withProduction_eq fits changed production) (fun production _ => extend_grows production)
    fits false).trans ?_
  rw [Bool.false_or]
  rfl

theorem fits_start (grammar : FlatGrammar) : (start grammar).Fits grammar := by
  refine ⟨rfl, by simp [start], fun beginning member => ?_⟩
  obtain ⟨_, rfl⟩ := Array.mem_replicate.mp member
  exact TokenSet.below_empty _

theorem Fits.weight_le (fits : sets.Fits grammar) :
    totalWeight Beginning.weight sets.beginnings ≤
      grammar.nonterminalCount * (grammar.terminalCount + 1) := by
  rw [← fits.size]
  refine totalWeight_le fun beginning member => ?_
  have few := (fits.below beginning member).weight_le
  simp only [Beginning.weight]
  split <;> omega

theorem settle_eq (limit : Nat) (fits : sets.Fits grammar) :
    settle grammar limit sets = settleWith (extendAll grammar) limit sets := by
  induction limit generalizing sets with
  | zero => rfl
  | succ limit ih =>
      rw [settle, settleWith, round_eq fits]
      by_cases same : extendAll grammar sets = sets
      · simp [same]
      · simp [same, ih ((extendAll_grows grammar).keeps sets fits)]

/-- The settled sets have taken every production into account. -/
theorem ofGrammar_fixed (grammar : FlatGrammar) :
    (ofGrammar grammar).Fits grammar ∧
      ∀ production ∈ grammar.productions,
        (ofGrammar grammar).extend production = ofGrammar grammar := by
  obtain ⟨fits, fixed⟩ := settleWith_fixed (extendAll_grows grammar) (fun _ fits => fits.weight_le)
    (grammar.nonterminalCount * (grammar.terminalCount + 1) + 1) (fits_start grammar) (by omega)
  rw [← settle_eq _ (fits_start grammar)] at fits fixed
  exact ⟨fits, fun production member => Grows.foldl_fixed
    (fun production _ => extend_grows production) fits fixed production
    (Array.mem_toList_iff.mpr member)⟩

/-- A left-hand side begins with whatever its right-hand side begins with. -/
theorem union_eq_of_production (numbered : grammar.WellNumbered) {production : Production}
    (member : production ∈ grammar.productions) :
    ((ofGrammar grammar).ofSymbol production.lhs).union
      ((ofGrammar grammar).ofSequence production.rhs) =
        (ofGrammar grammar).ofSymbol production.lhs := by
  obtain ⟨fits, fixed⟩ := ofGrammar_fixed grammar
  have range := numbered.lhs_range production member
  have inside : production.lhs - (ofGrammar grammar).terminalCount <
      (ofGrammar grammar).beginnings.size := by
    rw [fits.size, fits.terminalCount, FlatGrammar.nonterminalCount]
    omega
  have same := congrArg FirstSets.beginnings (fixed production member)
  simp only [extend] at same
  have found := Array.getElem?_eq_getElem inside
  have equal := modify_eq_iff.mp same _ found
  have nonterminal : ¬ production.lhs < (ofGrammar grammar).terminalCount := by
    rw [fits.terminalCount]
    omega
  simpa [ofSymbol, nonterminal, Array.getD_eq_getD_getElem?, found] using equal

theorem ofSequence_append (first second : List Nat) :
    sets.ofSequence (first ++ second) = (sets.ofSequence first).append (sets.ofSequence second) := by
  induction first with
  | nil => exact (Beginning.empty_append _).symm
  | cons symbol symbols ih => simp only [List.cons_append, ofSequence, ih, Beginning.append_assoc]

/-! ## Nothing else begins -/

/-- All that the sets say of the nonterminals of a grammar is derived from these. -/
structure Derived (grammar : FlatGrammar) (sets : FirstSets) : Prop where
  terminalCount : sets.terminalCount = grammar.terminalCount
  each : ∀ (place : Nat) beginning, sets.beginnings[place]? = some beginning →
    beginning.Derived grammar [grammar.terminalCount + place]

namespace Derived

theorem ofSymbol (derived : sets.Derived grammar) (symbol : Nat) :
    (sets.ofSymbol symbol).Derived grammar [symbol] := by
  unfold FirstSets.ofSymbol
  rw [derived.terminalCount]
  split
  case isTrue inside =>
      have isTerminal : grammar.isTerminal symbol = true := decide_eq_true inside
      refine ⟨fun terminal member => ?_, nofun⟩
      obtain rfl : terminal = symbol := by simpa using member
      exact .of_terminal isTerminal []
  case isFalse outside =>
      rw [Array.getD_eq_getD_getElem?]
      cases found : sets.beginnings[symbol - grammar.terminalCount]? with
      | none => exact Beginning.derived_none
      | some beginning =>
          have here := derived.each _ beginning found
          rwa [Nat.add_sub_cancel' (Nat.le_of_not_lt outside)] at here

theorem ofSequence (derived : sets.Derived grammar) (symbols : List Nat) :
    (sets.ofSequence symbols).Derived grammar symbols := by
  induction symbols with
  | nil => exact Beginning.derived_empty
  | cons symbol symbols ih => exact (derived.ofSymbol symbol).append ih

theorem extend (derived : sets.Derived grammar) (numbered : grammar.WellNumbered)
    {production : Production} (member : production ∈ grammar.productions) :
    (sets.extend production).Derived grammar := by
  have range := (numbered.lhs_range production member).1
  refine ⟨derived.terminalCount, fun place beginning found => ?_⟩
  simp only [FirstSets.extend, Array.getElem?_modify, derived.terminalCount] at found
  split at found
  case isFalse => exact derived.each place beginning found
  case isTrue same =>
      obtain ⟨before, old, rfl⟩ := Option.map_eq_some_iff.mp found
      refine (derived.each place before old).union ?_
      rw [← same, Nat.add_sub_cancel' range]
      exact (derived.ofSequence production.rhs).of_derives (.of_production member)

end Derived

theorem derived_ofGrammar (numbered : grammar.WellNumbered) :
    (ofGrammar grammar).Derived grammar := by
  rw [ofGrammar, settle_eq _ (fits_start grammar)]
  refine settleWith_keeps (Derived grammar) (fun sets derived => ?step) _ ⟨rfl, ?first⟩
  case step =>
      exact List.foldlRecOn _ _ derived fun sets derived production member =>
        derived.extend numbered (Array.mem_toList_iff.mp member)
  case first =>
      intro place beginning found
      obtain ⟨_, rfl⟩ := Array.mem_replicate.mp (Array.mem_of_getElem? found)
      exact Beginning.derived_none

/-! ## Everything that begins is known -/

theorem covers_of_derives (numbered : grammar.WellNumbered) {before after : List Nat}
    (derives : grammar.Derives before after) :
    ((ofGrammar grammar).ofSequence before).Covers ((ofGrammar grammar).ofSequence after) := by
  induction derives with
  | refl => exact .refl _
  | tail _ rewrites ih =>
      obtain ⟨production, member, left, right, rfl, rfl⟩ := rewrites
      have inner := Beginning.covers_of_union_eq (union_eq_of_production numbered member)
      refine ih.trans ?_
      simp only [ofSequence_append, ofSequence, Beginning.append_assoc]
      exact (Beginning.Covers.refl _).append (inner.append (.refl _))

/-- A sequence of symbols begins with its first terminals and no others. -/
theorem contains_ofSequence_iff (numbered : grammar.WellNumbered) {symbols : List Nat}
    {terminal : Nat} :
    ((ofGrammar grammar).ofSequence symbols).tokens.contains terminal = true ↔
      grammar.Begins symbols terminal := by
  refine ⟨((derived_ofGrammar numbered).ofSequence symbols).tokens terminal, ?_⟩
  rintro ⟨isTerminal, rest, derives⟩
  refine (covers_of_derives numbered derives).tokens terminal
    (Beginning.contains_append_left ?_)
  have inside : terminal < (ofGrammar grammar).terminalCount := by
    rw [(ofGrammar_fixed grammar).1.terminalCount]
    simpa [FlatGrammar.isTerminal] using isTerminal
  simp [ofSymbol, inside]

/-- A sequence of symbols is nullable if and only if it derives the empty sequence. -/
theorem nullable_ofSequence_iff (numbered : grammar.WellNumbered) {symbols : List Nat} :
    ((ofGrammar grammar).ofSequence symbols).nullable = true ↔ grammar.Derives symbols [] :=
  ⟨((derived_ofGrammar numbered).ofSequence symbols).nullable,
    fun derives => (covers_of_derives numbered derives).nullable rfl⟩

/-- What a sequence of symbols yields begins as the sequence does. -/
theorem beginning_of_yields (numbered : grammar.WellNumbered) {symbols word : List Nat}
    (yields : grammar.Yields symbols word) :
    (word = [] → ((ofGrammar grammar).ofSequence symbols).nullable = true) ∧
      ∀ terminal ∈ word.head?,
        ((ofGrammar grammar).ofSequence symbols).tokens.contains terminal = true := by
  refine ⟨?_, fun terminal head => ?_⟩
  · rintro rfl
    exact (nullable_ofSequence_iff numbered).mpr yields.derives
  · obtain ⟨rest, rfl⟩ := List.head?_eq_some_iff.mp head
    exact (contains_ofSequence_iff numbered).mpr
      ⟨yields.isTerminal terminal List.mem_cons_self, rest, yields.derives⟩

/-- The first terminal of what a sequence yields, or else of what follows it. -/
theorem contains_followedBy (numbered : grammar.WellNumbered) {symbols word rest : List Nat}
    (yields : grammar.Yields symbols word) {follow : TokenSet} {final : Nat}
    (follows : follow.contains (rest.head?.getD final) = true) :
    (((ofGrammar grammar).ofSequence symbols).followedBy follow).contains
      ((word ++ rest).head?.getD final) = true := by
  obtain ⟨nullable, first⟩ := beginning_of_yields numbered yields
  cases word with
  | nil => simp [Beginning.followedBy, nullable rfl, follows]
  | cons token tokens =>
      have begins := first token rfl
      unfold Beginning.followedBy
      split <;> simp [begins]

end FirstSets

end Lalr
