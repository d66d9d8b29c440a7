set_option autoImplicit false

/-!
Finite sets of terminals, kept as the bits of words that are appended as far as they are needed.
Adding to a set tells whether there was anything to add.
-/

namespace Lalr

/-- A set of terminals. -/
structure TokenSet where
  words : List UInt64
deriving DecidableEq, Repr, Inhabited

namespace TokenSet

/-- The set without members. -/
def empty : TokenSet := ⟨[]⟩

/-- The word with a single bit. -/
def mask (bit : Nat) : UInt64 :=
  1 <<< bit.toUInt64

/-- The word at a place; behind the last one all are zero. -/
def wordAt (words : List UInt64) (place : Nat) : UInt64 :=
  words.getD place 0

/-- Membership of a terminal. Sealed, since two memberships are compared by their terminals and
sets, and never by what becomes of the words. -/
@[irreducible] def contains (set : TokenSet) (terminal : Nat) : Bool :=
  wordAt set.words (terminal / 64) &&& mask (terminal % 64) != 0

/-- Sets bits of the word at a place, behind as many zeros as it takes to get there. -/
def setBits (bits : UInt64) : Nat → List UInt64 → List UInt64
  | 0, [] => [bits]
  | 0, word :: words => (word ||| bits) :: words
  | place + 1, [] => 0 :: setBits bits place []
  | place + 1, word :: words => word :: setBits bits place words

/-- Sets all bits of other words, and tells whether one of them is new. -/
def merge : List UInt64 → List UInt64 → List UInt64 × Bool
  | [], others => (others, others.any (· != 0))
  | word :: words, [] => (word :: words, false)
  | word :: words, other :: others =>
      let merged := word ||| other
      let rest := merge words others
      (merged :: rest.1, merged != word || rest.2)

/-- The set with a terminal added, and whether it is new. -/
def insertNew (set : TokenSet) (terminal : Nat) : TokenSet × Bool :=
  let place := terminal / 64
  let words := setBits (mask (terminal % 64)) place set.words
  (⟨words⟩, wordAt words place != wordAt set.words place)

/-- The members of either set, and whether the first one lacked any. -/
def addAll (left right : TokenSet) : TokenSet × Bool :=
  let merged := merge left.words right.words
  (⟨merged.1⟩, merged.2)

/-- The set with a terminal added. -/
def insert (set : TokenSet) (terminal : Nat) : TokenSet :=
  (set.insertNew terminal).1

/-- The members of either set. -/
def union (left right : TokenSet) : TokenSet :=
  (left.addAll right).1

/-- The members in ascending order. -/
def toList (set : TokenSet) : List Nat :=
  (List.range (64 * set.words.length)).filter set.contains

/-! ## Words -/

@[simp] theorem wordAt_nil (place : Nat) : wordAt [] place = 0 := rfl

@[simp] theorem wordAt_cons_zero (word : UInt64) (words : List UInt64) :
    wordAt (word :: words) 0 = word := rfl

@[simp] theorem wordAt_cons_succ (word : UInt64) (words : List UInt64) (place : Nat) :
    wordAt (word :: words) (place + 1) = wordAt words place := rfl

theorem wordAt_setBits (bits : UInt64) (place : Nat) (words : List UInt64) (other : Nat) :
    wordAt (setBits bits place words) other =
      if other = place then wordAt words other ||| bits else wordAt words other := by
  induction place, words using setBits.induct generalizing other with
  | case1 => cases other <;> simp [setBits]
  | case2 word words => cases other <;> simp [setBits]
  | case3 place ih => cases other <;> simp [setBits, ih]
  | case4 place word words ih => cases other <;> simp [setBits, ih]

theorem wordAt_merge (words others : List UInt64) (place : Nat) :
    wordAt (merge words others).1 place = wordAt words place ||| wordAt others place := by
  induction words, others using merge.induct generalizing place with
  | case1 others => simp [merge]
  | case2 word words => simp [merge]
  | case3 word words other others ih => cases place <;> simp [merge, ih]

theorem getLast?_cons_ne_zero_iff {word : UInt64} {words : List UInt64} :
    (word :: words).getLast? ≠ some 0 ↔ (words = [] → word ≠ 0) ∧ words.getLast? ≠ some 0 := by
  cases words with
  | nil => simp
  | cons => simp [List.getLast?_cons_cons]

theorem trimmed_setBits {bits : UInt64} (some_bit : bits ≠ 0) (place : Nat) {words : List UInt64}
    (trimmed : words.getLast? ≠ some 0) : (setBits bits place words).getLast? ≠ some 0 := by
  have nonempty (place : Nat) (words : List UInt64) : setBits bits place words ≠ [] := by
    cases place <;> cases words <;> simp [setBits]
  induction place, words using setBits.induct with
  | case1 => simpa [setBits] using some_bit
  | case2 word words =>
      rw [getLast?_cons_ne_zero_iff] at trimmed
      rw [setBits, getLast?_cons_ne_zero_iff]
      exact ⟨fun _ zero => some_bit (UInt64.or_eq_zero_iff.mp zero).2, trimmed.2⟩
  | case3 place ih =>
      rw [setBits, getLast?_cons_ne_zero_iff]
      exact ⟨fun none => absurd none (nonempty _ _), ih trimmed⟩
  | case4 place word words ih =>
      rw [getLast?_cons_ne_zero_iff] at trimmed
      rw [setBits, getLast?_cons_ne_zero_iff]
      exact ⟨fun none => absurd none (nonempty _ _), ih trimmed.2⟩

theorem merge_eq_nil_iff {words others : List UInt64} :
    (merge words others).1 = [] ↔ words = [] ∧ others = [] := by
  cases words <;> cases others <;> simp [merge]

theorem trimmed_merge {words others : List UInt64} (trimmed : words.getLast? ≠ some 0)
    (trimmed' : others.getLast? ≠ some 0) : (merge words others).1.getLast? ≠ some 0 := by
  induction words, others using merge.induct with
  | case1 others => exact trimmed'
  | case2 word words => exact trimmed
  | case3 word words other others ih =>
      rw [getLast?_cons_ne_zero_iff] at trimmed trimmed'
      rw [merge, getLast?_cons_ne_zero_iff]
      refine ⟨fun none zero => ?_, ih trimmed.2 trimmed'.2⟩
      exact trimmed.1 (merge_eq_nil_iff.mp none).1 (UInt64.or_eq_zero_iff.mp zero).1

/-- A report of new bits is right: without one the words stay the same. -/
theorem merge_changed_iff {words others : List UInt64} (trimmed : others.getLast? ≠ some 0) :
    (merge words others).2 = true ↔ (merge words others).1 ≠ words := by
  induction words, others using merge.induct with
  | case1 others =>
      rw [merge, List.any_eq_true]
      constructor
      · rintro ⟨word, listed, _⟩
        exact List.ne_nil_of_mem listed
      · intro some_word
        refine ⟨others.getLast some_word, List.getLast_mem some_word, bne_iff_ne.mpr ?_⟩
        intro zero
        exact trimmed (zero ▸ List.getLast?_eq_some_getLast some_word)
  | case2 word words => simp [merge]
  | case3 word words other others ih =>
      have later := ih (getLast?_cons_ne_zero_iff.mp trimmed).2
      simp only [merge, Bool.or_eq_true, bne_iff_ne, later, ne_eq, List.cons.injEq]
      exact Decidable.not_and_iff_not_or_not.symm

/-- Words in which the bits are set already are left alone, and no others. -/
theorem setBits_eq_self_iff {bits : UInt64} (some_bit : bits ≠ 0) {place : Nat}
    {words : List UInt64} :
    setBits bits place words = words ↔ wordAt words place ||| bits = wordAt words place := by
  induction place, words using setBits.induct with
  | case1 => simp [setBits, some_bit]
  | case2 word words => simp [setBits]
  | case3 place ih => simp [setBits, some_bit]
  | case4 place word words ih => simp [setBits, ih]

theorem merge_nil (words : List UInt64) : merge words [] = (words, false) := by
  cases words <;> rfl

theorem merge_self (words : List UInt64) : (merge words words).1 = words := by
  induction words with
  | nil => rfl
  | cons word words ih => simp [merge, ih]

theorem merge_comm (words others : List UInt64) :
    (merge words others).1 = (merge others words).1 := by
  induction words, others using merge.induct with
  | case1 others => rw [merge_nil, merge]
  | case2 word words => rw [merge_nil, merge]
  | case3 word words other others ih => simp only [merge, ih, UInt64.or_comm]

theorem merge_assoc (first second third : List UInt64) :
    (merge (merge first second).1 third).1 = (merge first (merge second third).1).1 := by
  induction first generalizing second third with
  | nil => rfl
  | cons word first ih =>
      cases second with
      | nil => rfl
      | cons other second =>
          cases third with
          | nil => rfl
          | cons more third => simp only [merge, ih, UInt64.or_assoc]

/-- Setting bits is merging with words that hold only these. -/
theorem merge_setBits_nil (bits : UInt64) (place : Nat) (words : List UInt64) :
    (merge words (setBits bits place [])).1 = setBits bits place words := by
  induction place, words using setBits.induct with
  | case1 => rfl
  | case2 word words => simp [setBits, merge, merge_nil]
  | case3 place ih => rfl
  | case4 place word words ih => simp [setBits, merge, ih]

theorem eq_nil_of_wordAt_eq_zero {words : List UInt64} (trimmed : words.getLast? ≠ some 0)
    (zero : ∀ place, wordAt words place = 0) : words = [] := by
  induction words with
  | nil => rfl
  | cons word words ih =>
      rw [getLast?_cons_ne_zero_iff] at trimmed
      exact absurd (zero 0) (trimmed.1 (ih trimmed.2 fun place => zero (place + 1)))

/-- Words that have all the bits of others are left alone. -/
theorem merge_eq_of_wordAt {words others : List UInt64} (trimmed : others.getLast? ≠ some 0)
    (within : ∀ place, wordAt words place ||| wordAt others place = wordAt words place) :
    (merge words others).1 = words := by
  induction words, others using merge.induct with
  | case1 others =>
      have none : others = [] :=
        eq_nil_of_wordAt_eq_zero trimmed fun place => by simpa using within place
      rw [none, merge_nil]
  | case2 word words => rfl
  | case3 word words other others ih =>
      rw [getLast?_cons_ne_zero_iff] at trimmed
      simp only [merge, List.cons.injEq]
      exact ⟨within 0, ih trimmed.2 fun place => within (place + 1)⟩

theorem toNat_mask (bit : Nat) : (mask bit).toNat = 1 <<< (bit % 64) := by
  have fits : 1 <<< (bit % 64) < 2 ^ 64 := by
    rw [Nat.one_shiftLeft]
    exact Nat.pow_lt_pow_right (by decide) (Nat.mod_lt _ (by decide))
  have amount : bit.toUInt64.toNat % 64 = bit % 64 := by
    simp only [Nat.toUInt64, UInt64.toNat_ofNat']
    omega
  rw [mask, UInt64.toNat_shiftLeft, amount, UInt64.toNat_one, Nat.mod_eq_of_lt fits]

theorem mask_ne_zero (bit : Nat) : mask bit ≠ 0 := by
  intro zero
  have value := toNat_mask bit
  rw [zero, Nat.one_shiftLeft] at value
  exact absurd value (Nat.ne_of_lt (Nat.two_pow_pos _))

/-- A bit of a word is looked up with the mask of this bit. -/
theorem and_mask_ne_zero (word : UInt64) (bit : Nat) :
    (word &&& mask bit != 0) = word.toNat.testBit (bit % 64) := by
  rw [Bool.eq_iff_iff, bne_iff_ne, ne_eq, ← UInt64.toNat_inj, UInt64.toNat_and, toNat_mask,
    Nat.one_shiftLeft]
  constructor
  · intro some_bit
    cases cleared : word.toNat.testBit (bit % 64) with
    | true => rfl
    | false =>
        refine absurd (Nat.eq_of_testBit_eq fun place => ?_) some_bit
        rw [Nat.testBit_and, Nat.testBit_two_pow, UInt64.toNat_zero, Nat.zero_testBit]
        by_cases here : bit % 64 = place
        · rw [← here, cleared, Bool.false_and]
        · rw [decide_eq_false here, Bool.and_false]
  · intro set zero
    have cleared := congrArg (fun value => value.testBit (bit % 64)) zero
    simp [Nat.testBit_and, Nat.testBit_two_pow_self, set] at cleared

/-! ## Sets -/

theorem contains_eq (set : TokenSet) (terminal : Nat) :
    set.contains terminal = (wordAt set.words (terminal / 64)).toNat.testBit (terminal % 64) := by
  rw [contains, and_mask_ne_zero, Nat.mod_mod]

@[simp] theorem contains_empty (terminal : Nat) : empty.contains terminal = false := by
  simp [contains_eq, empty]

@[simp] theorem contains_insert (set : TokenSet) (added terminal : Nat) :
    (set.insert added).contains terminal = (set.contains terminal || terminal == added) := by
  simp only [contains_eq, insert, insertNew, wordAt_setBits]
  by_cases place : terminal / 64 = added / 64
  · have bit : added % 64 % 64 = terminal % 64 ↔ terminal = added := by omega
    rw [if_pos place, UInt64.toNat_or, Nat.testBit_or, toNat_mask, Nat.one_shiftLeft,
      Nat.testBit_two_pow]
    simp only [bit]
    rfl
  · have other : terminal ≠ added := fun same => place (same ▸ rfl)
    rw [if_neg place, beq_false_of_ne other, Bool.or_false]

@[simp] theorem contains_union (left right : TokenSet) (terminal : Nat) :
    (left.union right).contains terminal = (left.contains terminal || right.contains terminal) := by
  simp only [contains_eq, union, addAll, wordAt_merge, UInt64.toNat_or, Nat.testBit_or]

theorem mem_toList {set : TokenSet} {terminal : Nat} :
    terminal ∈ set.toList ↔ set.contains terminal = true := by
  simp only [toList, List.mem_filter, List.mem_range, and_iff_right_iff_imp]
  intro member
  rw [contains_eq, wordAt, List.getD_eq_getElem?_getD] at member
  cases found : set.words[terminal / 64]? with
  | none => simp [found] at member
  | some word =>
      have inside := (List.getElem?_eq_some_iff.mp found).1
      omega

@[simp] theorem union_empty (set : TokenSet) : set.union empty = set :=
  congrArg mk (congrArg Prod.fst (merge_nil set.words))

@[simp] theorem empty_union (set : TokenSet) : empty.union set = set := rfl

@[simp] theorem union_self (set : TokenSet) : set.union set = set :=
  congrArg mk (merge_self set.words)

theorem union_comm (left right : TokenSet) : left.union right = right.union left :=
  congrArg mk (merge_comm left.words right.words)

theorem union_assoc (left middle right : TokenSet) :
    (left.union middle).union right = left.union (middle.union right) :=
  congrArg mk (merge_assoc left.words middle.words right.words)

theorem union_right_comm (left middle right : TokenSet) :
    (left.union middle).union right = (left.union right).union middle := by
  rw [union_assoc, union_comm middle, ← union_assoc]

theorem union_insert_empty (set : TokenSet) (terminal : Nat) :
    set.union (empty.insert terminal) = set.insert terminal :=
  congrArg mk (merge_setBits_nil _ _ set.words)

/-- Two unions add nothing if and only if neither of them does. -/
theorem union_union_eq_iff {left middle right : TokenSet} :
    (left.union middle).union right = left ↔
      left.union middle = left ∧ (left.union middle).union right = left.union middle := by
  constructor
  · intro same
    have first : left.union middle = left := by
      calc left.union middle
        _ = ((left.union middle).union right).union middle := by rw [same]
        _ = (left.union middle).union right := by
            rw [union_right_comm, union_assoc left, union_self]
        _ = left := same
    exact ⟨first, same.trans first.symm⟩
  · rintro ⟨first, second⟩
    exact second.trans first

/-- No word is kept that holds no bit. -/
def Trimmed (set : TokenSet) : Prop :=
  set.words.getLast? ≠ some 0

theorem trimmed_empty : Trimmed empty := nofun

theorem Trimmed.insert {set : TokenSet} (trimmed : set.Trimmed) (terminal : Nat) :
    (set.insert terminal).Trimmed :=
  trimmed_setBits (mask_ne_zero _) _ trimmed

theorem Trimmed.union {left right : TokenSet} (trimmed : left.Trimmed)
    (trimmed' : right.Trimmed) : (left.union right).Trimmed :=
  trimmed_merge trimmed trimmed'

/-- A terminal is new if and only if the set changes. -/
theorem insertNew_snd_iff {set : TokenSet} {terminal : Nat} :
    (set.insertNew terminal).2 = true ↔ set.insert terminal ≠ set := by
  simp only [insertNew, insert, bne_iff_ne, wordAt_setBits, if_true]
  exact not_congr ((setBits_eq_self_iff (mask_ne_zero _)).symm.trans
    ⟨congrArg mk, congrArg words⟩)

/-- Members are lacking if and only if the set changes. -/
theorem addAll_snd_iff {left right : TokenSet} (trimmed : right.Trimmed) :
    (left.addAll right).2 = true ↔ left.union right ≠ left := by
  rw [addAll, merge_changed_iff trimmed, union, addAll]
  exact not_congr ⟨congrArg mk, congrArg words⟩

/-- A set that has all members of another one is left alone by their union. -/
theorem union_eq_of_subset {left right : TokenSet} (trimmed : right.Trimmed)
    (within : ∀ terminal, right.contains terminal = true → left.contains terminal = true) :
    left.union right = left := by
  refine congrArg mk (merge_eq_of_wordAt trimmed fun place => ?_)
  refine UInt64.toNat_inj.mp (Nat.eq_of_testBit_eq fun bit => ?_)
  rw [UInt64.toNat_or, Nat.testBit_or]
  by_cases inside : bit < 64
  · have here := within (64 * place + bit)
    rw [contains_eq, contains_eq, show (64 * place + bit) / 64 = place by omega,
      show (64 * place + bit) % 64 = bit by omega] at here
    cases known : (wordAt right.words place).toNat.testBit bit with
    | false => rw [Bool.or_false]
    | true => rw [here known, Bool.or_true]
  · have beyond (word : UInt64) : word.toNat.testBit bit = false :=
      Nat.testBit_lt_two_pow (Nat.lt_of_lt_of_le word.toNat_lt
        (Nat.pow_le_pow_right (by decide) (Nat.le_of_not_lt inside)))
    rw [beyond, beyond, Bool.or_false]

end TokenSet

end Lalr
