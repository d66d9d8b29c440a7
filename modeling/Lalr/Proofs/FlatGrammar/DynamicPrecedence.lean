import Lalr.Proofs.Except
import Lalr.Proofs.FlatGrammar.Expansion

set_option autoImplicit false

/-!
Dynamic precedences. Every sequence that an expression stands for has the strongest of those that
apply to it. Magnitudes are compared within the range of the values, where the least value has none;
flattening breaks off where this value applies.
-/

namespace Lalr

namespace Rule

mutual

/-- The dynamic precedences that apply to each of the sequences of an expression, inner ones before
outer ones and those of a part before those of the next. What is repeated is a symbol of its own. -/
def appliedPrecedences : Rule → List (List Int32)
  | .blank => [[]]
  | .literal _ => [[]]
  | .pattern _ => [[]]
  | .token _ => [[]]
  | .keyword _ => [[]]
  | .symbol _ => [[]]
  | .seq items => appliedInSeq items
  | .choice items => appliedInChoice items
  | .optional body => body.appliedPrecedences ++ [[]]
  | .repeat0 _ => [[], []]
  | .repeat1 _ => [[]]
  | .prec _ _ body => body.appliedPrecedences
  | .dynamicPrec value body => body.appliedPrecedences.map (· ++ [value])
  | .field _ body => body.appliedPrecedences
  | .aliased _ _ body => body.appliedPrecedences
  | .immediate body => body.appliedPrecedences

/-- Those that apply to the sequences of several expressions one behind the other. -/
def appliedInSeq : List Rule → List (List Int32)
  | [] => [[]]
  | item :: items => joinAll item.appliedPrecedences (appliedInSeq items)

/-- Those that apply to the sequences of several expressions. -/
def appliedInChoice : List Rule → List (List Int32)
  | [] => []
  | item :: items => item.appliedPrecedences ++ appliedInChoice items

end

mutual

/-- The dynamic precedences in an expression, what is repeated included; a token has none. -/
def dynamicPrecedences : Rule → List Int32
  | .blank => []
  | .literal _ => []
  | .pattern _ => []
  | .token _ => []
  | .keyword _ => []
  | .symbol _ => []
  | .seq items => dynamicPrecedencesOf items
  | .choice items => dynamicPrecedencesOf items
  | .optional body => body.dynamicPrecedences
  | .repeat0 body => body.dynamicPrecedences
  | .repeat1 body => body.dynamicPrecedences
  | .prec _ _ body => body.dynamicPrecedences
  | .dynamicPrec value body => value :: body.dynamicPrecedences
  | .field _ body => body.dynamicPrecedences
  | .aliased _ _ body => body.dynamicPrecedences
  | .immediate body => body.dynamicPrecedences

/-- The dynamic precedences in several expressions. -/
def dynamicPrecedencesOf : List Rule → List Int32
  | [] => []
  | item :: items => item.dynamicPrecedences ++ dynamicPrecedencesOf items

end

end Rule

namespace Rule

mutual

theorem patternText_ne_noMagnitude {rule : String} {body : Rule} :
    body.patternText rule ≠ .error .noMagnitude := by
  intro broken
  cases body with
  | blank | literal | pattern | symbol | keyword | field | aliased | immediate => cases broken
  | token body | prec _ _ body | dynamicPrec _ body =>
      rw [patternText] at broken
      exact patternText_ne_noMagnitude broken
  | optional body | repeat0 body | repeat1 body =>
      rw [patternText] at broken
      rcases bind_eq_error_iff.mp broken with here | ⟨_, _, later⟩
      · exact patternText_ne_noMagnitude here
      · cases later
  | seq items | choice items =>
      rw [patternText] at broken
      rcases bind_eq_error_iff.mp broken with here | ⟨_, _, later⟩
      · exact patternTexts_ne_noMagnitude here
      · cases later

theorem patternTexts_ne_noMagnitude {rule : String} {items : List Rule} :
    patternTexts rule items ≠ .error .noMagnitude := by
  intro broken
  cases items with
  | nil => cases broken
  | cons item items =>
      rw [patternTexts] at broken
      rcases bind_eq_error_iff.mp broken with here | ⟨_, _, broken⟩
      · exact patternText_ne_noMagnitude here
      rcases bind_eq_error_iff.mp broken with here | ⟨_, _, later⟩
      · exact patternTexts_ne_noMagnitude here
      · cases later

end

end Rule

theorem checkPattern_ne_noMagnitude {rule text : String} :
    checkPattern rule text ≠ .error .noMagnitude := by
  unfold checkPattern
  split
  · exact nofun
  · split <;> exact nofun

theorem Rule.terminalForm_ne_noMagnitude {name : String} {body : Rule} :
    body.terminalForm name ≠ .error .noMagnitude := by
  intro broken
  unfold Rule.terminalForm at broken
  split at broken
  case h_1 => cases broken
  case h_2 =>
      rcases bind_eq_error_iff.mp broken with here | ⟨_, _, later⟩
      · exact checkPattern_ne_noMagnitude here
      · cases later
  case h_3 =>
      rcases bind_eq_error_iff.mp broken with here | ⟨_, _, broken⟩
      · exact Rule.patternText_ne_noMagnitude here
      rcases bind_eq_error_iff.mp broken with here | ⟨_, _, later⟩
      · exact checkPattern_ne_noMagnitude here
      · cases later

/-! ## Magnitudes -/

/-- The absolute value of a dynamic precedence, as a number without bounds. -/
def magnitude (value : Int32) : Nat :=
  value.toInt.natAbs

theorem hasMagnitude_iff {value : Int32} : hasMagnitude value = true ↔ value ≠ Int32.minValue :=
  bne_iff_ne

theorem toInt_abs {value : Int32} (fits : hasMagnitude value = true) :
    value.abs.toInt = magnitude value := by
  have other : value.toBitVec ≠ BitVec.intMin 32 := fun least =>
    hasMagnitude_iff.mp fits (Int32.toBitVec.inj least)
  show value.abs.toBitVec.toInt = _
  rw [Int32.toBitVec_abs, BitVec.toInt_abs_eq_natAbs_of_ne_intMin other]
  rfl

/-- Where no magnitude leaves the range, they are compared as numbers. -/
theorem stronger_eq {first second : Int32} (left : hasMagnitude first = true)
    (right : hasMagnitude second = true) :
    stronger first second = if magnitude first < magnitude second then second else first := by
  unfold stronger
  simp only [Int32.lt_iff_toInt_lt, toInt_abs left, toInt_abs right, Int.ofNat_lt]

theorem eq_zero_of_magnitude {value : Int32} (none : magnitude value = 0) : value = 0 :=
  Int32.toInt_inj.mp (Int.natAbs_eq_zero.mp none)

/-- What several dynamic precedences amount to: the first of those with the greatest magnitude, and
0 where there are none. -/
inductive Strongest : List Int32 → Int32 → Prop where
  | none : Strongest [] 0
  | first {before after : List Int32} {value : Int32} :
      (∀ other ∈ before, magnitude other < magnitude value) →
      (∀ other ∈ after, magnitude other ≤ magnitude value) →
      Strongest (before ++ value :: after) value

namespace Strongest

variable {values others : List Int32} {result : Int32}

theorem magnitude_le (strongest : Strongest values result) :
    ∀ value ∈ values, magnitude value ≤ magnitude result := by
  cases strongest with
  | none => exact nofun
  | first early late =>
      simp only [List.forall_mem_append, List.forall_mem_cons]
      exact ⟨fun other member => Nat.le_of_lt (early other member), Nat.le_refl _, late⟩

/-- Values in front that are weaker change nothing. -/
theorem behind (strongest : Strongest others result)
    (weaker : ∀ value ∈ values, magnitude value < magnitude result) :
    Strongest (values ++ others) result := by
  cases strongest with
  | none =>
      -- nothing is weaker than 0
      cases values with
      | nil => exact .none
      | cons value values => exact absurd (weaker value List.mem_cons_self) (Nat.not_lt_zero _)
  | first early late =>
      rw [← List.append_assoc]
      exact .first (List.forall_mem_append.mpr ⟨weaker, early⟩) late

/-- Values behind that are no stronger change nothing. -/
theorem ahead (strongest : Strongest values result)
    (atMost : ∀ other ∈ others, magnitude other ≤ magnitude result) :
    Strongest (values ++ others) result := by
  cases strongest with
  | none =>
      -- nothing but 0 is no stronger than 0
      cases others with
      | nil => exact .none
      | cons other others =>
          obtain ⟨here, later⟩ := List.forall_mem_cons.mp atMost
          obtain rfl := eq_zero_of_magnitude (Nat.eq_zero_of_le_zero here)
          exact @Strongest.first [] others 0 nofun later
  | first early late =>
      rw [List.append_assoc, List.cons_append]
      refine .first early (List.forall_mem_append.mpr ⟨late, atMost⟩)

end Strongest

/-- The strongest of several dynamic precedences, all of which have a magnitude. -/
structure Governs (values : List Int32) (result : Int32) : Prop where
  strongest : Strongest values result
  magnitudes : ∀ value ∈ values, hasMagnitude value = true

namespace Governs

theorem none : Governs [] 0 :=
  ⟨.none, nofun⟩

theorem single {value : Int32} (fits : hasMagnitude value = true) : Governs [value] value :=
  ⟨@Strongest.first [] [] value nofun nofun, List.forall_mem_singleton.mpr fits⟩

theorem hasMagnitude {values : List Int32} {result : Int32} (governs : Governs values result) :
    Lalr.hasMagnitude result = true := by
  obtain ⟨strongest, magnitudes⟩ := governs
  cases strongest with
  | none => rfl
  | first => exact magnitudes _ (List.mem_append_right _ List.mem_cons_self)

/-- The strongest of two lists is found among the strongest of each. -/
theorem append {values others : List Int32} {first second : Int32} (left : Governs values first)
    (right : Governs others second) : Governs (values ++ others) (stronger first second) := by
  refine ⟨?_, List.forall_mem_append.mpr ⟨left.magnitudes, right.magnitudes⟩⟩
  rw [stronger_eq left.hasMagnitude right.hasMagnitude]
  split
  case isTrue weaker =>
      exact right.strongest.behind fun value member =>
        Nat.lt_of_le_of_lt (left.strongest.magnitude_le value member) weaker
  case isFalse atLeast =>
      exact left.strongest.ahead fun other member =>
        Nat.le_trans (right.strongest.magnitude_le other member) (Nat.le_of_not_lt atLeast)

end Governs

/-- What stands behind one another is governed by the values of both. -/
theorem governs_appendAll {first second : List Alternative} {before behind : List (List Int32)}
    (left : List.Forall₂ Governs before (first.map Alternative.dynamicPrecedence))
    (right : List.Forall₂ Governs behind (second.map Alternative.dynamicPrecedence)) :
    List.Forall₂ Governs (joinAll before behind)
      ((appendAll first second).map Alternative.dynamicPrecedence) := by
  simp only [appendAll, List.map_flatMap, List.map_map]
  rw [List.forall₂_map_right_iff] at left right
  refine List.rel_flatMap left fun values alternative early => ?_
  exact List.rel_map (fun others other late => early.append late) right

namespace FlattenM

/-! ## Marks -/

theorem dynamicPrecedence_immediate {rule : String} {alternative twin : Alternative}
    {draft final : FlatDraft} (ran : (immediate rule alternative).run draft = .ok (twin, final)) :
    twin.dynamicPrecedence = alternative.dynamicPrecedence := by
  unfold immediate at ran
  split at ran
  case h_2 => exact absurd ran run_fail_ok
  case h_1 =>
      obtain ⟨current, middle, _, rest⟩ := run_bind_ok ran
      split at rest
      case h_1 => exact absurd rest run_fail_ok
      case h_2 =>
          split at rest
          case isTrue => exact absurd rest run_fail_ok
          case isFalse =>
              obtain ⟨_, _, _, done⟩ := run_bind_ok rest
              obtain ⟨rfl, _⟩ := run_pure_ok done
              rfl

theorem map_dynamicPrecedence_immediate {rule : String} {found twins : List Alternative}
    {draft final : FlatDraft} (ran : (found.mapM (immediate rule)).run draft = .ok (twins, final)) :
    twins.map Alternative.dynamicPrecedence = found.map Alternative.dynamicPrecedence := by
  induction found generalizing draft twins with
  | nil =>
      rw [List.mapM_nil] at ran
      obtain ⟨rfl, _⟩ := run_pure_ok ran
      rfl
  | cons alternative found ih =>
      rw [List.mapM_cons] at ran
      obtain ⟨twin, middle, first, others⟩ := run_bind_ok ran
      obtain ⟨more, last, mapped, done⟩ := run_bind_ok others
      obtain ⟨rfl, rfl⟩ := run_pure_ok done
      rw [List.map_cons, List.map_cons, dynamicPrecedence_immediate first, ih mapped]

theorem map_dynamicPrecedence_withAlias? {name : String} {named : Bool}
    {found renamed : List Alternative}
    (success : found.mapM (·.withAlias? name named) = some renamed) :
    renamed.map Alternative.dynamicPrecedence = found.map Alternative.dynamicPrecedence := by
  induction found generalizing renamed with
  | nil =>
      rw [List.mapM_nil] at success
      obtain rfl := Option.some.inj success
      rfl
  | cons alternative found ih =>
      rw [List.mapM_cons] at success
      obtain ⟨first, changed, rest⟩ := Option.bind_eq_some_iff.mp success
      obtain ⟨others, mapped, same⟩ := Option.bind_eq_some_iff.mp rest
      obtain rfl := Option.some.inj same
      rw [List.map_cons, List.map_cons, ih mapped]
      unfold Alternative.withAlias? at changed
      split at changed
      case h_1 =>
          obtain rfl := Option.some.inj changed
          rfl
      case h_2 => cases changed

/-! ## Expressions -/

variable {grammar : Grammar}

mutual

theorem flatten_governs (rule : String) (body : Rule) {draft final : FlatDraft}
    {found : List Alternative} (ran : (flatten grammar rule body).run draft = .ok (found, final)) :
    List.Forall₂ Governs body.appliedPrecedences (found.map Alternative.dynamicPrecedence) := by
  cases body with
  | blank =>
      rw [flatten] at ran
      obtain ⟨rfl, _⟩ := run_pure_ok ran
      exact .cons .none .nil
  | literal text =>
      rw [flatten] at ran
      obtain ⟨_, _, _, done⟩ := run_bind_ok ran
      obtain ⟨rfl, _⟩ := run_pure_ok done
      exact .cons .none .nil
  | pattern text =>
      rw [flatten] at ran
      obtain ⟨_, _, _, done⟩ := run_bind_ok ran
      obtain ⟨rfl, _⟩ := run_pure_ok done
      exact .cons .none .nil
  | token body =>
      rw [flatten] at ran
      obtain ⟨_, _, _, rest⟩ := run_bind_ok ran
      obtain ⟨_, _, _, done⟩ := run_bind_ok rest
      obtain ⟨rfl, _⟩ := run_pure_ok done
      exact .cons .none .nil
  | keyword name =>
      rw [flatten] at ran
      obtain ⟨_, rest⟩ := run_check_ok ran
      obtain ⟨_, _, _, done⟩ := run_bind_ok rest
      obtain ⟨rfl, _⟩ := run_pure_ok done
      exact .cons .none .nil
  | symbol name =>
      rw [flatten] at ran
      obtain ⟨_, _, _, done⟩ := run_bind_ok ran
      obtain ⟨rfl, _⟩ := run_pure_ok done
      exact .cons .none .nil
  | seq items =>
      rw [flatten] at ran
      have start : List.Forall₂ Governs [[]]
          ([Alternative.empty].map Alternative.dynamicPrecedence) := .cons .none .nil
      have done := flattenSeq_governs rule items start ran
      rwa [joinAll_empty_left] at done
  | choice items =>
      rw [flatten] at ran
      exact flattenChoice_governs rule items ran
  | optional body =>
      rw [flatten] at ran
      obtain ⟨plain, middle, listed, done⟩ := run_bind_ok ran
      obtain ⟨rfl, _⟩ := run_pure_ok done
      rw [List.map_append]
      exact List.rel_append (flatten_governs rule body listed) (.cons .none .nil)
  | repeat0 body =>
      rw [flatten] at ran
      obtain ⟨_, _, _, done⟩ := run_bind_ok ran
      obtain ⟨rfl, _⟩ := run_pure_ok done
      exact .cons .none (.cons .none .nil)
  | repeat1 body =>
      rw [flatten] at ran
      obtain ⟨_, _, _, done⟩ := run_bind_ok ran
      obtain ⟨rfl, _⟩ := run_pure_ok done
      exact .cons .none .nil
  | prec value associativity body =>
      rw [flatten] at ran
      obtain ⟨plain, middle, listed, rest⟩ := run_bind_ok ran
      obtain ⟨rfl, _⟩ := run_pure_ok (run_check_ok rest).2
      rw [List.map_map]
      exact flatten_governs rule body listed
  | dynamicPrec value body =>
      rw [flatten] at ran
      obtain ⟨plain, middle, listed, rest⟩ := run_bind_ok ran
      obtain ⟨passed, done⟩ := run_check_ok rest
      obtain ⟨rfl, _⟩ := run_pure_ok done
      have inner := flatten_governs rule body listed
      have known : plain = [] ∨ hasMagnitude value = true := by
        simpa [or_iff_not_imp_left] using passed
      rw [List.forall₂_map_right_iff] at inner
      rw [Rule.appliedPrecedences, List.map_map]
      rcases known with rfl | fits
      · rw [List.forall₂_nil_right_iff.mp inner]
        exact .nil
      · exact List.rel_map (fun values alternative each => each.append (.single fits)) inner
  | field name body =>
      rw [flatten] at ran
      obtain ⟨plain, middle, listed, rest⟩ := run_bind_ok ran
      obtain ⟨_, _, _, done⟩ := run_bind_ok rest
      obtain ⟨rfl, _⟩ := run_pure_ok done
      rw [List.map_map]
      exact flatten_governs rule body listed
  | aliased name named body =>
      rw [flatten] at ran
      obtain ⟨plain, middle, listed, rest⟩ := run_bind_ok ran
      split at rest
      case h_1 renamed success =>
          obtain ⟨rfl, _⟩ := run_pure_ok rest
          rw [map_dynamicPrecedence_withAlias? success]
          exact flatten_governs rule body listed
      case h_2 => exact absurd rest run_fail_ok
  | immediate body =>
      rw [flatten] at ran
      obtain ⟨plain, middle, listed, mapped⟩ := run_bind_ok ran
      rw [map_dynamicPrecedence_immediate mapped]
      exact flatten_governs rule body listed

theorem flattenSeq_governs (rule : String) (items : List Rule) {before found : List Alternative}
    {values : List (List Int32)} {draft final : FlatDraft}
    (early : List.Forall₂ Governs values (before.map Alternative.dynamicPrecedence))
    (ran : (flattenSeq grammar rule before items).run draft = .ok (found, final)) :
    List.Forall₂ Governs (joinAll values (Rule.appliedInSeq items))
      (found.map Alternative.dynamicPrecedence) := by
  cases items with
  | nil =>
      rw [flattenSeq] at ran
      obtain ⟨rfl, _⟩ := run_pure_ok ran
      rwa [Rule.appliedInSeq, joinAll_empty_right]
  | cons item items =>
      rw [flattenSeq] at ran
      obtain ⟨plain, middle, listed, rest⟩ := run_bind_ok ran
      rw [Rule.appliedInSeq, ← joinAll_assoc]
      exact flattenSeq_governs rule items
        (governs_appendAll early (flatten_governs rule item listed)) rest

theorem flattenChoice_governs (rule : String) (items : List Rule) {found : List Alternative}
    {draft final : FlatDraft}
    (ran : (flattenChoice grammar rule items).run draft = .ok (found, final)) :
    List.Forall₂ Governs (Rule.appliedInChoice items)
      (found.map Alternative.dynamicPrecedence) := by
  cases items with
  | nil =>
      rw [flattenChoice] at ran
      obtain ⟨rfl, _⟩ := run_pure_ok ran
      exact .nil
  | cons item items =>
      rw [flattenChoice] at ran
      obtain ⟨plain, middle, listed, rest⟩ := run_bind_ok ran
      obtain ⟨others, last, behind, done⟩ := run_bind_ok rest
      obtain ⟨rfl, _⟩ := run_pure_ok done
      rw [List.map_append]
      exact List.rel_append (flatten_governs rule item listed)
        (flattenChoice_governs rule items behind)

end

/-! ## Breaking off -/

theorem run_bind_error {α β : Type} {first : FlattenM α} {second : α → FlattenM β}
    {draft : FlatDraft} {mistake : GrammarError}
    (broken : (first >>= second).run draft = .error mistake) :
    first.run draft = .error mistake ∨
      ∃ value middle, first.run draft = .ok (value, middle) ∧
        (second value).run middle = .error mistake := by
  rw [StateT.run_bind] at broken
  exact (bind_eq_error_iff.mp broken).imp_right fun ⟨⟨value, middle⟩, ran, later⟩ =>
    ⟨value, middle, ran, later⟩

/-- An action that breaks off only under a condition. -/
def BreaksOnlyIf {α : Type} (condition : Prop) (action : FlattenM α) : Prop :=
  ∀ draft, action.run draft = .error .noMagnitude → condition

namespace BreaksOnlyIf

variable {α β : Type} {condition : Prop}

theorem imp {other : Prop} {action : FlattenM α} (breaks : BreaksOnlyIf condition action)
    (implies : condition → other) : BreaksOnlyIf other action :=
  fun draft broken => implies (breaks draft broken)

theorem pure (value : α) : BreaksOnlyIf condition (Pure.pure value : FlattenM α) := by
  intro draft broken
  rw [StateT.run_pure] at broken
  cases broken

theorem fail {mistake : GrammarError} (known : mistake = .noMagnitude → condition) :
    BreaksOnlyIf condition (fail mistake : FlattenM α) := by
  intro draft broken
  simp only [FlattenM.fail] at broken
  refine known ?_
  simpa [throw, throwThe, MonadExceptOf.throw, Functor.map, Except.map] using broken

theorem lift {action : Except GrammarError α} (returns : action ≠ .error .noMagnitude) :
    BreaksOnlyIf condition (liftM action : FlattenM α) := by
  intro draft broken
  cases action with
  | error mistake =>
      rw [show mistake = .noMagnitude by simpa [bind, Except.bind] using broken] at returns
      exact absurd rfl returns
  | ok value => cases broken

theorem get : BreaksOnlyIf condition (get : FlattenM FlatDraft) := by
  intro draft broken
  rw [StateT.run_get] at broken
  cases broken

theorem set (value : FlatDraft) : BreaksOnlyIf condition (set value : FlattenM PUnit) := by
  intro draft broken
  rw [StateT.run_set] at broken
  cases broken

theorem modify (change : FlatDraft → FlatDraft) :
    BreaksOnlyIf condition (modify change : FlattenM PUnit) := by
  intro draft broken
  rw [StateT.run_modify] at broken
  cases broken

theorem bind {first : FlattenM α} {second : α → FlattenM β} (before : BreaksOnlyIf condition first)
    (after : ∀ value, BreaksOnlyIf condition (second value)) :
    BreaksOnlyIf condition (first >>= second) := by
  intro draft broken
  rcases run_bind_error broken with here | ⟨value, middle, _, later⟩
  · exact before draft here
  · exact after value middle later

theorem mapM {action : α → FlattenM β} (each : ∀ item, BreaksOnlyIf condition (action item))
    (items : List α) : BreaksOnlyIf condition (items.mapM action) := by
  induction items with
  | nil =>
      rw [List.mapM_nil]
      exact .pure []
  | cons item items ih =>
      rw [List.mapM_cons]
      exact (each item).bind fun first => ih.bind fun others => .pure (first :: others)

theorem check {mistaken : Prop} [Decidable mistaken] {mistake : GrammarError}
    {next : Unit → FlattenM α} (known : mistaken → mistake = .noMagnitude → condition)
    (passes : ∀ value, BreaksOnlyIf condition (next value)) :
    BreaksOnlyIf condition (if mistaken then FlattenM.fail mistake >>= next else next ()) := by
  split
  case isTrue holds => exact (fail (known holds)).bind passes
  case isFalse => exact passes ()

theorem intern (terminal : Terminal) : BreaksOnlyIf condition (FlattenM.intern terminal) := by
  unfold FlattenM.intern
  refine get.bind fun draft => ?_
  split
  · exact .pure _
  · exact (set _).bind fun _ => .pure _

theorem internRule (name : String) (body : Rule) :
    BreaksOnlyIf condition (FlattenM.internRule name body) := by
  unfold FlattenM.internRule
  refine get.bind fun draft => ?_
  split
  · exact .pure _
  · exact (lift Rule.terminalForm_ne_noMagnitude).bind fun _ => intern _

theorem internPattern (rule text : String) :
    BreaksOnlyIf condition (FlattenM.internPattern rule text) := by
  unfold FlattenM.internPattern
  refine (lift checkPattern_ne_noMagnitude).bind fun _ => get.bind fun draft => ?_
  split
  · exact .pure _
  · exact (set _).bind fun _ => intern _

theorem resolve {grammar : Grammar} (rule name : String) :
    BreaksOnlyIf condition (FlattenM.resolve grammar rule name) := by
  unfold FlattenM.resolve
  split
  · exact .pure _
  · rw [map_eq_pure_bind]
    exact (internRule _ _).bind fun _ => .pure _
  · refine get.bind fun draft => ?_
    split
    · exact .pure _
    · exact fail nofun

theorem immediate (rule : String) (alternative : Alternative) :
    BreaksOnlyIf condition (FlattenM.immediate rule alternative) := by
  unfold FlattenM.immediate
  split
  case h_2 => exact fail nofun
  case h_1 =>
      refine get.bind fun draft => ?_
      split
      · exact fail nofun
      · split
        · exact fail nofun
        · exact (intern _).bind fun _ => .pure _

/-- A repetition breaks off where its content does. -/
theorem repetition {rule : String} {content : Rule} {alternatives : FlattenM (List Alternative)}
    (inside : BreaksOnlyIf condition alternatives) :
    BreaksOnlyIf condition (FlattenM.repetition rule content alternatives) := by
  unfold FlattenM.repetition
  refine get.bind fun draft => ?_
  split
  · exact .pure _
  · refine (set _).bind fun _ => inside.bind fun found => check (fun _ => nofun) fun _ => ?_
    exact (modify _).bind fun _ => .pure _

end BreaksOnlyIf

mutual

/-- Flattening breaks off only where the least value applies to what was found. -/
theorem flatten_breaksOnlyIf (rule : String) (body : Rule) :
    BreaksOnlyIf (Int32.minValue ∈ body.dynamicPrecedences) (flatten grammar rule body) := by
  cases body with
  | blank =>
      rw [flatten]
      exact .pure _
  | literal text =>
      rw [flatten]
      exact (BreaksOnlyIf.intern _).bind fun _ => .pure _
  | pattern text =>
      rw [flatten]
      exact (BreaksOnlyIf.internPattern _ _).bind fun _ => .pure _
  | token body =>
      rw [flatten]
      exact (BreaksOnlyIf.lift Rule.patternText_ne_noMagnitude).bind fun _ =>
        (BreaksOnlyIf.internPattern _ _).bind fun _ => .pure _
  | keyword name =>
      rw [flatten]
      exact BreaksOnlyIf.check (fun _ => nofun) fun _ =>
        (BreaksOnlyIf.intern _).bind fun _ => .pure _
  | symbol name =>
      rw [flatten]
      exact (BreaksOnlyIf.resolve _ _).bind fun _ => .pure _
  | seq items =>
      rw [flatten]
      exact flattenSeq_breaksOnlyIf rule [.empty] items
  | choice items =>
      rw [flatten]
      exact flattenChoice_breaksOnlyIf rule items
  | optional body =>
      rw [flatten]
      exact (flatten_breaksOnlyIf rule body).bind fun _ => .pure _
  | repeat0 body | repeat1 body =>
      rw [flatten]
      exact (BreaksOnlyIf.repetition (flatten_breaksOnlyIf rule body)).bind fun _ => .pure _
  | prec value associativity body =>
      rw [flatten]
      exact (flatten_breaksOnlyIf rule body).bind fun _ =>
        BreaksOnlyIf.check (fun _ => nofun) fun _ => .pure _
  | dynamicPrec value body =>
      rw [flatten]
      refine ((flatten_breaksOnlyIf rule body).imp (List.mem_cons_of_mem _)).bind fun found =>
        BreaksOnlyIf.check (fun applies _ => ?_) fun _ => .pure _
      have least : value = Int32.minValue := by
        simpa [hasMagnitude] using (Bool.and_eq_true_iff.mp applies).2
      exact List.mem_cons.mpr (.inl least.symm)
  | field name body =>
      rw [flatten]
      exact (flatten_breaksOnlyIf rule body).bind fun _ =>
        (BreaksOnlyIf.modify _).bind fun _ => .pure _
  | aliased name named body =>
      rw [flatten]
      refine (flatten_breaksOnlyIf rule body).bind fun found => ?_
      split
      · exact .pure _
      · exact .fail nofun
  | immediate body =>
      rw [flatten]
      exact (flatten_breaksOnlyIf rule body).bind fun found =>
        BreaksOnlyIf.mapM (BreaksOnlyIf.immediate rule) found

theorem flattenSeq_breaksOnlyIf (rule : String) (before : List Alternative) (items : List Rule) :
    BreaksOnlyIf (Int32.minValue ∈ Rule.dynamicPrecedencesOf items)
      (flattenSeq grammar rule before items) := by
  cases items with
  | nil =>
      rw [flattenSeq]
      exact .pure _
  | cons item items =>
      rw [flattenSeq]
      exact ((flatten_breaksOnlyIf rule item).imp (List.mem_append_left _)).bind fun found =>
        (flattenSeq_breaksOnlyIf rule _ items).imp (List.mem_append_right _)

theorem flattenChoice_breaksOnlyIf (rule : String) (items : List Rule) :
    BreaksOnlyIf (Int32.minValue ∈ Rule.dynamicPrecedencesOf items)
      (flattenChoice grammar rule items) := by
  cases items with
  | nil =>
      rw [flattenChoice]
      exact .pure _
  | cons item items =>
      rw [flattenChoice]
      exact ((flatten_breaksOnlyIf rule item).imp (List.mem_append_left _)).bind fun found =>
        ((flattenChoice_breaksOnlyIf rule items).imp (List.mem_append_right _)).bind fun _ =>
          .pure _

end

end FlattenM

/-- Whatever dynamic precedences an expression holds, each alternative that it flattens to has 0 if
none applies to it, and else the first of those that apply to it whose magnitude is greatest; and
all that apply have a magnitude. Flattening breaks off over a magnitude only if the expression holds
the least value. -/
theorem dynamicPrecedence_of_flatten (grammar : Grammar) (rule : String) (body : Rule)
    (draft : FlatDraft) :
    (∀ found final, (flatten grammar rule body).run draft = .ok (found, final) →
      List.Forall₂ (fun values alternative =>
        Strongest values alternative.dynamicPrecedence ∧ Int32.minValue ∉ values)
        body.appliedPrecedences found) ∧
    ((flatten grammar rule body).run draft = .error .noMagnitude →
      Int32.minValue ∈ body.dynamicPrecedences) := by
  refine ⟨fun found final ran => ?_, FlattenM.flatten_breaksOnlyIf rule body draft⟩
  have governed := List.forall₂_map_right_iff.mp (FlattenM.flatten_governs rule body ran)
  refine governed.imp fun values alternative each => ⟨each.strongest, fun least => ?_⟩
  exact hasMagnitude_iff.mp (each.magnitudes _ least) rfl

/-- Two parts, the second in one of three forms, with dynamic precedences around and inside. -/
def rankedRule : Rule :=
  .seq [.dynamicPrec 3 (.literal "a"),
    .choice [.dynamicPrec (-5) (.optional (.dynamicPrec 5 (.literal "b"))),
      .repeat1 (.dynamicPrec 9 (.literal "c"))]]

/-- A grammar whose only rule has dynamic precedences. -/
def rankedGrammar : Grammar :=
  ⟨{ name := "ranked", rules := [("start", rankedRule)] }, by decide⟩

theorem dynamicPrecedence_of_flatten_ranked :
    (∃ found final, (flatten rankedGrammar "start" rankedRule).run {} = .ok (found, final) ∧
      found.map Alternative.dynamicPrecedence = [5, -5, 3] ∧
      List.Forall₂ (fun values alternative =>
        Strongest values alternative.dynamicPrecedence ∧ Int32.minValue ∉ values)
        [[3, 5, -5], [3, -5], [3]] found) ∧
    (flatten rankedGrammar "start" (.dynamicPrec Int32.minValue rankedRule)).run {} =
        .error .noMagnitude ∧
      Int32.minValue ∈ (Rule.dynamicPrec Int32.minValue rankedRule).dynamicPrecedences := by
  have broken : (flatten rankedGrammar "start" (.dynamicPrec Int32.minValue rankedRule)).run {} =
      .error .noMagnitude := rfl
  refine ⟨⟨_, _, rfl, rfl, ?_⟩, broken, ?_⟩
  · exact (dynamicPrecedence_of_flatten rankedGrammar "start" rankedRule {}).1 _ _ rfl
  · exact (dynamicPrecedence_of_flatten rankedGrammar "start" _ {}).2 broken

end Lalr
