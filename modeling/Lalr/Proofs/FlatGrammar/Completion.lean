import Lalr.Proofs.FlatGrammar.Expansion

set_option autoImplicit false

/-!
Flattening a whole grammar: when it is done, every rule and every repetition has the
productions that its body is replaced by, and no others.
-/

namespace Lalr

/-- The syntactic rules with their bodies. -/
def Grammar.syntacticEntries (grammar : Grammar) : List (String × Rule) :=
  grammar.rules.filter fun entry => !entry.2.isLexical

namespace FlatDraft

/-- The first rules and all repetitions have their productions, the other rules have none. -/
structure Completed (grammar : Grammar) (draft : FlatDraft) (count : Nat) : Prop where
  closed : ∀ index < draft.repetitions.length, draft.Closed grammar index
  rules : ∀ index < count, ∀ name body, grammar.syntacticEntries[index]? = some (name, body) →
    ∃ found, draft.Flattens grammar body found ∧
      ∀ symbols, draft.HasProduction (.rule index) symbols ↔ symbols ∈ found
  later : ∀ index symbols, count ≤ index → ¬ draft.HasProduction (.rule index) symbols

variable {grammar : Grammar}

theorem Completed.grow {before after : FlatDraft} {count : Nat}
    (completed : before.Completed grammar count) (grown : GrowsTo grammar before after) :
    after.Completed grammar count where
  closed := by
    intro index bound
    by_cases old : index < before.repetitions.length
    · refine (completed.closed index old).mono grown.keys grown.repetitions ?_
      exact grown.hasProduction_iff fun other same => by cases same; exact old
    · exact grown.closed index (Nat.not_lt.mp old) bound
  rules := by
    intro index bound name body entry
    obtain ⟨found, flattens, productions⟩ := completed.rules index bound name body entry
    refine ⟨found, grown.flattens flattens, fun symbols => ?_⟩
    exact (grown.hasProduction_iff (fun _ same => by cases same) symbols).trans
      (productions symbols)
  later := by
    intro index symbols high has
    exact completed.later index symbols high
      ((grown.hasProduction_iff (fun _ same => by cases same) symbols).mp has)

theorem Completed.next {draft final : FlatDraft} {index : Nat}
    (completed : draft.Completed grammar index) {name : String} {body : Rule}
    (entry : grammar.syntacticEntries[index]? = some (name, body)) {found : List Alternative}
    (flattens : draft.Flattens grammar body (found.map Alternative.symbols))
    (change : final = { draft with
      productions := draft.productions ++
        found.eraseDups.map fun alternative => ⟨.rule index, alternative⟩ }) :
    final.Completed grammar (index + 1) := by
  have keys : draft.keys <+: final.keys := change ▸ List.prefix_refl _
  have repetitions : draft.repetitions <+: final.repetitions := change ▸ List.prefix_refl _
  have others : ∀ {lhs : SymbolRef}, lhs ≠ .rule index → ∀ symbols,
      final.HasProduction lhs symbols ↔ draft.HasProduction lhs symbols := by
    intro lhs other symbols
    rw [change, hasProduction_append_iff rfl]
    refine or_iff_left ?_
    rintro ⟨production, member, rfl, _⟩
    obtain ⟨_, _, rfl⟩ := List.mem_map.mp member
    exact other rfl
  constructor
  · intro repetition bound
    exact (completed.closed repetition (by simpa [change] using bound)).mono keys repetitions
      (others (by simp))
  · intro place bound otherName otherBody listed
    by_cases here : place = index
    · subst here
      obtain ⟨rfl, rfl⟩ := Prod.mk.inj (Option.some.inj (listed.symm.trans entry))
      refine ⟨_, flattens.mono keys repetitions, fun symbols => ?_⟩
      rw [change, hasProduction_append_iff rfl]
      constructor
      · rintro (old | ⟨production, member, _, rfl⟩)
        · exact absurd old (completed.later place symbols (Nat.le_refl _))
        · obtain ⟨alternative, inside, rfl⟩ := List.mem_map.mp member
          exact List.mem_map_of_mem (List.mem_eraseDups.mp inside)
      · intro member
        obtain ⟨alternative, inside, rfl⟩ := List.mem_map.mp member
        exact .inr ⟨_, List.mem_map_of_mem (List.mem_eraseDups.mpr inside), rfl, rfl⟩
    · obtain ⟨sequences, known, productions⟩ :=
        completed.rules place (by omega) otherName otherBody listed
      refine ⟨sequences, known.mono keys repetitions, fun symbols => ?_⟩
      exact (others (fun same => here (SymbolRef.rule.inj same)) symbols).trans
        (productions symbols)
  · intro place symbols high has
    have other : SymbolRef.rule place ≠ .rule index := fun same => by cases same; omega
    exact completed.later place symbols (by omega) ((others other symbols).mp has)

end FlatDraft

namespace FlattenM

open FlatDraft

variable {grammar : Grammar}

theorem enterExtra_grows {extra : Rule} {draft final : FlatDraft} {result : Unit}
    (ran : (enterExtra grammar extra).run draft = .ok (result, final)) :
    GrowsTo grammar draft final := by
  have marked : ∀ {middle : FlatDraft} {index : Nat}, GrowsTo grammar draft middle →
      (modify fun draft : FlatDraft => { draft with
        terminals := draft.terminals.modify index fun terminal =>
          { terminal with extra := true } } : FlattenM Unit).run middle = .ok (result, final) →
      GrowsTo grammar draft final := by
    intro middle index grown modified
    have change := run_modify_ok modified
    have same : final.keys = middle.keys := by rw [change, keys_markExtra]
    exact grown.trans (.of_keys (same ▸ List.prefix_refl _) (by rw [change]) (by rw [change]))
  unfold enterExtra at ran
  dsimp only at ran
  split at ran
  case h_1 name =>
      split at ran
      · split at ran
        · obtain ⟨index, middle, entered, modified⟩ := run_bind_ok ran
          exact marked (internRule_grows entered).1 modified
        · obtain ⟨index, middle, failed, _⟩ := run_bind_ok ran
          exact absurd failed run_fail_ok
      · obtain ⟨index, middle, failed, _⟩ := run_bind_ok ran
        exact absurd failed run_fail_ok
  case h_2 text =>
      obtain ⟨index, middle, entered, modified⟩ := run_bind_ok ran
      exact marked (intern_grows entered).1 modified
  case h_3 text =>
      obtain ⟨index, middle, entered, modified⟩ := run_bind_ok ran
      exact marked (internPattern_grows entered).1 modified
  case h_4 =>
      obtain ⟨index, middle, failed, _⟩ := run_bind_ok ran
      exact absurd failed run_fail_ok

theorem forM_grows {α : Type} {items : List α} {action : α → FlattenM Unit}
    (each : ∀ item ∈ items, ∀ {draft final : FlatDraft} {result : Unit},
      (action item).run draft = .ok (result, final) → GrowsTo grammar draft final)
    {draft final : FlatDraft} {result : Unit}
    (ran : (items.forM action).run draft = .ok (result, final)) : GrowsTo grammar draft final := by
  induction items generalizing draft result with
  | nil =>
      simp only [List.forM_eq_forM, List.forM_nil] at ran
      obtain ⟨_, rfl⟩ := run_pure_ok ran
      exact .refl _
  | cons item items ih =>
      simp only [List.forM_eq_forM, List.forM_cons] at ran
      obtain ⟨_, middle, first, others⟩ := run_bind_ok ran
      exact (each item List.mem_cons_self first).trans
        (ih (fun other member => each other (List.mem_cons_of_mem _ member))
          (by simpa only [List.forM_eq_forM] using others))

theorem enterFixedTerminals_grows {draft final : FlatDraft} {result : Unit}
    (ran : (enterFixedTerminals grammar).run draft = .ok (result, final)) :
    GrowsTo grammar draft final := by
  unfold enterFixedTerminals at ran
  obtain ⟨_, first, interned, rest⟩ := run_bind_ok ran
  have behindWord : ∀ {middle : FlatDraft}, GrowsTo grammar draft middle →
      (do
        grammar.externals.forM fun name => do
          let _ ← intern (.ofExternal name)
        grammar.extras.forM (enterExtra grammar)).run middle = .ok (result, final) →
      GrowsTo grammar draft final := by
    intro middle grown ran
    obtain ⟨_, last, externals, extras⟩ := run_bind_ok ran
    refine (grown.trans (forM_grows ?_ externals)).trans
      (forM_grows (fun extra _ => enterExtra_grows) extras)
    intro name _ draft final result ran
    obtain ⟨_, middle, interned, done⟩ := run_bind_ok ran
    obtain ⟨_, rfl⟩ := run_pure_ok done
    exact (intern_grows interned).1
  have opened : GrowsTo grammar draft first := (intern_grows interned).1
  split at rest
  case h_1 => exact behindWord opened rest
  case h_2 word _ =>
      split at rest
      case h_1 =>
          obtain ⟨_, second, failed, others⟩ := run_bind_ok rest
          exact absurd failed run_fail_ok
      case h_2 body _ =>
          obtain ⟨_, second, entered, others⟩ := run_bind_ok rest
          exact behindWord (opened.trans (internRule_grows entered).1) others

theorem enterRules_completed {rules : List (String × Rule)} {index : Nat}
    {draft final : FlatDraft} {result : Unit} (sound : draft.Sound grammar)
    (completed : draft.Completed grammar index)
    (ahead : (rules.filter fun entry => !entry.2.isLexical) =
      grammar.syntacticEntries.drop index)
    (ran : (enterRules grammar rules index).run draft = .ok (result, final)) :
    final.Completed grammar grammar.syntacticEntries.length := by
  induction rules generalizing index draft with
  | nil =>
      rw [enterRules] at ran
      obtain ⟨_, rfl⟩ := run_pure_ok ran
      have finished : grammar.syntacticEntries.length ≤ index :=
        List.drop_eq_nil_iff.mp ahead.symm
      -- behind the last rule there is no left-hand side that a production could have
      refine ⟨completed.closed, fun place bound => completed.rules place (by omega), ?_⟩
      intro place symbols high has
      by_cases old : index ≤ place
      · exact completed.later place symbols old has
      · obtain ⟨production, member, left, _⟩ := has
        have inside := (sound.productions production member).1
        rw [left] at inside
        have bound : place < grammar.syntacticRules.length := inside
        rw [Grammar.syntacticRules, List.length_map] at bound
        exact absurd bound (Nat.not_lt.mpr high)
  | cons entry rules ih =>
      obtain ⟨name, body⟩ := entry
      rw [enterRules] at ran
      split at ran
      case isTrue lexical =>
          exact ih sound completed (by simpa [lexical] using ahead) ran
      case isFalse syntactic =>
          obtain ⟨found, middle, listed, rest⟩ := run_bind_ok ran
          obtain ⟨_, changed, modified, others⟩ := run_bind_ok rest
          have change := run_modify_ok modified
          obtain ⟨grown, flattens⟩ := flatten_flattens name body sound listed
          obtain ⟨kept, _, has⟩ := flatten_ok name body sound listed
          rw [List.filter_cons_of_pos (by simpa using syntactic)] at ahead
          have entry : grammar.syntacticEntries[index]? = some (name, body) := by
            rw [← List.head?_drop, ← ahead, List.head?_cons]
          have bound : index < grammar.syntacticRules.length := by
            rw [Grammar.syntacticRules, List.length_map]
            exact (List.getElem?_eq_some_iff.mp entry).1
          refine ih (sound_of_entered kept bound has change)
            ((completed.grow grown).next entry flattens change) ?_ others
          rw [← List.tail_drop, ← ahead, List.tail_cons]

end FlattenM

/-- Every rule and every repetition of a flattened grammar has the productions that its body
is replaced by, and no others. -/
theorem FlatDraft.completed_of_ofGrammar {grammar : Grammar} {draft : FlatDraft}
    (success : FlatDraft.ofGrammar grammar = .ok draft) :
    draft.Completed grammar grammar.syntacticEntries.length := by
  unfold FlatDraft.ofGrammar at success
  dsimp only at success
  cases ran : (do
      enterFixedTerminals grammar
      enterRules grammar grammar.rules 0 : FlattenM Unit).run {} with
  | error mistake =>
      rw [ran] at success
      exact absurd success (by simp [bind, Except.bind])
  | ok pair =>
      obtain ⟨result, final⟩ := pair
      rw [ran] at success
      obtain rfl : final = draft := by
        simpa [bind, Except.bind, pure, Except.pure] using success
      obtain ⟨_, middle, fixed, rules⟩ := FlattenM.run_bind_ok ran
      have grown : GrowsTo grammar {} middle := FlattenM.enterFixedTerminals_grows fixed
      have start : middle.Completed grammar 0 := by
        refine ⟨fun index bound => grown.closed index (Nat.zero_le _) bound, by simp, ?_⟩
        intro index symbols _ has
        obtain ⟨_, member, _⟩ :=
          (grown.hasProduction_iff (fun _ same => by cases same) symbols).mp has
        exact absurd member List.not_mem_nil
      exact FlattenM.enterRules_completed (FlattenM.enterFixedTerminals_ok fixed) start rfl rules

end Lalr
