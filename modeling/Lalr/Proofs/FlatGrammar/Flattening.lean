import Lalr.FlatGrammar.Numbering

set_option autoImplicit false

/-!
What flattening keeps: the terminals found so far have distinct keys, the end of the input
comes first and is never referred to, and every symbol of a production has been entered.
-/

namespace Lalr

namespace FlatDraft

/-- A symbol other than the end of the input that has been entered. -/
def HasSymbol (grammar : Grammar) (draft : FlatDraft) : SymbolRef → Prop
  | .terminal index => 0 < index ∧ index < draft.terminals.length
  | .rule index => index < grammar.syntacticRules.length
  | .repetition index => index < draft.repetitions.length

/-- An alternative all of whose symbols have been entered. -/
def HasAlternative (grammar : Grammar) (draft : FlatDraft) (alternative : Alternative) : Prop :=
  ∀ step ∈ alternative.steps, draft.HasSymbol grammar step.symbol

/-- The left-hand side of a production is a syntactic rule or a repetition. -/
def HasLeftSide (grammar : Grammar) (draft : FlatDraft) : SymbolRef → Prop
  | .terminal _ => False
  | .rule index => index < grammar.syntacticRules.length
  | .repetition index => index < draft.repetitions.length

/-- The keys of the terminals found so far. -/
def keys (draft : FlatDraft) : List TerminalKey :=
  draft.terminals.map Terminal.key

/-- The invariant of flattening. -/
structure Sound (grammar : Grammar) (draft : FlatDraft) : Prop where
  endFirst : draft.keys.head? = some .endOfInput
  keysNodup : draft.keys.Nodup
  externals : ∀ name, .external name ∈ draft.keys → name ∈ grammar.externals
  productions : ∀ production ∈ draft.productions,
    draft.HasLeftSide grammar production.lhs ∧
      draft.HasAlternative grammar production.alternative

/-- What has been entered stays where it is. -/
structure Extends (before after : FlatDraft) : Prop where
  keys : before.keys <+: after.keys
  repetitions : before.repetitions.length ≤ after.repetitions.length

theorem length_keys (draft : FlatDraft) : draft.keys.length = draft.terminals.length := by
  simp [keys]

namespace Extends

@[refl] theorem refl (draft : FlatDraft) : Extends draft draft :=
  ⟨List.prefix_refl _, Nat.le_refl _⟩

theorem trans {first second third : FlatDraft} (before : Extends first second)
    (after : Extends second third) : Extends first third :=
  ⟨before.keys.trans after.keys, Nat.le_trans before.repetitions after.repetitions⟩

variable {grammar : Grammar} {before after : FlatDraft}

theorem terminals_le (grown : Extends before after) :
    before.terminals.length ≤ after.terminals.length := by
  have longer := grown.keys.length_le
  rwa [length_keys, length_keys] at longer

theorem hasSymbol (grown : Extends before after) {symbol : SymbolRef}
    (entered : before.HasSymbol grammar symbol) : after.HasSymbol grammar symbol := by
  cases symbol with
  | terminal index => exact ⟨entered.1, Nat.lt_of_lt_of_le entered.2 grown.terminals_le⟩
  | rule index => exact entered
  | repetition index => exact Nat.lt_of_lt_of_le entered grown.repetitions

theorem hasLeftSide (grown : Extends before after) {symbol : SymbolRef}
    (entered : before.HasLeftSide grammar symbol) : after.HasLeftSide grammar symbol := by
  cases symbol with
  | terminal index => exact entered
  | rule index => exact entered
  | repetition index => exact Nat.lt_of_lt_of_le entered grown.repetitions

theorem hasAlternative (grown : Extends before after) {alternative : Alternative}
    (entered : before.HasAlternative grammar alternative) :
    after.HasAlternative grammar alternative :=
  fun step member => grown.hasSymbol (entered step member)

end Extends

variable {grammar : Grammar} {draft : FlatDraft}

theorem Sound.nonempty (sound : draft.Sound grammar) : 0 < draft.terminals.length := by
  cases terminals : draft.terminals with
  | nil => simpa [keys, terminals] using sound.endFirst
  | cons terminal rest => simp

/-- Only the end of the input is in the first place. -/
theorem Sound.index_pos (sound : draft.Sound grammar) {key : TerminalKey} {index : Nat}
    (found : draft.keys[index]? = some key) (other : key ≠ .endOfInput) : 0 < index := by
  rcases Nat.eq_zero_or_pos index with rfl | positive
  · rw [← List.head?_eq_getElem?, sound.endFirst] at found
    exact absurd (Option.some.inj found).symm other
  · exact positive

end FlatDraft

/-- The place of a terminal is that of its key. -/
theorem getElem?_of_terminalIndex? {terminals : List Terminal} {key : TerminalKey} {index : Nat}
    (found : terminalIndex? terminals key = some index) :
    (terminals.map Terminal.key)[index]? = some key := by
  obtain ⟨bound, same, _⟩ := List.findIdx?_eq_some_iff_getElem.mp found
  rw [List.getElem?_map, List.getElem?_eq_getElem bound]
  simpa using same

theorem terminalIndex?_eq_none_iff {terminals : List Terminal} {key : TerminalKey} :
    terminalIndex? terminals key = none ↔ key ∉ terminals.map Terminal.key := by
  simp only [terminalIndex?, List.findIdx?_eq_none_iff, List.mem_map, not_exists, not_and]
  exact forall₂_congr fun terminal _ => by simp

/-- A terminal found by its key can be referred to. -/
theorem hasSymbol_of_terminalIndex? {grammar : Grammar} {draft : FlatDraft} {key : TerminalKey}
    {index : Nat} (sound : draft.Sound grammar)
    (found : terminalIndex? draft.terminals key = some index) (other : key ≠ .endOfInput) :
    draft.HasSymbol grammar (.terminal index) := by
  have placed := getElem?_of_terminalIndex? found
  refine ⟨sound.index_pos placed other, ?_⟩
  rw [← FlatDraft.length_keys]
  exact (List.getElem?_eq_some_iff.mp placed).1

namespace FlattenM

open FlatDraft

/-- A run of two actions is a run of the first and then one of the second. -/
theorem run_bind_ok {α β : Type} {first : FlattenM α} {second : α → FlattenM β}
    {draft final : FlatDraft} {result : β}
    (success : (first >>= second).run draft = .ok (result, final)) :
    ∃ value middle, first.run draft = .ok (value, middle) ∧
      (second value).run middle = .ok (result, final) := by
  rw [StateT.run_bind] at success
  cases ran : first.run draft with
  | error mistake => simp [ran, bind, Except.bind] at success
  | ok pair =>
      obtain ⟨value, middle⟩ := pair
      exact ⟨value, middle, rfl, by simpa [ran, bind, Except.bind] using success⟩

theorem run_pure_ok {α : Type} {value result : α} {draft final : FlatDraft}
    (success : (pure value : FlattenM α).run draft = .ok (result, final)) :
    result = value ∧ final = draft := by
  rw [StateT.run_pure] at success
  simp only [pure, Except.pure, Except.ok.injEq, Prod.mk.injEq] at success
  exact ⟨success.1.symm, success.2.symm⟩

theorem run_lift_ok {α : Type} {action : Except GrammarError α} {draft final : FlatDraft}
    {result : α} (success : (liftM action : FlattenM α).run draft = .ok (result, final)) :
    action = .ok result ∧ final = draft := by
  cases action with
  | error mistake => simp [bind, Except.bind] at success
  | ok value => simpa [bind, Except.bind, pure, Except.pure, eq_comm] using success

theorem run_fail_ok {α : Type} {mistake : GrammarError} {draft final : FlatDraft} {result : α} :
    (fail mistake : FlattenM α).run draft ≠ .ok (result, final) := by
  simp [fail, throw, throwThe, MonadExceptOf.throw, Functor.map, Except.map]

/-- What stands behind a check is only run where the check passes. -/
theorem run_check_ok {α : Type} {mistaken : Prop} [Decidable mistaken] {mistake : GrammarError}
    {next : Unit → FlattenM α} {draft final : FlatDraft} {result : α}
    (success : (if mistaken then fail mistake >>= next else next ()).run draft =
      .ok (result, final)) :
    ¬mistaken ∧ (next ()).run draft = .ok (result, final) := by
  split at success
  case isTrue =>
      obtain ⟨_, _, failed, _⟩ := run_bind_ok success
      exact absurd failed run_fail_ok
  case isFalse passed => exact ⟨passed, success⟩

theorem run_get_ok {draft final result : FlatDraft}
    (success : (get : FlattenM FlatDraft).run draft = .ok (result, final)) :
    result = draft ∧ final = draft := by
  rw [StateT.run_get] at success
  simp only [pure, Except.pure, Except.ok.injEq, Prod.mk.injEq] at success
  exact ⟨success.1.symm, success.2.symm⟩

theorem run_set_ok {draft final value : FlatDraft} {result : PUnit}
    (success : (set value : FlattenM PUnit).run draft = .ok (result, final)) : final = value := by
  rw [StateT.run_set] at success
  simp only [pure, Except.pure, Except.ok.injEq, Prod.mk.injEq] at success
  exact success.2.symm

theorem run_modify_ok {change : FlatDraft → FlatDraft} {draft final : FlatDraft} {result : PUnit}
    (success : (modify change : FlattenM PUnit).run draft = .ok (result, final)) :
    final = change draft := by
  rw [StateT.run_modify] at success
  simp only [pure, Except.pure, Except.ok.injEq, Prod.mk.injEq] at success
  exact success.2.symm

variable {grammar : Grammar}

/-- Interning a terminal keeps the invariant and gives the place of its key. -/
theorem intern_ok {terminal : Terminal} {draft final : FlatDraft} {index : Nat}
    (sound : draft.Sound grammar)
    (declared : ∀ name, terminal.key = .external name → name ∈ grammar.externals)
    (ran : (intern terminal).run draft = .ok (index, final)) :
    final.Sound grammar ∧ draft.Extends final ∧ final.keys[index]? = some terminal.key := by
  unfold intern at ran
  obtain ⟨current, middle, got, rest⟩ := run_bind_ok ran
  obtain ⟨rfl, rfl⟩ := run_get_ok got
  cases known : terminalIndex? middle.terminals terminal.key with
  | some place =>
      rw [known] at rest
      obtain ⟨rfl, rfl⟩ := run_pure_ok rest
      exact ⟨sound, .refl _, getElem?_of_terminalIndex? known⟩
  | none =>
      rw [known] at rest
      obtain ⟨_, changed, stored, rest⟩ := run_bind_ok rest
      obtain rfl := run_set_ok stored
      obtain ⟨rfl, rfl⟩ := run_pure_ok rest
      have fresh : terminal.key ∉ middle.keys := terminalIndex?_eq_none_iff.mp known
      have keys : ({ middle with terminals := middle.terminals ++ [terminal] } : FlatDraft).keys =
          middle.keys ++ [terminal.key] := by simp [keys]
      have grown : middle.Extends
          { middle with terminals := middle.terminals ++ [terminal] } :=
        ⟨keys ▸ List.prefix_append _ _, Nat.le_refl _⟩
      refine ⟨⟨?_, ?_, ?_, ?_⟩, grown, ?_⟩
      · rw [keys, List.head?_append, sound.endFirst]
        rfl
      · rw [keys, List.nodup_append]
        refine ⟨sound.keysNodup, by simp, ?_⟩
        intro key member added singleton same
        exact fresh (List.mem_singleton.mp singleton ▸ same ▸ member)
      · intro name member
        rw [keys, List.mem_append, List.mem_singleton] at member
        exact member.elim (sound.externals name) fun same => declared name same.symm
      · intro production member
        obtain ⟨lhs, alternative⟩ := sound.productions production member
        exact ⟨grown.hasLeftSide lhs, grown.hasAlternative alternative⟩
      · rw [keys, List.getElem?_append_right (by simp [FlatDraft.keys])]
        simp [FlatDraft.keys]

/-- What interning gives can be referred to. -/
theorem intern_hasSymbol {terminal : Terminal} {draft final : FlatDraft} {index : Nat}
    (sound : draft.Sound grammar)
    (declared : ∀ name, terminal.key = .external name → name ∈ grammar.externals)
    (other : terminal.key ≠ .endOfInput)
    (ran : (intern terminal).run draft = .ok (index, final)) :
    final.Sound grammar ∧ draft.Extends final ∧ final.HasSymbol grammar (.terminal index) := by
  obtain ⟨kept, grown, placed⟩ := intern_ok sound declared ran
  refine ⟨kept, grown, kept.index_pos placed other, ?_⟩
  rw [← length_keys]
  exact (List.getElem?_eq_some_iff.mp placed).1

/-- Adding productions whose symbols have been entered keeps the invariant. -/
theorem sound_of_grown {before : FlatDraft} (after : FlatDraft) (sound : before.Sound grammar)
    (keys : after.keys = before.keys)
    (repetitions : before.repetitions.length ≤ after.repetitions.length)
    (productions : ∀ production ∈ after.productions, production ∈ before.productions ∨
      (after.HasLeftSide grammar production.lhs ∧
        after.HasAlternative grammar production.alternative)) :
    after.Sound grammar ∧ before.Extends after := by
  have grown : before.Extends after := ⟨keys ▸ List.prefix_refl _, repetitions⟩
  refine ⟨⟨keys ▸ sound.endFirst, keys ▸ sound.keysNodup, keys ▸ sound.externals, ?_⟩, grown⟩
  intro production member
  rcases productions production member with old | new
  · obtain ⟨lhs, alternative⟩ := sound.productions production old
    exact ⟨grown.hasLeftSide lhs, grown.hasAlternative alternative⟩
  · exact new

theorem internRule_ok {name : String} {body : Rule} {draft final : FlatDraft} {index : Nat}
    (sound : draft.Sound grammar)
    (ran : (internRule name body).run draft = .ok (index, final)) :
    final.Sound grammar ∧ draft.Extends final ∧ final.HasSymbol grammar (.terminal index) := by
  unfold internRule at ran
  obtain ⟨current, middle, got, rest⟩ := run_bind_ok ran
  obtain ⟨rfl, rfl⟩ := run_get_ok got
  cases known : terminalIndex? middle.terminals (.named name) with
  | some place =>
      rw [known] at rest
      obtain ⟨rfl, rfl⟩ := run_pure_ok rest
      exact ⟨sound, .refl _, hasSymbol_of_terminalIndex? sound known (by simp)⟩
  | none =>
      rw [known] at rest
      obtain ⟨form, same, lifted, interned⟩ := run_bind_ok rest
      obtain ⟨_, rfl⟩ := run_lift_ok lifted
      exact intern_hasSymbol sound (by simp [Terminal.ofRule]) (by simp [Terminal.ofRule]) interned

theorem internPattern_ok {rule text : String} {draft final : FlatDraft} {index : Nat}
    (sound : draft.Sound grammar)
    (ran : (internPattern rule text).run draft = .ok (index, final)) :
    final.Sound grammar ∧ draft.Extends final ∧ final.HasSymbol grammar (.terminal index) := by
  unfold internPattern at ran
  obtain ⟨_, same, lifted, search⟩ := run_bind_ok ran
  obtain ⟨_, rfl⟩ := run_lift_ok lifted
  obtain ⟨current, middle, got, rest⟩ := run_bind_ok search
  obtain ⟨rfl, rfl⟩ := run_get_ok got
  cases known : terminalIndex? middle.terminals (.pattern text) with
  | some place =>
      rw [known] at rest
      obtain ⟨rfl, rfl⟩ := run_pure_ok rest
      exact ⟨sound, .refl _, hasSymbol_of_terminalIndex? sound known (by simp)⟩
  | none =>
      rw [known] at rest
      obtain ⟨_, counted, stored, interned⟩ := run_bind_ok rest
      obtain rfl := run_set_ok stored
      obtain ⟨counted, grown⟩ := sound_of_grown
        { middle with patternOwners := rule :: middle.patternOwners } sound rfl
        (Nat.le_refl _) fun _ member => .inl member
      obtain ⟨kept, more, entered⟩ := intern_hasSymbol counted
        (by simp [Terminal.ofPattern]) (by simp [Terminal.ofPattern]) interned
      exact ⟨kept, grown.trans more, entered⟩

theorem resolve_ok {rule name : String} {draft final : FlatDraft} {symbol : SymbolRef}
    (sound : draft.Sound grammar)
    (ran : (resolve grammar rule name).run draft = .ok (symbol, final)) :
    final.Sound grammar ∧ draft.Extends final ∧ final.HasSymbol grammar symbol := by
  unfold resolve at ran
  split at ran
  case h_1 index body syntactic =>
      obtain ⟨rfl, rfl⟩ := run_pure_ok ran
      exact ⟨sound, .refl _, (List.findIdx?_eq_some_iff_getElem.mp syntactic).1⟩
  case h_2 body absent lexical =>
      rw [map_eq_pure_bind] at ran
      obtain ⟨index, middle, interned, rest⟩ := run_bind_ok ran
      obtain ⟨rfl, rfl⟩ := run_pure_ok rest
      exact internRule_ok sound interned
  case h_3 absent unknown =>
      obtain ⟨current, middle, got, rest⟩ := run_bind_ok ran
      obtain ⟨rfl, rfl⟩ := run_get_ok got
      cases known : terminalIndex? middle.terminals (.external name) with
      | none =>
          rw [known] at rest
          exact absurd rest run_fail_ok
      | some place =>
          rw [known] at rest
          obtain ⟨rfl, rfl⟩ := run_pure_ok rest
          exact ⟨sound, .refl _, hasSymbol_of_terminalIndex? sound known (by simp)⟩

theorem immediate_ok {rule : String} {alternative twin : Alternative} {draft final : FlatDraft}
    (sound : draft.Sound grammar)
    (ran : (immediate rule alternative).run draft = .ok (twin, final)) :
    final.Sound grammar ∧ draft.Extends final ∧ final.HasAlternative grammar twin := by
  unfold immediate at ran
  split at ran
  case h_2 => exact absurd ran run_fail_ok
  case h_1 index precedence associativity field shownAs single =>
      obtain ⟨current, middle, got, rest⟩ := run_bind_ok ran
      obtain ⟨rfl, rfl⟩ := run_get_ok got
      cases base : middle.terminals[index]? with
      | none =>
          rw [base] at rest
          exact absurd rest run_fail_ok
      | some terminal =>
          rw [base] at rest
          dsimp only at rest
          split at rest
          case isTrue => exact absurd rest run_fail_ok
          case isFalse ordinary =>
              obtain ⟨place, entered, interned, rest⟩ := run_bind_ok rest
              obtain ⟨rfl, rfl⟩ := run_pure_ok rest
              obtain ⟨kept, grown, has⟩ := intern_hasSymbol sound
                (by simp [Terminal.twin]) (by simp [Terminal.twin]) interned
              refine ⟨kept, grown, ?_⟩
              intro step member
              obtain rfl := List.mem_singleton.mp member
              exact has

/-- An action whose alternatives consist of entered symbols. -/
def FindsEntered (grammar : Grammar) (action : FlattenM (List Alternative)) : Prop :=
  ∀ {draft final : FlatDraft} {found : List Alternative}, draft.Sound grammar →
    action.run draft = .ok (found, final) →
    final.Sound grammar ∧ draft.Extends final ∧
      ∀ alternative ∈ found, final.HasAlternative grammar alternative

theorem repetition_ok {rule : String} {content : Rule} {alternatives : FlattenM (List Alternative)}
    (finds : FindsEntered grammar alternatives) {draft final : FlatDraft} {index : Nat}
    (sound : draft.Sound grammar)
    (ran : (repetition rule content alternatives).run draft = .ok (index, final)) :
    final.Sound grammar ∧ draft.Extends final ∧ final.HasSymbol grammar (.repetition index) := by
  unfold repetition at ran
  obtain ⟨current, middle, got, search⟩ := run_bind_ok ran
  obtain ⟨rfl, rfl⟩ := run_get_ok got
  cases known : middle.repetitions.findIdx? fun known => known.content = content with
  | some place =>
      rw [known] at search
      obtain ⟨rfl, rfl⟩ := run_pure_ok search
      exact ⟨sound, .refl _, (List.findIdx?_eq_some_iff_getElem.mp known).1⟩
  | none =>
      rw [known] at search
      obtain ⟨_, entered, stored, body⟩ := run_bind_ok search
      obtain rfl := run_set_ok stored
      obtain ⟨found, flattened, listed, rest⟩ := run_bind_ok body
      obtain ⟨opened, more⟩ := sound_of_grown
        { middle with
          repetitions := middle.repetitions ++ [(⟨rule ++ "_repeat" ++ toString
            ((middle.repetitions.filter fun known => known.origin == rule).length + 1),
            rule, content⟩ : Repetition)] } sound rfl (by simp) fun _ member => .inl member
      obtain ⟨kept, grown, has⟩ := finds opened listed
      have inside : middle.repetitions.length < flattened.repetitions.length :=
        Nat.lt_of_lt_of_le (by simp) grown.repetitions
      dsimp only at rest
      split at rest
      · obtain ⟨_, stopped, failed, _⟩ := run_bind_ok rest
        exact absurd failed run_fail_ok
      · obtain ⟨_, changed, modified, done⟩ := run_bind_ok rest
        have change := run_modify_ok modified
        obtain ⟨rfl, rfl⟩ := run_pure_ok done
        obtain ⟨closed, last⟩ := sound_of_grown final kept (by rw [change]; rfl)
          (by simp [change]) (by
            rw [change]
            intro production member
            simp only [List.mem_append, List.mem_map] at member
            rcases member with (old | ⟨alternative, listed, rfl⟩) | ⟨alternative, listed, rfl⟩
            · exact .inl old
            · refine .inr ⟨inside, ?_⟩
              intro step member
              rcases List.mem_cons.mp member with rfl | member
              · exact inside
              · exact has alternative (List.mem_eraseDups.mp listed) step member
            · exact .inr ⟨inside, has alternative (List.mem_eraseDups.mp listed)⟩)
        exact ⟨closed, (more.trans grown).trans last, Nat.lt_of_lt_of_le inside last.repetitions⟩

/-! ## Alternatives of expressions -/

theorem hasAlternative_single {draft : FlatDraft} {symbol : SymbolRef}
    (entered : draft.HasSymbol grammar symbol) :
    draft.HasAlternative grammar (.single symbol) := by
  intro step member
  obtain rfl := List.mem_singleton.mp member
  exact entered

theorem hasAlternative_empty {draft : FlatDraft} : draft.HasAlternative grammar .empty :=
  fun _ member => absurd member List.not_mem_nil

/-- Marks on steps leave their symbols alone. -/
theorem hasAlternative_map {draft : FlatDraft} {alternative : Alternative} {precedence : Int32}
    {mark : DraftStep → DraftStep} (same : ∀ step, (mark step).symbol = step.symbol)
    (has : draft.HasAlternative grammar alternative) :
    draft.HasAlternative grammar ⟨alternative.steps.map mark, precedence⟩ := by
  intro step member
  obtain ⟨original, listed, rfl⟩ := List.mem_map.mp member
  rw [same]
  exact has original listed

theorem hasAlternative_append {draft : FlatDraft} {first second : List Alternative}
    (before : ∀ alternative ∈ first, draft.HasAlternative grammar alternative)
    (behind : ∀ alternative ∈ second, draft.HasAlternative grammar alternative) :
    ∀ alternative ∈ appendAll first second, draft.HasAlternative grammar alternative := by
  intro alternative member
  obtain ⟨left, leftMember, joined⟩ := List.mem_flatMap.mp member
  obtain ⟨right, rightMember, rfl⟩ := List.mem_map.mp joined
  intro step listed
  rcases List.mem_append.mp listed with inLeft | inRight
  · exact before left leftMember step inLeft
  · exact behind right rightMember step inRight

theorem mapM_immediate_ok {rule : String} {found twins : List Alternative} {draft final : FlatDraft}
    (sound : draft.Sound grammar)
    (ran : (found.mapM (immediate rule)).run draft = .ok (twins, final)) :
    final.Sound grammar ∧ draft.Extends final ∧
      ∀ alternative ∈ twins, final.HasAlternative grammar alternative := by
  induction found generalizing draft twins with
  | nil =>
      rw [List.mapM_nil] at ran
      obtain ⟨rfl, rfl⟩ := run_pure_ok ran
      exact ⟨sound, .refl _, by simp⟩
  | cons alternative found ih =>
      rw [List.mapM_cons] at ran
      obtain ⟨twin, middle, first, others⟩ := run_bind_ok ran
      obtain ⟨rest, last, mapped, done⟩ := run_bind_ok others
      obtain ⟨rfl, rfl⟩ := run_pure_ok done
      obtain ⟨kept, grown, has⟩ := immediate_ok sound first
      obtain ⟨closed, more, all⟩ := ih kept mapped
      refine ⟨closed, grown.trans more, ?_⟩
      intro alternative member
      rcases List.mem_cons.mp member with rfl | member
      · exact more.hasAlternative has
      · exact all alternative member

/-- What a partial function gives for a whole list comes from its members. -/
theorem exists_of_mem_mapM? {α β : Type} {change : α → Option β} {values : List α}
    {results : List β} (success : values.mapM change = some results) {result : β}
    (member : result ∈ results) : ∃ value ∈ values, change value = some result := by
  induction values generalizing results with
  | nil =>
      rw [List.mapM_nil] at success
      obtain rfl := Option.some.inj success
      exact absurd member List.not_mem_nil
  | cons value values ih =>
      rw [List.mapM_cons] at success
      obtain ⟨first, changed, rest⟩ := Option.bind_eq_some_iff.mp success
      obtain ⟨others, mapped, same⟩ := Option.bind_eq_some_iff.mp rest
      obtain rfl := Option.some.inj same
      rcases List.mem_cons.mp member with rfl | later
      · exact ⟨value, List.mem_cons_self, changed⟩
      · obtain ⟨origin, listed, found⟩ := ih mapped later
        exact ⟨origin, List.mem_cons_of_mem _ listed, found⟩

theorem withAlias?_ok {name : String} {named : Bool} {draft : FlatDraft}
    {alternative renamed : Alternative} (has : draft.HasAlternative grammar alternative)
    (success : alternative.withAlias? name named = some renamed) :
    draft.HasAlternative grammar renamed := by
  unfold Alternative.withAlias? at success
  split at success
  case h_1 step single =>
      obtain rfl := Option.some.inj success
      intro marked member
      obtain rfl := List.mem_singleton.mp member
      exact has step (by simp [single])
  case h_2 => exact absurd success (by simp)

mutual

theorem flatten_ok (rule : String) (body : Rule) :
    FindsEntered grammar (flatten grammar rule body) := by
  intro draft final found sound ran
  cases body with
  | blank =>
      rw [flatten] at ran
      obtain ⟨rfl, rfl⟩ := run_pure_ok ran
      exact ⟨sound, .refl _, by simpa using hasAlternative_empty⟩
  | literal text =>
      rw [flatten] at ran
      obtain ⟨index, middle, interned, done⟩ := run_bind_ok ran
      obtain ⟨rfl, rfl⟩ := run_pure_ok done
      obtain ⟨kept, grown, has⟩ := intern_hasSymbol sound
        (by simp [Terminal.ofLiteral]) (by simp [Terminal.ofLiteral]) interned
      exact ⟨kept, grown, by simpa using hasAlternative_single has⟩
  | pattern text =>
      rw [flatten] at ran
      obtain ⟨index, middle, interned, done⟩ := run_bind_ok ran
      obtain ⟨rfl, rfl⟩ := run_pure_ok done
      obtain ⟨kept, grown, has⟩ := internPattern_ok sound interned
      exact ⟨kept, grown, by simpa using hasAlternative_single has⟩
  | token body =>
      rw [flatten] at ran
      obtain ⟨text, same, lifted, rest⟩ := run_bind_ok ran
      obtain ⟨_, rfl⟩ := run_lift_ok lifted
      obtain ⟨index, middle, interned, done⟩ := run_bind_ok rest
      obtain ⟨rfl, rfl⟩ := run_pure_ok done
      obtain ⟨kept, grown, has⟩ := internPattern_ok sound interned
      exact ⟨kept, grown, by simpa using hasAlternative_single has⟩
  | keyword name =>
      rw [flatten] at ran
      split at ran
      · obtain ⟨_, middle, failed, _⟩ := run_bind_ok ran
        exact absurd failed run_fail_ok
      · obtain ⟨index, middle, interned, done⟩ := run_bind_ok ran
        obtain ⟨rfl, rfl⟩ := run_pure_ok done
        obtain ⟨kept, grown, has⟩ := intern_hasSymbol sound
          (by simp [Terminal.ofKeyword]) (by simp [Terminal.ofKeyword]) interned
        exact ⟨kept, grown, by simpa using hasAlternative_single has⟩
  | symbol name =>
      rw [flatten] at ran
      obtain ⟨symbol, middle, resolved, done⟩ := run_bind_ok ran
      obtain ⟨rfl, rfl⟩ := run_pure_ok done
      obtain ⟨kept, grown, has⟩ := resolve_ok sound resolved
      exact ⟨kept, grown, by simpa using hasAlternative_single has⟩
  | seq items =>
      rw [flatten] at ran
      exact flattenSeq_ok rule items sound (by simpa using hasAlternative_empty) ran
  | choice items =>
      rw [flatten] at ran
      exact flattenChoice_ok rule items sound ran
  | optional body =>
      rw [flatten] at ran
      obtain ⟨plain, middle, listed, done⟩ := run_bind_ok ran
      obtain ⟨rfl, rfl⟩ := run_pure_ok done
      obtain ⟨kept, grown, has⟩ := flatten_ok rule body sound listed
      refine ⟨kept, grown, ?_⟩
      intro alternative member
      rcases List.mem_append.mp member with inBody | empty
      · exact has alternative inBody
      · obtain rfl := List.mem_singleton.mp empty
        exact hasAlternative_empty
  | repeat1 body =>
      rw [flatten] at ran
      obtain ⟨index, middle, entered, done⟩ := run_bind_ok ran
      obtain ⟨rfl, rfl⟩ := run_pure_ok done
      obtain ⟨kept, grown, has⟩ := repetition_ok (flatten_ok rule body) sound entered
      exact ⟨kept, grown, by simpa using hasAlternative_single has⟩
  | repeat0 body =>
      rw [flatten] at ran
      obtain ⟨index, middle, entered, done⟩ := run_bind_ok ran
      obtain ⟨rfl, rfl⟩ := run_pure_ok done
      obtain ⟨kept, grown, has⟩ := repetition_ok (flatten_ok rule body) sound entered
      exact ⟨kept, grown, by simpa using ⟨hasAlternative_single has, hasAlternative_empty⟩⟩
  | prec value associativity body =>
      rw [flatten] at ran
      obtain ⟨plain, middle, listed, rest⟩ := run_bind_ok ran
      obtain ⟨rfl, rfl⟩ := run_pure_ok (run_check_ok rest).2
      obtain ⟨kept, grown, has⟩ := flatten_ok rule body sound listed
      refine ⟨kept, grown, ?_⟩
      intro alternative member
      obtain ⟨original, listed, rfl⟩ := List.mem_map.mp member
      exact hasAlternative_map (fun step => by split <;> rfl) (has original listed)
  | dynamicPrec value body =>
      rw [flatten] at ran
      obtain ⟨plain, middle, listed, rest⟩ := run_bind_ok ran
      obtain ⟨rfl, rfl⟩ := run_pure_ok (run_check_ok rest).2
      obtain ⟨kept, grown, has⟩ := flatten_ok rule body sound listed
      refine ⟨kept, grown, ?_⟩
      intro alternative member
      obtain ⟨original, listed, rfl⟩ := List.mem_map.mp member
      exact has original listed
  | field name body =>
      rw [flatten] at ran
      obtain ⟨plain, middle, listed, rest⟩ := run_bind_ok ran
      obtain ⟨_, changed, modified, done⟩ := run_bind_ok rest
      have change := run_modify_ok modified
      obtain ⟨rfl, rfl⟩ := run_pure_ok done
      obtain ⟨kept, grown, has⟩ := flatten_ok rule body sound listed
      obtain ⟨closed, last⟩ := sound_of_grown final kept (by rw [change]; rfl)
        (by simp [change]) (fun production member => .inl (by simpa [change] using member))
      refine ⟨closed, grown.trans last, ?_⟩
      intro alternative member
      obtain ⟨original, listed, rfl⟩ := List.mem_map.mp member
      exact hasAlternative_map (fun step => by split <;> rfl)
        (last.hasAlternative (has original listed))
  | aliased name named body =>
      rw [flatten] at ran
      obtain ⟨plain, middle, listed, rest⟩ := run_bind_ok ran
      obtain ⟨kept, grown, has⟩ := flatten_ok rule body sound listed
      split at rest
      case h_1 renamed success =>
          obtain ⟨rfl, rfl⟩ := run_pure_ok rest
          refine ⟨kept, grown, ?_⟩
          intro alternative member
          obtain ⟨original, listed, same⟩ :=
            exists_of_mem_mapM? success member
          exact withAlias?_ok (has original listed) same
      case h_2 => exact absurd rest run_fail_ok
  | immediate body =>
      rw [flatten] at ran
      obtain ⟨plain, middle, listed, mapped⟩ := run_bind_ok ran
      obtain ⟨kept, grown, _⟩ := flatten_ok rule body sound listed
      obtain ⟨closed, more, all⟩ := mapM_immediate_ok kept mapped
      exact ⟨closed, grown.trans more, all⟩

theorem flattenSeq_ok (rule : String) (items : List Rule) {before : List Alternative}
    {draft final : FlatDraft} {found : List Alternative} (sound : draft.Sound grammar)
    (entered : ∀ alternative ∈ before, draft.HasAlternative grammar alternative)
    (ran : (flattenSeq grammar rule before items).run draft = .ok (found, final)) :
    final.Sound grammar ∧ draft.Extends final ∧
      ∀ alternative ∈ found, final.HasAlternative grammar alternative := by
  cases items with
  | nil =>
      rw [flattenSeq] at ran
      obtain ⟨rfl, rfl⟩ := run_pure_ok ran
      exact ⟨sound, .refl _, entered⟩
  | cons item items =>
      rw [flattenSeq] at ran
      obtain ⟨plain, middle, listed, rest⟩ := run_bind_ok ran
      obtain ⟨kept, grown, has⟩ := flatten_ok rule item sound listed
      obtain ⟨closed, more, all⟩ := flattenSeq_ok rule items kept
        (hasAlternative_append (fun alternative member =>
          grown.hasAlternative (entered alternative member)) has) rest
      exact ⟨closed, grown.trans more, all⟩

theorem flattenChoice_ok (rule : String) (items : List Rule) {draft final : FlatDraft}
    {found : List Alternative} (sound : draft.Sound grammar)
    (ran : (flattenChoice grammar rule items).run draft = .ok (found, final)) :
    final.Sound grammar ∧ draft.Extends final ∧
      ∀ alternative ∈ found, final.HasAlternative grammar alternative := by
  cases items with
  | nil =>
      rw [flattenChoice] at ran
      obtain ⟨rfl, rfl⟩ := run_pure_ok ran
      exact ⟨sound, .refl _, by simp⟩
  | cons item items =>
      rw [flattenChoice] at ran
      obtain ⟨plain, middle, listed, rest⟩ := run_bind_ok ran
      obtain ⟨others, last, more, done⟩ := run_bind_ok rest
      obtain ⟨rfl, rfl⟩ := run_pure_ok done
      obtain ⟨kept, grown, has⟩ := flatten_ok rule item sound listed
      obtain ⟨closed, grownMore, all⟩ := flattenChoice_ok rule items kept more
      refine ⟨closed, grown.trans grownMore, ?_⟩
      intro alternative member
      rcases List.mem_append.mp member with first | second
      · exact grownMore.hasAlternative (has alternative first)
      · exact all alternative second

end

/-! ## Whole grammars -/

/-- Marking a terminal as an extra leaves the keys alone. -/
theorem keys_markExtra (draft : FlatDraft) (index : Nat) :
    ({ draft with terminals := draft.terminals.modify index fun terminal =>
        { terminal with extra := true } } : FlatDraft).keys = draft.keys := by
  apply List.ext_getElem?
  intro place
  simp only [FlatDraft.keys, List.getElem?_map, List.getElem?_modify]
  cases draft.terminals[place]? with
  | none => rfl
  | some terminal => simp only [Option.map_some]; split <;> rfl

/-- A draft stays sound when a terminal is marked as an extra. -/
theorem markExtra_ok {index : Nat} {draft final : FlatDraft} {result : Unit}
    (sound : draft.Sound grammar)
    (ran : (modify fun draft : FlatDraft => { draft with
      terminals := draft.terminals.modify index fun terminal => { terminal with extra := true } } :
        FlattenM Unit).run draft = .ok (result, final)) :
    final.Sound grammar ∧ draft.Extends final := by
  have change := run_modify_ok ran
  have keys : final.keys = draft.keys := by rw [change, keys_markExtra]
  exact sound_of_grown _ sound keys (by simp [change])
    (fun production member => .inl (by simpa [change] using member))

theorem enterExtra_ok {extra : Rule} {draft final : FlatDraft} {result : Unit}
    (sound : draft.Sound grammar)
    (ran : (enterExtra grammar extra).run draft = .ok (result, final)) :
    final.Sound grammar ∧ draft.Extends final := by
  have marked : ∀ {middle : FlatDraft} {index : Nat},
      middle.Sound grammar ∧ draft.Extends middle ∧
        middle.HasSymbol grammar (.terminal index) →
      (modify fun draft : FlatDraft => { draft with
        terminals := draft.terminals.modify index fun terminal =>
          { terminal with extra := true } } : FlattenM Unit).run middle = .ok (result, final) →
      final.Sound grammar ∧ draft.Extends final := by
    intro middle index ⟨kept, grown, _⟩ modified
    obtain ⟨closed, last⟩ := markExtra_ok kept modified
    exact ⟨closed, grown.trans last⟩
  unfold enterExtra at ran
  dsimp only at ran
  split at ran
  case h_1 name =>
      split at ran
      · split at ran
        · obtain ⟨index, middle, entered, modified⟩ := run_bind_ok ran
          exact marked (internRule_ok sound entered) modified
        · obtain ⟨index, middle, failed, _⟩ := run_bind_ok ran
          exact absurd failed run_fail_ok
      · obtain ⟨index, middle, failed, _⟩ := run_bind_ok ran
        exact absurd failed run_fail_ok
  case h_2 text =>
      obtain ⟨index, middle, entered, modified⟩ := run_bind_ok ran
      exact marked (intern_hasSymbol sound (by simp [Terminal.ofLiteral])
        (by simp [Terminal.ofLiteral]) entered) modified
  case h_3 text =>
      obtain ⟨index, middle, entered, modified⟩ := run_bind_ok ran
      exact marked (internPattern_ok sound entered) modified
  case h_4 =>
      obtain ⟨index, middle, failed, _⟩ := run_bind_ok ran
      exact absurd failed run_fail_ok

/-- Repeating an action that keeps the invariant keeps it. -/
theorem forM_ok {α : Type} {items : List α} {action : α → FlattenM Unit}
    (keeps : ∀ item ∈ items, ∀ {draft final : FlatDraft} {result : Unit}, draft.Sound grammar →
      (action item).run draft = .ok (result, final) → final.Sound grammar ∧ draft.Extends final)
    {draft final : FlatDraft} {result : Unit} (sound : draft.Sound grammar)
    (ran : (items.forM action).run draft = .ok (result, final)) :
    final.Sound grammar ∧ draft.Extends final := by
  induction items generalizing draft result with
  | nil =>
      simp only [List.forM_eq_forM, List.forM_nil] at ran
      obtain ⟨_, rfl⟩ := run_pure_ok ran
      exact ⟨sound, .refl _⟩
  | cons item items ih =>
      simp only [List.forM_eq_forM, List.forM_cons] at ran
      obtain ⟨_, middle, first, others⟩ := run_bind_ok ran
      obtain ⟨kept, grown⟩ := keeps item List.mem_cons_self sound first
      obtain ⟨closed, more⟩ :=
        ih (fun item member => keeps item (List.mem_cons_of_mem _ member)) kept
          (by simpa only [List.forM_eq_forM] using others)
      exact ⟨closed, grown.trans more⟩

/-- The end of the input is the first terminal that is entered. -/
theorem intern_endOfInput_ok {final : FlatDraft} {index : Nat}
    (ran : (intern .endOfInput).run {} = .ok (index, final)) : final.Sound grammar := by
  unfold intern at ran
  obtain ⟨current, middle, got, rest⟩ := run_bind_ok ran
  obtain ⟨rfl, rfl⟩ := run_get_ok got
  have absent : terminalIndex? ({} : FlatDraft).terminals Terminal.endOfInput.key = none := rfl
  rw [absent] at rest
  obtain ⟨_, changed, stored, done⟩ := run_bind_ok rest
  obtain rfl := run_set_ok stored
  obtain ⟨rfl, rfl⟩ := run_pure_ok done
  constructor
  · rfl
  · simp [FlatDraft.keys]
  · simp [FlatDraft.keys, Terminal.endOfInput]
  · simp

theorem enterFixedTerminals_ok {final : FlatDraft} {result : Unit}
    (ran : (enterFixedTerminals grammar).run {} = .ok (result, final)) : final.Sound grammar := by
  unfold enterFixedTerminals at ran
  obtain ⟨_, first, interned, rest⟩ := run_bind_ok ran
  have opened : first.Sound grammar := intern_endOfInput_ok interned
  have behindWord : ∀ {draft : FlatDraft}, draft.Sound grammar →
      (do
        grammar.externals.forM fun name => do
          let _ ← intern (.ofExternal name)
        grammar.extras.forM (enterExtra grammar)).run draft = .ok (result, final) →
      final.Sound grammar := by
    intro draft sound ran
    obtain ⟨_, middle, externals, extras⟩ := run_bind_ok ran
    have kept : middle.Sound grammar := (forM_ok (by
      intro name member draft final result sound ran
      obtain ⟨_, middle, interned, done⟩ := run_bind_ok ran
      obtain ⟨_, rfl⟩ := run_pure_ok done
      have declared : ∀ other, (Terminal.ofExternal name).key = .external other →
          other ∈ grammar.externals := by
        intro other same
        cases same
        exact member
      exact (intern_ok sound declared interned).imp_right And.left) sound externals).1
    exact (forM_ok (fun extra _ => enterExtra_ok) kept extras).1
  split at rest
  case h_1 => exact behindWord opened rest
  case h_2 word _ =>
      split at rest
      case h_1 =>
          obtain ⟨_, second, failed, others⟩ := run_bind_ok rest
          exact absurd failed run_fail_ok
      case h_2 body _ =>
          obtain ⟨_, second, entered, others⟩ := run_bind_ok rest
          exact behindWord (internRule_ok opened entered).1 others

/-- The productions of a rule keep the invariant. -/
theorem sound_of_entered {draft final : FlatDraft} {index : Nat} {found : List Alternative}
    (sound : draft.Sound grammar) (bound : index < grammar.syntacticRules.length)
    (has : ∀ alternative ∈ found, draft.HasAlternative grammar alternative)
    (change : final = { draft with
      productions := draft.productions ++
        found.eraseDups.map fun alternative => ⟨.rule index, alternative⟩ }) :
    final.Sound grammar := by
  refine (sound_of_grown final sound (by rw [change]; rfl) (by simp [change]) ?_).1
  rw [change]
  intro production member
  simp only [List.mem_append, List.mem_map] at member
  rcases member with old | ⟨alternative, listed, rfl⟩
  · exact .inl old
  · exact .inr ⟨bound, has alternative (List.mem_eraseDups.mp listed)⟩

theorem enterRules_ok {rules : List (String × Rule)} {index : Nat} {draft final : FlatDraft}
    {result : Unit} (sound : draft.Sound grammar)
    (enough : index + (rules.filter fun entry => !entry.2.isLexical).length ≤
      grammar.syntacticRules.length)
    (ran : (enterRules grammar rules index).run draft = .ok (result, final)) :
    final.Sound grammar := by
  induction rules generalizing index draft with
  | nil =>
      rw [enterRules] at ran
      obtain ⟨_, rfl⟩ := run_pure_ok ran
      exact sound
  | cons entry rules ih =>
      obtain ⟨name, body⟩ := entry
      rw [enterRules] at ran
      split at ran
      case isTrue lexical =>
          exact ih sound (by simpa [lexical] using enough) ran
      case isFalse syntactic =>
          obtain ⟨found, middle, listed, rest⟩ := run_bind_ok ran
          obtain ⟨_, changed, modified, others⟩ := run_bind_ok rest
          obtain ⟨kept, grown, has⟩ := flatten_ok name body sound listed
          have change := run_modify_ok modified
          rw [List.filter_cons_of_pos (by simpa using syntactic), List.length_cons] at enough
          exact ih (sound_of_entered kept (by omega) has change) (by omega) others

end FlattenM

/-- What a grammar flattens to satisfies the invariant. -/
theorem FlatDraft.sound_of_ofGrammar {grammar : Grammar} {draft : FlatDraft}
    (success : FlatDraft.ofGrammar grammar = .ok draft) : draft.Sound grammar := by
  unfold FlatDraft.ofGrammar at success
  dsimp only at success
  cases ran : (do
      enterFixedTerminals grammar
      enterRules grammar grammar.rules 0 : FlattenM Unit).run {} with
  | error mistake =>
      rw [ran] at success
      exact absurd success (by simp [bind, Except.bind])
  | ok pair =>
      obtain ⟨result, final⟩ := pair
      rw [ran] at success
      obtain rfl : final = draft := by
        simpa [bind, Except.bind, pure, Except.pure] using success
      obtain ⟨_, middle, fixed, rules⟩ := FlattenM.run_bind_ok ran
      exact FlattenM.enterRules_ok (FlattenM.enterFixedTerminals_ok fixed)
        (by simp [Grammar.syntacticRules]) rules

end Lalr
