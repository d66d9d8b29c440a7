set_option autoImplicit false

/-!
What a computation that succeeded says of its parts, and which computations succeed.
-/

namespace Lalr

theorem exists_of_bind_eq_ok {ε α β : Type} {first : Except ε α} {next : α → Except ε β}
    {result : β} (success : first >>= next = .ok result) :
    ∃ value, first = .ok value ∧ next value = .ok result := by
  cases first with
  | error failure => cases success
  | ok value => exact ⟨value, rfl, success⟩

theorem bind_eq_error_iff {ε α β : Type} {first : Except ε α} {next : α → Except ε β}
    {failure : ε} :
    first >>= next = .error failure ↔
      first = .error failure ∨ ∃ value, first = .ok value ∧ next value = .error failure := by
  cases first with
  | error other =>
      refine ⟨fun failed => .inl (congrArg Except.error (Except.error.inj failed)), ?_⟩
      rintro (failed | ⟨_, succeeded, _⟩)
      · exact congrArg Except.error (Except.error.inj failed)
      · cases succeeded
  | ok value =>
      refine ⟨fun failed => .inr ⟨value, rfl, failed⟩, ?_⟩
      rintro (failed | ⟨_, succeeded, failed⟩)
      · cases failed
      · obtain rfl := Except.ok.inj succeeded
        exact failed

theorem eq_ok_of_mapError {ε δ α : Type} {change : ε → δ} {first : Except ε α} {result : α}
    (success : first.mapError change = .ok result) : first = .ok result := by
  cases first with
  | error failure => cases success
  | ok value => exact congrArg Except.ok (Except.ok.inj success)

theorem forM_eq_ok {α ε : Type} {check : α → Except ε Unit} {items : List α}
    (passed : items.forM check = .ok ()) : ∀ item ∈ items, check item = .ok () := by
  induction items with
  | nil => simp
  | cons first items hypothesis =>
      obtain ⟨_, here, later⟩ := exists_of_bind_eq_ok passed
      intro item member
      rcases List.mem_cons.mp member with rfl | inside
      · exact here
      · exact hypothesis later item inside

theorem exists_bind_ok {ε α β : Type} {first : Except ε α} {next : α → Except ε β}
    (success : ∃ value, first = .ok value) (continues : ∀ value, ∃ result, next value = .ok result) :
    ∃ result, first >>= next = .ok result := by
  obtain ⟨value, rfl⟩ := success
  exact continues value

theorem exists_mapM_ok {ε α β : Type} {convert : α → Except ε β} {items : List α}
    (converts : ∀ item ∈ items, ∃ value, convert item = .ok value) :
    ∃ values, items.mapM convert = .ok values := by
  induction items with
  | nil => exact ⟨[], rfl⟩
  | cons item items ih =>
      obtain ⟨value, here⟩ := converts item List.mem_cons_self
      obtain ⟨values, later⟩ := ih fun other member => converts other (List.mem_cons_of_mem _ member)
      rw [List.mapM_cons, here, later]
      exact ⟨value :: values, rfl⟩

theorem forM_ok_of_forall {α ε : Type} {check : α → Except ε Unit} {items : List α}
    (passes : ∀ item ∈ items, check item = .ok ()) : items.forM check = .ok () := by
  induction items with
  | nil => rfl
  | cons item items ih =>
      have later := ih fun other member => passes other (List.mem_cons_of_mem _ member)
      rw [List.forM_eq_forM] at later ⊢
      rw [List.forM_cons, passes item List.mem_cons_self]
      exact later

end Lalr
