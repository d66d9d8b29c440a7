import Lalr.Proofs.Language.Loading
import Lalr.Proofs.Tables.Artifact

set_option autoImplicit false

/-!
The arithmetic of loading. Counts of an artifact may be any words of 64 bits, and they are
multiplied before they are compared with the lists they count. So one product may not fit; behind it
every check and every look-up stays in range.
-/

namespace Lalr

/-- A computation that may fail but does not break off. -/
def Faultless {α : Type} (run : Except LanguageError α) : Prop :=
  ∀ fault, run ≠ .error (.fault fault)

namespace Faultless

variable {α β : Type}

theorem of_ok (value : α) : Faultless (.ok value) :=
  fun _ same => nomatch same

theorem require (condition : Bool) (defect : TableDefect) :
    Faultless (Lalr.require condition defect) := by
  intro fault same
  cases condition with
  | true => cases same
  | false => cases same

theorem bind {first : Except LanguageError α} {next : α → Except LanguageError β}
    (start : Faultless first) (continues : ∀ value, first = .ok value → Faultless (next value)) :
    Faultless (first >>= next) := by
  intro fault broken
  rcases bind_eq_error_iff.mp broken with here | ⟨value, passed, later⟩
  · exact start fault here
  · exact continues value passed fault later

theorem forM {check : α → Except LanguageError Unit} {items : List α}
    (each : ∀ item ∈ items, Faultless (check item)) : Faultless (items.forM check) := by
  induction items with
  | nil => exact of_ok ()
  | cons item items ih =>
      exact (each item List.mem_cons_self).bind fun _ _ =>
        ih fun other member => each other (List.mem_cons_of_mem _ member)

theorem mapM {convert : α → Except LanguageError β} {items : List α}
    (each : ∀ item ∈ items, Faultless (convert item)) : Faultless (items.mapM convert) := by
  induction items with
  | nil => exact of_ok []
  | cons item items ih =>
      rw [List.mapM_cons]
      refine (each item List.mem_cons_self).bind fun _ _ => ?_
      exact (ih fun other member => each other (List.mem_cons_of_mem _ member)).bind
        fun values _ => of_ok _

end Faultless

theorem require_bind_eq_fault_iff {α : Type} {condition : Bool} {defect : TableDefect}
    {next : Unit → Except LanguageError α} {fault : ArithmeticFault} :
    require condition defect >>= next = .error (.fault fault) ↔
      condition = true ∧ next () = .error (.fault fault) := by
  cases condition with
  | true => exact ⟨fun broken => ⟨rfl, broken⟩, And.right⟩
  | false => exact ⟨nofun, fun broken => nomatch broken.1⟩

theorem productOf_eq_fault_iff {left right : UInt64} {fault : ArithmeticFault} :
    productOf left right = .error (.fault fault) ↔
      UInt64.size ≤ left.toNat * right.toNat ∧ fault = .overflow left right := by
  unfold productOf
  by_cases fits : left.toNat * right.toNat < UInt64.size
  · rw [if_pos fits]
    exact ⟨nofun, fun broken => absurd broken.1 (Nat.not_le_of_lt fits)⟩
  · rw [if_neg fits]
    constructor
    · intro broken
      exact ⟨Nat.le_of_not_lt fits, (LanguageError.fault.inj (Except.error.inj broken)).symm⟩
    · rintro ⟨_, rfl⟩
      rfl

theorem productOf_eq_ok_iff {left right : UInt64} {product : Nat} :
    productOf left right = .ok product ↔
      left.toNat * right.toNat < UInt64.size ∧ product = left.toNat * right.toNat := by
  unfold productOf
  by_cases fits : left.toNat * right.toNat < UInt64.size
  · rw [if_pos fits]
    exact ⟨fun same => ⟨fits, (Except.ok.inj same).symm⟩,
      fun same => congrArg Except.ok same.2.symm⟩
  · rw [if_neg fits]
    exact ⟨nofun, fun same => absurd same.1 fits⟩

/-- Tables that pass the checks in front of the product, which does not fit. -/
structure LanguageTables.Oversized (tables : LanguageTables) : Prop where
  symbols_le : tables.symbols.size ≤ 65535
  terminals : tables.terminalCount ≠ 0
  width_le : tables.tableSymbolCount.toNat ≤ tables.symbols.size
  cells : UInt64.size ≤ tables.stateCount.toNat * tables.tableSymbolCount.toNat

namespace LanguageTables

variable (tables : LanguageTables)

theorem faultless_checkSymbol (id : Nat) (info : SymbolInfo) :
    Faultless (tables.checkSymbol id info) :=
  (Faultless.require _ _).bind fun _ _ => Faultless.require _ _

theorem faultless_checkProduction (index : Nat) (production : ProductionInfo) :
    Faultless (tables.checkProduction index production) :=
  (Faultless.require _ _).bind fun _ _ => (Faultless.require _ _).bind fun _ _ =>
    (Faultless.require _ _).bind fun _ _ => (Faultless.require _ _).bind fun _ _ =>
      Faultless.require _ _

/-- A table with a cell has a column, so the place of the cell can be told. -/
theorem faultless_checkAction (wide : tables.tableSymbolCount.toNat ≠ 0) (index : Nat)
    (action : Action) : Faultless (tables.checkAction index action) := by
  unfold checkAction placeOfCell
  rw [if_neg wide]
  exact Faultless.require _ _

/-- Behind the product the table has as many cells as it says, and no check breaks off. -/
theorem faultless_checks {cells : Nat}
    (product : cells = tables.stateCount.toNat * tables.tableSymbolCount.toNat) :
    Faultless (do
      require (tables.actions.size == cells && tables.lexModes.size == tables.stateCount.toNat)
        .actionCount
      tables.symbols.toList.zipIdx.forM fun (info, id) => tables.checkSymbol id info
      tables.productions.toList.zipIdx.forM fun (production, index) =>
        tables.checkProduction index production
      tables.actions.toList.zipIdx.forM fun (action, index) => tables.checkAction index action
      tables.lexicalSymbols.forM tables.checkLexicalSymbol) := by
  refine (Faultless.require _ _).bind fun _ dimensions => ?_
  refine (Faultless.forM fun entry _ => tables.faultless_checkSymbol _ _).bind fun _ _ => ?_
  refine (Faultless.forM fun entry _ => tables.faultless_checkProduction _ _).bind fun _ _ => ?_
  refine (Faultless.forM fun entry member => tables.faultless_checkAction ?wide _ _).bind
    fun _ _ => Faultless.forM fun symbol _ => Faultless.require _ _
  case wide =>
      -- without columns there is no cell to check
      intro narrow
      have sizes := require_eq_ok dimensions
      simp only [Bool.and_eq_true, beq_iff_eq, product, narrow, Nat.mul_zero] at sizes
      have inside : entry.2 < tables.actions.toList.length := (List.mem_zipIdx' member).1
      rw [Array.length_toList, sizes.1] at inside
      exact Nat.not_lt_zero _ inside

/-- Validation breaks off only over the size of the action table. -/
theorem validate_eq_fault_iff {fault : ArithmeticFault} :
    tables.validate = .error (.fault fault) ↔
      tables.version = layoutVersion ∧ tables.Oversized ∧
      fault = .overflow tables.stateCount tables.tableSymbolCount := by
  unfold validate
  by_cases known : tables.version = layoutVersion
  case neg =>
      rw [if_pos known]
      exact ⟨nofun, fun broken => absurd broken.1 known⟩
  case pos =>
      rw [if_neg (not_not.mpr known)]
      refine require_bind_eq_fault_iff.trans ?_
      rw [require_bind_eq_fault_iff, bind_eq_error_iff, productOf_eq_fault_iff, decide_eq_true_iff,
        Bool.and_eq_true, bne_iff_ne, decide_eq_true_iff]
      constructor
      · rintro ⟨few, ⟨terminals, width⟩, ⟨cells, same⟩ | ⟨product, fits, later⟩⟩
        · exact ⟨known, ⟨few, terminals, width, cells⟩, same⟩
        · exact absurd later (tables.faultless_checks (productOf_eq_ok_iff.mp fits).2 fault)
      · rintro ⟨_, ⟨few, terminals, width, cells⟩, same⟩
        exact ⟨few, ⟨terminals, width⟩, .inl ⟨cells, same⟩⟩

/-- Validated tables have as many cells as they say, in no more columns than there are symbols. -/
theorem size_of_validate (valid : tables.validate = .ok ()) :
    tables.actions.size = tables.stateCount.toNat * tables.tableSymbolCount.toNat ∧
      tables.tableSymbolCount.toNat ≤ tables.symbols.size := by
  unfold validate at valid
  split at valid
  case isTrue => cases valid
  case isFalse =>
      obtain ⟨_, _, valid⟩ := exists_of_bind_eq_ok valid
      obtain ⟨_, counts, valid⟩ := exists_of_bind_eq_ok valid
      obtain ⟨cells, product, valid⟩ := exists_of_bind_eq_ok valid
      obtain ⟨_, dimensions, _⟩ := exists_of_bind_eq_ok valid
      have width := require_eq_ok counts
      have sizes := require_eq_ok dimensions
      simp only [Bool.and_eq_true, bne_iff_ne, decide_eq_true_eq] at width
      simp only [Bool.and_eq_true, beq_iff_eq] at sizes
      exact ⟨sizes.1.trans (productOf_eq_ok_iff.mp product).2, width.2⟩

/-- Decoding does not break off, whatever the bytes. -/
theorem faultless_ofBytes (bytes : List UInt8) : Faultless (ofBytes bytes) := by
  intro fault broken
  unfold ofBytes at broken
  split at broken
  · split at broken
    · cases broken
    · split at broken
      · cases broken
      · split at broken
        · cases broken
        · split at broken <;> cases broken
  · cases broken

end LanguageTables

theorem Lexer.faultless_compile (table : LexicalTable) : Faultless (Lexer.compile table) := by
  refine (Faultless.mapM fun entry _ => ?_).bind fun _ _ => Faultless.of_ok _
  intro fault broken
  dsimp only at broken
  split at broken <;> cases broken

namespace Language

theorem ofTables_eq_fault_iff {tables : LanguageTables} {scanner : Scanner}
    {fault : ArithmeticFault} :
    ofTables tables scanner = .error (.fault fault) ↔
      tables.validate = .error (.fault fault) := by
  refine bind_eq_error_iff.trans (or_iff_left ?_)
  rintro ⟨_, _, later⟩
  refine (Faultless.require _ _).bind (fun _ _ => ?_) fault later
  refine (Lexer.faultless_compile _).bind fun _ _ fault broken => ?_
  split at broken <;> cases broken

/-- Loading breaks off only where an artifact can be decoded and its table is oversized; nothing is
divided by zero. For every language that was loaded, the table has the cells it says, and the place
of each of them is a word of 64 bits. -/
theorem arithmetic_of_loading (bytes : List UInt8) (scanner : Scanner) :
    (∀ fault, ofBytes bytes scanner = .error (.fault fault) ↔
      ∃ tables, LanguageTables.ofBytes bytes = .ok tables ∧ tables.Oversized ∧
        fault = .overflow tables.stateCount tables.tableSymbolCount) ∧
    ∀ language, ofBytes bytes scanner = .ok language →
      language.tables.actions.size =
        language.tables.stateCount.toNat * language.tables.tableSymbolCount.toNat ∧
      ∀ (state : StateId) (symbol : SymbolId),
        symbol.toNat < language.tables.tableSymbolCount.toNat →
        state.toNat * language.tables.tableSymbolCount.toNat + symbol.toNat < UInt64.size := by
  refine ⟨fun fault => ?faults, fun language loaded => ?cells⟩
  case faults =>
      refine bind_eq_error_iff.trans ?_
      rw [or_iff_right (LanguageTables.faultless_ofBytes bytes fault)]
      simp only [ofTables_eq_fault_iff, LanguageTables.validate_eq_fault_iff]
      constructor
      · rintro ⟨tables, decoded, _, oversized, same⟩
        exact ⟨tables, decoded, oversized, same⟩
      · rintro ⟨tables, decoded, oversized, same⟩
        exact ⟨tables, decoded, (LanguageTables.ofBytes_ok decoded).1, oversized, same⟩
  case cells =>
      obtain ⟨tables, _, made⟩ := exists_of_bind_eq_ok loaded
      obtain ⟨valid, rfl, _⟩ := ofTables_ok made
      obtain ⟨cells, width⟩ := LanguageTables.size_of_validate _ valid
      have few := (LanguageTables.validate_ok valid).1
      refine ⟨cells, fun state symbol column => ?_⟩
      have row : state.toNat < 2 ^ 32 := state.toNat_lt
      have bound : state.toNat * language.tables.tableSymbolCount.toNat ≤ 2 ^ 32 * 65535 :=
        Nat.mul_le_mul (Nat.le_of_lt row) (Nat.le_trans width few)
      simp only [UInt64.size]
      omega

/-- Small tables that claim to have half of all the states a word can count. -/
def oversizedTables : LanguageTables :=
  { LanguageTables.smallTables with stateCount := 0x8000000000000000 }

/-- The artifact of oversized tables is decoded, and loading breaks off over the size of the
table. -/
theorem arithmetic_of_loading_oversized :
    LanguageTables.ofBytes oversizedTables.toBytes = .ok oversizedTables ∧
      ofBytes oversizedTables.toBytes .noExternals =
        .error (.fault (.overflow 0x8000000000000000 2)) := by
  have fits : oversizedTables.FitsStorage := { LanguageTables.fitsStorage_smallTables with }
  have decoded : LanguageTables.ofBytes oversizedTables.toBytes = .ok oversizedTables := by
    simpa using LanguageTables.ofBytes_toBytes rfl fits []
  have oversized : oversizedTables.Oversized := by constructor <;> decide
  refine ⟨decoded, ?_⟩
  exact ((arithmetic_of_loading oversizedTables.toBytes .noExternals).1 _).mpr
    ⟨oversizedTables, decoded, oversized, rfl⟩

end Language

end Lalr
