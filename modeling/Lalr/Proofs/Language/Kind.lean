import Lalr.Proofs.FlatGrammar.Numbering
import Lalr.Proofs.Language.External

set_option autoImplicit false

/-!
Node kinds by their names. The canonical kind of a visible symbol is the first symbol with its name
and its named flag, and this is the one that a search for them finds; only `ERROR` is the name of
another kind.
-/

namespace Lalr

/-! ## The first symbol of a kind -/

section first

variable {symbols : List SymbolInfo}

theorem hasKind_withCanonicalKinds (symbols : List SymbolInfo) (kind : KindName) :
    (withCanonicalKinds symbols).findIdx? (·.hasKind kind) = symbols.findIdx? (·.hasKind kind) := by
  have same : (withCanonicalKinds symbols).map (·.hasKind kind) = symbols.map (·.hasKind kind) := by
    apply List.ext_getElem?
    intro id
    rw [List.getElem?_map, getElem?_withCanonicalKinds, List.getElem?_map]
    cases symbols[id]? <;> rfl
  simpa only [List.findIdx?_map, Function.comp_def, id] using
    congrArg (List.findIdx? id) same

/-- A kind that has a symbol behind the first one is found at its canonical number. -/
theorem findIdx?_eq_canonicalId (hidden : ∀ info ∈ symbols.head?, info.visible = false)
    {id : Nat} {info : SymbolInfo} (found : symbols[id]? = some info) (visible : info.visible = true) :
    symbols.findIdx? (·.hasKind (info.name, info.named)) = some (canonicalId symbols info id) := by
  -- the first symbol has no kind, so it does not matter that the number zero is left out
  have later {other : SymbolInfo} {place : Nat} (listed : symbols[place]? = some other)
      (shown : other.visible = true) : (place != 0) = true := by
    cases place with
    | zero => simp [hidden other (by rw [List.head?_eq_getElem?, listed]; rfl)] at shown
    | succ place => rfl
  have alike : ∀ entry ∈ symbols.zipIdx, isOfKind (info.name, info.named) entry =
      entry.1.hasKind (info.name, info.named) := by
    rintro ⟨other, place⟩ member
    have listed := List.mk_mem_zipIdx_iff_getElem?.mp member
    cases shown : other.visible with
    | false => simp [isOfKind, SymbolInfo.hasKind, shown]
    | true => simp only [isOfKind, later listed shown, Bool.true_and]
  have own : info.hasKind (info.name, info.named) = true := by simp [SymbolInfo.hasKind, visible]
  obtain ⟨place, first⟩ : ∃ place,
      symbols.findIdx? (·.hasKind (info.name, info.named)) = some place := by
    refine Option.isSome_iff_exists.mp (List.findIdx?_isSome.trans ?_)
    exact List.any_eq_true.mpr ⟨info, List.mem_of_getElem? found, own⟩
  obtain ⟨bound, same, before⟩ := List.findIdx?_eq_some_iff_getElem.mp first
  have chosen : symbols.zipIdx.find? (isOfKind (info.name, info.named)) =
      some (symbols[place], place) := by
    refine List.find?_eq_some_iff_getElem.mpr ⟨?_, place, by simpa using bound, by simp, ?_⟩
    · rw [alike _ (List.mk_mem_zipIdx_iff_getElem?.mpr (List.getElem?_eq_getElem bound))]
      exact same
    · intro earlier less
      have inside : earlier < symbols.length := Nat.lt_trans less bound
      rw [alike _ (List.getElem_mem _), List.getElem_zipIdx]
      simpa using before earlier less
  rw [first, canonicalId, later found visible, visible, chosen]
  rfl

end first

namespace FlatDraft

variable {draft : FlatDraft}

/-- The first symbol is the end of the input, which is hidden. -/
theorem head?_tableSymbols (grammar : Grammar) {entered : List String}
    (recognised : draft.Recognised entered) :
    ∃ info, (draft.tableSymbols grammar).head? = some info ∧ info.visible = false := by
  have first : draft.terminals[0]? = some .endOfInput := by
    rw [← List.head?_eq_getElem?, recognised.first]
  simp [tableSymbols, terminalOrder, first, Terminal.endOfInput]

end FlatDraft

namespace Language

variable {source : Grammar} {scanner : Scanner} {language : Language}

theorem symbolInfo?_eq_some_iff {symbol : SymbolId} {info : SymbolInfo} :
    language.symbolInfo? symbol = some info ↔
      language.tables.symbols.toList[symbol.toNat]? = some info := by
  rw [symbolInfo?, Array.getElem?_toList]

/-- The canonical kind of a visible symbol is the first symbol of its kind. -/
theorem findIdx?_kind (loaded : Language.ofGrammar source scanner = .ok language)
    {symbol : SymbolId} {info : SymbolInfo} (found : language.symbolInfo? symbol = some info)
    (visible : info.visible = true) :
    language.tables.symbols.toList.findIdx? (·.hasKind (info.name, info.named)) =
      some info.canonical.toNat := by
  obtain ⟨grammar, draft, flattened, drafted, numbered, symbols, _, _⟩ :=
    exists_draft_of_ofGrammar loaded
  have few := (LanguageTables.validate_ok (ofTables_ok (ofGrammar_ok loaded).2).1).1
  obtain ⟨aliases, _, shape⟩ := (FlatDraft.numberedAs_of_number numbered).symbols
  rw [symbolInfo?_eq_some_iff, symbols, shape, getElem?_withCanonicalKinds] at found
  obtain ⟨plain, listed, rfl⟩ := Option.map_eq_some_iff.mp found
  obtain ⟨first, head, hidden⟩ := FlatDraft.head?_tableSymbols source
    (FlatDraft.recognised_of_ofGrammar drafted)
  have canonical := findIdx?_eq_canonicalId (fun info same => by
    rw [List.head?_append, head] at same
    exact Option.some.inj same ▸ hidden) listed visible
  obtain ⟨bound, _⟩ := List.findIdx?_eq_some_iff_getElem.mp canonical
  rw [symbols, ← Array.length_toList, shape, withCanonicalKinds, List.length_map,
    List.length_zipIdx] at few
  have kept : (canonicalId (draft.tableSymbols source ++ aliases) plain symbol.toNat).toUInt16.toNat =
      canonicalId (draft.tableSymbols source ++ aliases) plain symbol.toNat :=
    UInt16.toNat_ofNat_of_lt' (by simp only [UInt16.size]; omega)
  rw [symbols, shape, hasKind_withCanonicalKinds, kept]
  exact canonical

/-- Two visible symbols have the same canonical kind exactly if they have the same name and the same
named flag. -/
theorem canonicalSymbol_eq_iff (loaded : Language.ofGrammar source scanner = .ok language)
    {first second : SymbolId} {info other : SymbolInfo}
    (found : language.symbolInfo? first = some info)
    (otherFound : language.symbolInfo? second = some other) (visible : info.visible = true)
    (otherVisible : other.visible = true) :
    language.canonicalSymbol first = language.canonicalSymbol second ↔
      info.name = other.name ∧ info.named = other.named := by
  have here := findIdx?_kind loaded found visible
  have there := findIdx?_kind loaded otherFound otherVisible
  simp only [canonicalSymbol, found, otherFound, Option.map_some, Option.getD_some]
  constructor
  · intro same
    rw [same] at here
    obtain ⟨_, kind, _⟩ := List.findIdx?_eq_some_iff_getElem.mp here
    obtain ⟨_, otherKind, _⟩ := List.findIdx?_eq_some_iff_getElem.mp there
    simp only [SymbolInfo.hasKind, Bool.and_eq_true, beq_iff_eq] at kind otherKind
    exact ⟨kind.2.symm.trans otherKind.2, kind.1.2.symm.trans otherKind.1.2⟩
  · rintro ⟨name, named⟩
    rw [name, named] at here
    exact UInt16.toNat_inj.mp (Option.some.inj (here.symm.trans there))

/-- The kind of a visible symbol is found by its name, except that `ERROR` names the error kind. -/
theorem symbolForName?_symbolName (loaded : Language.ofGrammar source scanner = .ok language)
    {symbol : SymbolId} {info : SymbolInfo} (found : language.symbolInfo? symbol = some info)
    (visible : info.visible = true) :
    language.symbolForName? (language.symbolName (language.canonicalSymbol symbol)) info.named =
      some (if info.name = "ERROR" ∧ info.named = true then errorSymbol
        else language.canonicalSymbol symbol) := by
  have few := (LanguageTables.validate_ok (ofTables_ok (ofGrammar_ok loaded).2).1).1
  have first := findIdx?_kind loaded found visible
  obtain ⟨bound, isKind, _⟩ := List.findIdx?_eq_some_iff_getElem.mp first
  obtain ⟨kind, listed⟩ : ∃ kind, language.tables.symbols.toList[info.canonical.toNat]? = some kind :=
    ⟨_, List.getElem?_eq_getElem bound⟩
  obtain ⟨_, rfl⟩ := List.getElem?_eq_some_iff.mp listed
  simp only [SymbolInfo.hasKind, Bool.and_eq_true, beq_iff_eq] at isKind
  obtain ⟨⟨shown, named⟩, name⟩ := isKind
  have kindFound := symbolInfo?_eq_some_iff.mpr listed
  -- the canonical kind is its own canonical kind
  have own := findIdx?_kind loaded kindFound shown
  rw [name, named, first, Option.some.injEq, UInt16.toNat_inj] at own
  have searched : language.tables.symbols.find? (·.hasKind (info.name, info.named)) =
      some language.tables.symbols.toList[info.canonical.toNat] := by
    rw [← Array.find?_toList, List.find?_eq_bind_findIdx?_getElem?, first, Option.bind_some, listed]
  have regular : info.canonical ≠ errorSymbol := by
    intro same
    rw [same, Array.length_toList] at bound
    exact absurd (Nat.lt_of_lt_of_le bound few) (Nat.lt_irrefl 65535)
  have canonical : language.canonicalSymbol symbol = info.canonical := by
    simp only [canonicalSymbol, found, Option.map_some, Option.getD_some]
  rw [canonical, symbolName, if_neg regular, kindFound, Option.map_some, Option.getD_some, name,
    symbolForName?, searched, Option.map_some, ← own]
  by_cases error : info.name = "ERROR" ∧ info.named = true
  · rw [if_pos error, if_pos (by simpa using error)]
  · rw [if_neg error, if_neg (by simpa using error)]

/-- Node kinds can be told apart and looked up by their names and named flags; a named symbol that is
called `ERROR` is the one exception, since the search answers with the error kind there. -/
theorem kinds_by_name (loaded : Language.ofGrammar source scanner = .ok language) :
    (∀ first second info other, language.symbolInfo? first = some info →
      language.symbolInfo? second = some other → info.visible = true → other.visible = true →
      (language.canonicalSymbol first = language.canonicalSymbol second ↔
        info.name = other.name ∧ info.named = other.named)) ∧
    ∀ symbol info, language.symbolInfo? symbol = some info → info.visible = true →
      language.symbolForName? (language.symbolName (language.canonicalSymbol symbol)) info.named =
        some (if info.name = "ERROR" ∧ info.named = true then errorSymbol
          else language.canonicalSymbol symbol) :=
  ⟨fun _ _ _ _ found otherFound visible otherVisible =>
      canonicalSymbol_eq_iff loaded found otherFound visible otherVisible,
    fun _ _ found visible => symbolForName?_symbolName loaded found visible⟩

/-- A rule with the name of the error kind. -/
def misnamedGrammar : Grammar :=
  ⟨{ name := "misnamed"
     rules := [("start", .seq [.symbol "ERROR", .literal "a"]), ("ERROR", .seq [.literal "b"])] },
    by decide⟩

/-- The language of a grammar with a rule called `ERROR`, and what is known of this rule. -/
theorem misnamedGrammar_loads :
    ∃ language info, Language.ofGrammar misnamedGrammar .noExternals = .ok language ∧
      language.symbolInfo? 4 = some info ∧ info.visible = true ∧ info.name = "ERROR" ∧
      info.named = true ∧ language.canonicalSymbol 4 = 4 := by
  have shown : ((Language.ofGrammar misnamedGrammar .noExternals).toOption.bind fun language =>
      (language.symbolInfo? 4).map fun info =>
        (info.visible, info.name, info.named, language.canonicalSymbol 4)) =
        some (true, "ERROR", true, 4) := by cbv
  cases loaded : Language.ofGrammar misnamedGrammar .noExternals with
  | error failure => simp [loaded, Except.toOption] at shown
  | ok language =>
      simp only [loaded, Except.toOption, Option.bind_some] at shown
      obtain ⟨info, found, same⟩ := Option.map_eq_some_iff.mp shown
      simp only [Prod.mk.injEq] at same
      exact ⟨language, info, rfl, found, same⟩

theorem kinds_by_name_of_misnamed :
    ∃ language info, Language.ofGrammar misnamedGrammar .noExternals = .ok language ∧
      language.symbolInfo? 4 = some info ∧
      language.symbolForName? (language.symbolName (language.canonicalSymbol 4)) info.named =
        some errorSymbol := by
  obtain ⟨language, info, loaded, found, visible, name, named, _⟩ := misnamedGrammar_loads
  refine ⟨language, info, loaded, found, ?_⟩
  rw [(kinds_by_name loaded).2 4 info found visible, if_pos ⟨name, named⟩]

/-- Not every visible symbol is found by its name. -/
theorem not_all_kinds_found_by_name :
    ¬ ∀ (source : Grammar) (scanner : Scanner) (language : Language),
      Language.ofGrammar source scanner = .ok language → ∀ symbol info,
        language.symbolInfo? symbol = some info → info.visible = true →
        language.symbolForName? (language.symbolName (language.canonicalSymbol symbol)) info.named =
          some (language.canonicalSymbol symbol) := by
  intro all
  obtain ⟨language, info, loaded, found, visible, name, named, own⟩ := misnamedGrammar_loads
  have same := all _ _ language loaded 4 info found visible
  rw [symbolForName?_symbolName loaded found visible, if_pos ⟨name, named⟩, own] at same
  cases same

end Language

end Lalr
