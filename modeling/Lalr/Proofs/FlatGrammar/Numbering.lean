import Lalr.Generate
import Lalr.Proofs.Except
import Lalr.Proofs.FlatGrammar.Flattening

set_option autoImplicit false

/-!
The numbers of a flat grammar lie where they should: terminals below nonterminals, every
symbol of a production below the number of symbols, and the end of the input in no production. The
kinds of symbols follow each other by number: terminals, then rules and repetitions, then the kinds
of aliases; and the canonical kind of a symbol stands for itself.
-/

namespace Lalr

/-! ## Numbers -/

/-- The ranges of the numbers in a flat grammar. -/
structure FlatGrammar.WellNumbered (grammar : FlatGrammar) : Prop where
  terminals_pos : 0 < grammar.terminalCount
  symbols_le : grammar.tableSymbolCount ≤ grammar.symbols.size
  start_range : grammar.terminalCount ≤ grammar.start ∧ grammar.start < grammar.tableSymbolCount
  lhs_range : ∀ production ∈ grammar.productions,
    grammar.terminalCount ≤ production.lhs ∧ production.lhs < grammar.tableSymbolCount
  rhs_range : ∀ production ∈ grammar.productions, ∀ symbol ∈ production.rhs,
    0 < symbol ∧ symbol < grammar.tableSymbolCount

namespace FlatDraft

variable {grammar : Grammar} {draft : FlatDraft}

theorem mem_terminalOrder_lt (sound : draft.Sound grammar) {index : Nat}
    (listed : index ∈ draft.terminalOrder grammar) : index < draft.terminals.length := by
  simp only [terminalOrder, List.cons_append, List.mem_cons, List.mem_append, List.mem_map,
    List.mem_filter, List.mem_filterMap] at listed
  rcases listed with rfl | ⟨⟨terminal, place⟩, ⟨member, _⟩, rfl⟩ | ⟨name, _, found⟩
  · exact sound.nonempty
  · exact (List.mem_zipIdx' member).1
  · exact (List.findIdx?_eq_some_iff_getElem.mp found).1

/-- Every terminal has a number. -/
theorem mem_terminalOrder (sound : draft.Sound grammar) {index : Nat}
    (bound : index < draft.terminals.length) : index ∈ draft.terminalOrder grammar := by
  simp only [terminalOrder, List.cons_append, List.mem_cons, List.mem_append, List.mem_map,
    List.mem_filter, List.mem_filterMap]
  by_cases first : index = 0
  · exact .inl first
  cases external : draft.terminals[index].key.isExternal with
  | false =>
      refine .inr (.inl ⟨(draft.terminals[index], index), ⟨?_, by simp [first, external]⟩, rfl⟩)
      exact List.mk_mem_zipIdx_iff_getElem?.mpr (List.getElem?_eq_getElem bound)
  | true =>
      cases key : draft.terminals[index].key with
      | external name =>
          have placed : draft.keys[index]? = some (.external name) := by
            simp [keys, bound, key]
          have declared := sound.externals name (List.mem_of_getElem? placed)
          refine .inr (.inr ⟨name, declared, ?_⟩)
          cases found : terminalIndex? draft.terminals (.external name) with
          | none =>
              exact absurd (List.mem_of_getElem? placed) (terminalIndex?_eq_none_iff.mp found)
          | some place =>
              have same := getElem?_of_terminalIndex? found
              exact congrArg some ((List.getElem?_inj (List.getElem?_eq_some_iff.mp same).1
                sound.keysNodup).mp (same.trans placed.symm))
      | endOfInput => simp [key, TerminalKey.isExternal] at external
      | literal text => simp [key, TerminalKey.isExternal] at external
      | pattern text => simp [key, TerminalKey.isExternal] at external
      | named rule => simp [key, TerminalKey.isExternal] at external
      | keyword name => simp [key, TerminalKey.isExternal] at external
      | immediate base => simp [key, TerminalKey.isExternal] at external

theorem symbolId_range (sound : draft.Sound grammar) {symbol : SymbolRef}
    (entered : draft.HasSymbol grammar symbol) :
    0 < draft.symbolId grammar symbol ∧
      draft.symbolId grammar symbol < draft.tableSymbolCount grammar := by
  have counted : 0 < draft.terminalCount grammar := by simp [terminalCount, terminalOrder]
  cases symbol with
  | terminal index =>
      have listed := mem_terminalOrder sound entered.2
      have small : draft.terminalId grammar index < draft.terminalCount grammar :=
        List.idxOf_lt_length_of_mem listed
      refine ⟨?_, ?_⟩
      · change 0 < List.idxOf index (0 :: _)
        have apart : (0 == index) = false := by simpa using Nat.ne_of_lt entered.1
        simp only [List.idxOf_cons, apart, cond_false]
        exact Nat.succ_pos _
      · simp only [symbolId, tableSymbolCount]
        omega
  | rule index =>
      have bound : index < grammar.syntacticRules.length := entered
      simp only [symbolId, tableSymbolCount]
      omega
  | repetition index =>
      have bound : index < draft.repetitions.length := entered
      simp only [symbolId, tableSymbolCount]
      omega

theorem symbolId_leftSide_range {symbol : SymbolRef} (entered : draft.HasLeftSide grammar symbol) :
    draft.terminalCount grammar ≤ draft.symbolId grammar symbol ∧
      draft.symbolId grammar symbol < draft.tableSymbolCount grammar := by
  cases symbol with
  | terminal index => exact absurd entered id
  | rule index =>
      have bound : index < grammar.syntacticRules.length := entered
      simp only [symbolId, tableSymbolCount]
      omega
  | repetition index =>
      have bound : index < draft.repetitions.length := entered
      simp only [symbolId, tableSymbolCount]
      omega

theorem length_tableSymbols (sound : draft.Sound grammar) :
    (draft.tableSymbols grammar).length = draft.tableSymbolCount grammar := by
  have named : ∀ index ∈ draft.terminalOrder grammar,
      (draft.terminals[index]?.map fun terminal =>
        ({ name := terminal.name, kind := .terminal, named := terminal.named
           visible := terminal.visible, extra := terminal.extra
           external := terminal.key.isExternal, canonical := 0 } : SymbolInfo)).isSome := by
    intro index listed
    simp [mem_terminalOrder_lt sound listed]
  simp only [tableSymbols, List.length_append, List.length_map, tableSymbolCount, terminalCount]
  rw [List.length_filterMap_eq_countP, List.countP_eq_length.mpr named]

theorem wellNumbered_of_number (sound : draft.Sound grammar) {flat : FlatGrammar}
    (success : draft.number grammar = .ok flat) : flat.WellNumbered := by
  unfold number at success
  dsimp only at success
  split at success
  case h_1 => exact absurd success (by simp)
  case h_2 start found =>
      obtain rfl := Except.ok.inj success
      have bound := (List.findIdx?_eq_some_iff_getElem.mp found).1
      refine ⟨by simp [terminalCount, terminalOrder], ?_, ?_, ?_, ?_⟩
      · simp [withCanonicalKinds, length_tableSymbols sound]
      · simp only [tableSymbolCount]
        omega
      · intro production member
        obtain ⟨origin, listed, rfl⟩ := List.mem_map.mp (by simpa using member)
        exact symbolId_leftSide_range (sound.productions origin listed).1
      · intro production member symbol inside
        obtain ⟨origin, listed, rfl⟩ := List.mem_map.mp (by simpa using member)
        simp only [Production.rhs, List.map_map, List.mem_map, Function.comp_apply] at inside
        obtain ⟨step, inside, rfl⟩ := inside
        exact symbolId_range sound ((sound.productions origin listed).2 step inside)

end FlatDraft

namespace FlatGrammar

/-- A grammar is flattened into a draft, which is then numbered. -/
theorem exists_draft_of_ofGrammar {grammar : Grammar} {flat : FlatGrammar}
    (success : FlatGrammar.ofGrammar grammar = .ok flat) :
    ∃ draft, FlatDraft.ofGrammar grammar = .ok draft ∧ draft.number grammar = .ok flat := by
  obtain ⟨_, _, success⟩ := exists_of_bind_eq_ok success
  split at success
  case h_1 =>
      obtain ⟨draft, drafted, numbered⟩ := exists_of_bind_eq_ok success
      exact ⟨draft, eq_ok_of_mapError drafted, eq_ok_of_mapError numbered⟩
  case h_2 => cases success

/-- The numbers of every flattened grammar lie in their ranges. -/
theorem wellNumbered_of_ofGrammar {grammar : Grammar} {flat : FlatGrammar}
    (success : FlatGrammar.ofGrammar grammar = .ok flat) : flat.WellNumbered := by
  obtain ⟨draft, drafted, numbered⟩ := exists_draft_of_ofGrammar success
  exact FlatDraft.wellNumbered_of_number (FlatDraft.sound_of_ofGrammar drafted) numbered

end FlatGrammar

/-! ## Canonical kinds -/

/-- Whether a symbol with a number is one of a kind that others may collapse onto. -/
def isOfKind (kind : KindName) (entry : SymbolInfo × Nat) : Bool :=
  entry.2 != 0 && entry.1.hasKind kind

/-- The number of the canonical kind of a symbol. -/
def canonicalId (symbols : List SymbolInfo) (info : SymbolInfo) (id : Nat) : Nat :=
  if info.visible && id != 0 then
    ((symbols.zipIdx.find? (isOfKind (info.name, info.named))).map Prod.snd).getD id
  else id

theorem getElem?_withCanonicalKinds (symbols : List SymbolInfo) (id : Nat) :
    (withCanonicalKinds symbols)[id]? = (symbols[id]?).map fun info =>
      { info with canonical := (canonicalId symbols info id).toUInt16 } := by
  unfold withCanonicalKinds
  rw [List.getElem?_map, List.getElem?_zipIdx]
  cases symbols[id]? with
  | none => rfl
  | some info =>
      simp only [Option.map_some, Nat.zero_add]
      rfl

/-- The canonical kind of a symbol is a symbol, and its own canonical kind. -/
theorem canonicalId_idem {symbols : List SymbolInfo} {info : SymbolInfo} {id : Nat}
    (found : symbols[id]? = some info) :
    ∃ kind, symbols[canonicalId symbols info id]? = some kind ∧
      canonicalId symbols kind (canonicalId symbols info id) = canonicalId symbols info id := by
  by_cases collapses : (info.visible && id != 0) = true
  case neg =>
      have own : canonicalId symbols info id = id := if_neg collapses
      exact ⟨info, by rw [own]; exact found, by rw [own, own]⟩
  case pos =>
      cases first : symbols.zipIdx.find? (isOfKind (info.name, info.named)) with
      | none =>
          have own : canonicalId symbols info id = id := by simp [canonicalId, collapses, first]
          exact ⟨info, by rw [own]; exact found, by rw [own, own]⟩
      | some entry =>
          obtain ⟨kind, place⟩ := entry
          have own : canonicalId symbols info id = place := by
            simp [canonicalId, collapses, first]
          have same := List.find?_some first
          simp only [isOfKind, SymbolInfo.hasKind, Bool.and_eq_true, bne_iff_ne, ne_eq,
            beq_iff_eq] at same
          obtain ⟨later, ⟨visible, named⟩, name⟩ := same
          have listed := List.mk_mem_zipIdx_iff_getElem?.mp (List.mem_of_find?_eq_some first)
          refine ⟨kind, by rw [own]; exact listed, ?_⟩
          -- the kind is looked for under the same name, so the same symbol is found
          rw [own]
          simp [canonicalId, visible, later, name, named, first]

theorem isCanonical_withCanonicalKinds {symbols : List SymbolInfo}
    (few : symbols.length ≤ 65535) {id : Nat} {info : SymbolInfo}
    (found : (withCanonicalKinds symbols)[id]? = some info) :
    ∃ kind, (withCanonicalKinds symbols)[info.canonical.toNat]? = some kind ∧
      kind.canonical = info.canonical := by
  rw [getElem?_withCanonicalKinds] at found
  obtain ⟨plain, listed, rfl⟩ := Option.map_eq_some_iff.mp found
  obtain ⟨kind, place, own⟩ := canonicalId_idem listed
  have bound := (List.getElem?_eq_some_iff.mp place).1
  have exact_ : (canonicalId symbols plain id).toUInt16.toNat = canonicalId symbols plain id :=
    UInt16.toNat_ofNat_of_lt' (by simp only [UInt16.size]; omega)
  refine ⟨_, by rw [exact_, getElem?_withCanonicalKinds, place, Option.map_some], ?_⟩
  simp only [own]

/-! ## The order of symbols -/

/-- The numbers that symbols of a kind have, where terminals and all symbols of the tables
are counted. -/
def SymbolKind.HasRange (terminals symbols : Nat) (id : Nat) : SymbolKind → Prop
  | .terminal => id < terminals
  | .nonterminal | .auxiliary => terminals ≤ id ∧ id < symbols
  | .aliasOnly => symbols ≤ id

namespace FlatDraft

variable {grammar : Grammar} {draft : FlatDraft}

theorem tableSymbols_eq (sound : draft.Sound grammar) :
    ∃ terminals rules repetitions : List SymbolInfo,
      draft.tableSymbols grammar = terminals ++ rules ++ repetitions ∧
      terminals.length = draft.terminalCount grammar ∧
      rules.map SymbolInfo.name = grammar.syntacticRules ∧
      (∀ info ∈ terminals, info.kind = .terminal) ∧ (∀ info ∈ rules, info.kind = .nonterminal) ∧
      ∀ info ∈ repetitions, info.kind = .auxiliary := by
  have length := length_tableSymbols sound
  refine ⟨_, _, _, rfl, ?_, ?_, ?_, ?_, ?_⟩
  · simp only [tableSymbols, List.length_append, List.length_map, tableSymbolCount] at length
    omega
  · simp [Function.comp_def]
  · intro info member
    obtain ⟨index, _, same⟩ := List.mem_filterMap.mp member
    obtain ⟨terminal, _, rfl⟩ := Option.map_eq_some_iff.mp same
    rfl
  · simp
  · simp

/-- What numbering a draft makes of it. -/
structure NumberedAs (draft : FlatDraft) (grammar : Grammar) (flat : FlatGrammar) : Prop where
  symbols : ∃ aliasSymbols : List SymbolInfo, (∀ info ∈ aliasSymbols, info.kind = .aliasOnly) ∧
    flat.symbols.toList = withCanonicalKinds (draft.tableSymbols grammar ++ aliasSymbols)
  terminalCount : flat.terminalCount = draft.terminalCount grammar
  tableSymbolCount : flat.tableSymbolCount = draft.tableSymbolCount grammar
  start : ∃ start, grammar.syntacticRules.idxOf? (grammar.startRule?.getD "") = some start ∧
    flat.start = draft.terminalCount grammar + start
  fields : ∀ production ∈ flat.productions, ∀ step ∈ production.steps, ∀ field ∈ step.field,
    field < flat.fields.length
  lexical : flat.lexical = draft.lexicalTable grammar
  conflicts : flat.conflicts = grammar.conflicts

theorem numberedAs_of_number {flat : FlatGrammar} (success : draft.number grammar = .ok flat) :
    draft.NumberedAs grammar flat := by
  unfold number at success
  dsimp only at success
  split at success
  case h_1 => cases success
  case h_2 start found =>
      obtain rfl := Except.ok.inj success
      refine ⟨⟨_, fun info member => ?_, rfl⟩, rfl, rfl, ⟨start, found, rfl⟩, ?_, rfl, rfl⟩
      · obtain ⟨kind, _, rfl⟩ := List.mem_map.mp member
        rfl
      · intro production member step listed field same
        obtain ⟨origin, _, rfl⟩ := List.mem_map.mp (by simpa using member)
        obtain ⟨plain, _, rfl⟩ := List.mem_map.mp listed
        obtain ⟨name, _, found⟩ := Option.bind_eq_some_iff.mp same
        exact (List.findIdx?_eq_some_iff_getElem.mp found).1

namespace NumberedAs

variable {flat : FlatGrammar}

theorem hasRange (numbering : draft.NumberedAs grammar flat) (sound : draft.Sound grammar)
    {id : Nat} {info : SymbolInfo} (found : flat.symbols[id]? = some info) :
    info.kind.HasRange flat.terminalCount flat.tableSymbolCount id := by
  obtain ⟨aliasSymbols, aliases, symbols⟩ := numbering.symbols
  obtain ⟨terminals, rules, repetitions, shape, first, _, areTerminals, areRules, areRepetitions⟩ :=
    tableSymbols_eq sound
  have length := length_tableSymbols sound
  rw [← Array.getElem?_toList, symbols, getElem?_withCanonicalKinds] at found
  obtain ⟨plain, listed, rfl⟩ := Option.map_eq_some_iff.mp found
  have bound := (List.getElem?_eq_some_iff.mp listed).1
  rw [numbering.terminalCount, numbering.tableSymbolCount, ← length, shape, ← first]
  simp only [shape, List.length_append] at bound ⊢
  rw [shape] at listed
  by_cases inTable : id < (terminals ++ rules ++ repetitions).length
  case neg =>
      rw [List.getElem?_append_right (Nat.not_lt.mp inTable)] at listed
      rw [aliases plain (List.mem_of_getElem? listed)]
      simpa only [SymbolKind.HasRange, List.length_append] using Nat.not_lt.mp inTable
  case pos =>
      rw [List.getElem?_append_left inTable] at listed
      simp only [List.length_append] at inTable
      by_cases inRules : id < (terminals ++ rules).length
      case neg =>
          rw [List.getElem?_append_right (Nat.not_lt.mp inRules)] at listed
          rw [areRepetitions plain (List.mem_of_getElem? listed)]
          simp only [List.length_append] at inRules
          simp only [SymbolKind.HasRange]
          omega
      case pos =>
          rw [List.getElem?_append_left inRules] at listed
          by_cases inTerminals : id < terminals.length
          case neg =>
              rw [List.getElem?_append_right (Nat.not_lt.mp inTerminals)] at listed
              rw [areRules plain (List.mem_of_getElem? listed)]
              simp only [SymbolKind.HasRange]
              omega
          case pos =>
              rw [List.getElem?_append_left inTerminals] at listed
              rw [areTerminals plain (List.mem_of_getElem? listed)]
              exact inTerminals

theorem isCanonical (numbering : draft.NumberedAs grammar flat) (few : flat.symbols.size ≤ 65535)
    {id : Nat} {info : SymbolInfo} (found : flat.symbols[id]? = some info) :
    ∃ kind, flat.symbols[info.canonical.toNat]? = some kind ∧ kind.canonical = info.canonical := by
  obtain ⟨aliasSymbols, _, symbols⟩ := numbering.symbols
  rw [← Array.length_toList, symbols, withCanonicalKinds, List.length_map,
    List.length_zipIdx] at few
  rw [← Array.getElem?_toList, symbols] at found
  obtain ⟨kind, place, own⟩ := isCanonical_withCanonicalKinds few found
  exact ⟨kind, by rw [← Array.getElem?_toList, symbols]; exact place, own⟩

end NumberedAs

end FlatDraft

/-! ## The start symbol -/

/-- Where the start rule is syntactic, it is the first of the syntactic rules. -/
theorem Grammar.startRule?_of_idxOf? {grammar : Grammar} {start : Nat}
    (found : grammar.syntacticRules.idxOf? (grammar.startRule?.getD "") = some start) :
    start = 0 ∧ ∃ name, grammar.startRule? = some name ∧ grammar.syntacticRules.head? = some name := by
  have distinct := grammar.names_nodup
  cases rules : grammar.rules with
  | nil => simp [syntacticRules, rules] at found
  | cons entry others =>
      obtain ⟨name, body⟩ := entry
      have starts : grammar.startRule? = some name := by simp [startRule?, rules]
      rw [starts, Option.getD_some] at found
      rw [rules, List.map_cons, List.nodup_cons] at distinct
      cases lexical : body.isLexical with
      | false =>
          have first : grammar.syntacticRules.head? = some name := by
            simp [syntacticRules, rules, lexical]
          obtain ⟨rest, shape⟩ := List.head?_eq_some_iff.mp first
          rw [shape, List.idxOf?_cons] at found
          exact ⟨by simpa [eq_comm] using found, name, starts, first⟩
      | true =>
          -- a lexical start rule is not among the syntactic ones, and no other has its name
          obtain ⟨bound, same, _⟩ := List.findIdx?_eq_some_iff_getElem.mp found
          have member := List.getElem_mem bound
          simp only [beq_iff_eq] at same
          rw [same, syntacticRules, rules, List.filter_cons_of_neg (by simp [lexical])] at member
          obtain ⟨other, listed, named⟩ := List.mem_map.mp member
          exact absurd (List.mem_map.mpr ⟨other, (List.mem_filter.mp listed).1, named⟩) distinct.1

/-- The start symbol is the first nonterminal, that of the first rule. -/
theorem FlatDraft.NumberedAs.start_eq {grammar : Grammar} {draft : FlatDraft} {flat : FlatGrammar}
    (numbering : draft.NumberedAs grammar flat) (sound : draft.Sound grammar) :
    flat.start = flat.terminalCount ∧ ∃ name info, grammar.startRule? = some name ∧
      flat.symbols[flat.start]? = some info ∧ info.name = name ∧ info.kind = .nonterminal := by
  obtain ⟨aliasSymbols, _, symbols⟩ := numbering.symbols
  obtain ⟨terminals, rules, repetitions, shape, first, names, _, areRules, _⟩ :=
    tableSymbols_eq sound
  obtain ⟨start, found, place⟩ := numbering.start
  obtain ⟨rfl, name, starts, head⟩ := Grammar.startRule?_of_idxOf? found
  rw [Nat.add_zero] at place
  rw [← names] at head
  obtain ⟨info, rest, rfl⟩ : ∃ info rest, rules = info :: rest :=
    List.exists_cons_of_ne_nil fun empty => by simp [empty] at head
  have listed : (draft.tableSymbols grammar ++ aliasSymbols)[flat.start]? = some info := by
    rw [place, shape, ← first, List.append_assoc, List.append_assoc,
      List.getElem?_append_right (Nat.le_refl _)]
    simp
  have stored := getElem?_withCanonicalKinds (draft.tableSymbols grammar ++ aliasSymbols) flat.start
  rw [← symbols, Array.getElem?_toList, listed] at stored
  exact ⟨place.trans numbering.terminalCount.symm, name, _, starts, stored, by simpa using head,
    areRules info List.mem_cons_self⟩

end Lalr
