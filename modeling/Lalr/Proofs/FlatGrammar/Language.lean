import Mathlib
import Mathlib.Data.List.Forall2
import Lalr.FlatGrammar.Terminal
import Lalr.Proofs.Except
import Lalr.Proofs.FlatGrammar.Completion
import Lalr.Proofs.FlatGrammar.Derivation

set_option autoImplicit false

/-!
The language of rule expressions, independent of any flattening: every expression denotes a set of
terminal strings, and the sets of the rules are the least ones that satisfy the rules. The language
of a flat grammar is this one. What a sequence of symbols yields with the productions of the draft
is compared with what the expressions denote, one direction by induction on the yield and the other
on the denotation; numbering the symbols then changes names only.
-/

namespace Lalr

/-! ## What expressions denote -/

/-- The strings of terminals that an expression denotes. Marks are transparent; a name denotes
the language of a syntactic rule, the token of a lexical rule or an external token. -/
inductive Grammar.Denotes (grammar : Grammar) : Rule → List TerminalKey → Prop where
  | blank : Denotes grammar .blank []
  | literal {text : String} : Denotes grammar (.literal text) [.literal text]
  | pattern {text : String} : Denotes grammar (.pattern text) [.pattern text]
  | token {rule text : String} {body : Rule} :
      body.patternText rule = .ok text → Denotes grammar (.token body) [.pattern text]
  | keyword {name : String} : Denotes grammar (.keyword name) [.keyword name]
  | syntactic {name : String} {body : Rule} {word : List TerminalKey} :
      grammar.rule? name = some body → body.isLexical = false → Denotes grammar body word →
        Denotes grammar (.symbol name) word
  | lexical {name : String} {body : Rule} :
      grammar.rule? name = some body → body.isLexical = true →
        Denotes grammar (.symbol name) [.named name]
  | external {name : String} :
      grammar.rule? name = none → name ∈ grammar.externals →
        Denotes grammar (.symbol name) [.external name]
  | seqNil : Denotes grammar (.seq []) []
  | seqCons {item : Rule} {items : List Rule} {first rest : List TerminalKey} :
      Denotes grammar item first → Denotes grammar (.seq items) rest →
        Denotes grammar (.seq (item :: items)) (first ++ rest)
  | choice {item : Rule} {items : List Rule} {word : List TerminalKey} :
      item ∈ items → Denotes grammar item word → Denotes grammar (.choice items) word
  | absent {body : Rule} : Denotes grammar (.optional body) []
  | present {body : Rule} {word : List TerminalKey} :
      Denotes grammar body word → Denotes grammar (.optional body) word
  | never {body : Rule} : Denotes grammar (.repeat0 body) []
  | often {body : Rule} {word : List TerminalKey} :
      Denotes grammar (.repeat1 body) word → Denotes grammar (.repeat0 body) word
  | once {body : Rule} {word : List TerminalKey} :
      Denotes grammar body word → Denotes grammar (.repeat1 body) word
  | again {body : Rule} {before last : List TerminalKey} :
      Denotes grammar (.repeat1 body) before → Denotes grammar body last →
        Denotes grammar (.repeat1 body) (before ++ last)
  | prec {value : Int32} {associativity : Option Associativity} {body : Rule}
      {word : List TerminalKey} :
      Denotes grammar body word → Denotes grammar (.prec value associativity body) word
  | dynamicPrec {value : Int32} {body : Rule} {word : List TerminalKey} :
      Denotes grammar body word → Denotes grammar (.dynamicPrec value body) word
  | field {name : String} {body : Rule} {word : List TerminalKey} :
      Denotes grammar body word → Denotes grammar (.field name body) word
  | aliased {name : String} {named : Bool} {body : Rule} {word : List TerminalKey} :
      Denotes grammar body word → Denotes grammar (.aliased name named body) word
  | immediate {body : Rule} {key : TerminalKey} :
      Denotes grammar body [key] → Denotes grammar (.immediate body) [.immediate key]

namespace Grammar

variable {grammar : Grammar}

theorem denotes_seq_iff {items : List Rule} {word : List TerminalKey} :
    grammar.Denotes (.seq items) word ↔
      ∃ parts, List.Forall₂ grammar.Denotes items parts ∧ word = parts.flatten := by
  induction items generalizing word with
  | nil =>
      constructor
      · intro denotes
        cases denotes
        exact ⟨[], .nil, rfl⟩
      · rintro ⟨parts, each, rfl⟩
        cases each
        exact .seqNil
  | cons item items ih =>
      constructor
      · intro denotes
        cases denotes with
        | seqCons head tail =>
            obtain ⟨parts, each, rfl⟩ := ih.mp tail
            exact ⟨_ :: parts, .cons head each, rfl⟩
      · rintro ⟨parts, each, rfl⟩
        cases each with
        | cons head tail => exact .seqCons head (ih.mpr ⟨_, tail, rfl⟩)

theorem Denotes.cons_repeat1 {body : Rule} {first word : List TerminalKey}
    (lead : grammar.Denotes body first) {content : Rule}
    (denotes : grammar.Denotes content word) (shape : content = .repeat1 body) :
    grammar.Denotes (.repeat1 body) (first ++ word) := by
  induction denotes with
  | once single =>
      cases shape
      exact .again (.once lead) single
  | again _ last more _ =>
      cases shape
      rw [← List.append_assoc]
      exact .again (more rfl) last
  | _ => cases shape

theorem denotes_repeat1_iff {body : Rule} {word : List TerminalKey} :
    grammar.Denotes (.repeat1 body) word ↔
      ∃ parts, parts ≠ [] ∧ (∀ part ∈ parts, grammar.Denotes body part) ∧
        word = parts.flatten := by
  constructor
  · intro denotes
    generalize shape : Rule.repeat1 body = content at denotes
    induction denotes with
    | @once _ word single =>
        cases shape
        exact ⟨[word], by simp, by simpa using single, by simp⟩
    | @again _ _ last _ single more _ =>
        cases shape
        obtain ⟨parts, _, each, rfl⟩ := more rfl
        refine ⟨parts ++ [last], by simp, ?_, by simp⟩
        intro part member
        rcases List.mem_append.mp member with early | late
        · exact each part early
        · exact List.mem_singleton.mp late ▸ single
    | _ => cases shape
  · rintro ⟨parts, nonempty, each, rfl⟩
    induction parts with
    | nil => exact absurd rfl nonempty
    | cons part parts ih =>
        have lead := each part List.mem_cons_self
        cases parts with
        | nil =>
            rw [List.flatten_cons, List.flatten_nil, List.append_nil]
            exact .once lead
        | cons next parts =>
            exact lead.cons_repeat1 (ih (by simp) fun other member =>
              each other (List.mem_cons_of_mem _ member)) rfl

theorem denotes_repeat0_iff {body : Rule} {word : List TerminalKey} :
    grammar.Denotes (.repeat0 body) word ↔
      ∃ parts : List (List TerminalKey), (∀ part ∈ parts, grammar.Denotes body part) ∧
        word = parts.flatten := by
  constructor
  · intro denotes
    cases denotes with
    | never => exact ⟨[], List.forall_mem_nil _, rfl⟩
    | often more =>
        obtain ⟨parts, _, each, joined⟩ := denotes_repeat1_iff.mp more
        exact ⟨parts, each, joined⟩
  · rintro ⟨parts, each, rfl⟩
    cases parts with
    | nil => exact .never
    | cons part parts => exact .often (denotes_repeat1_iff.mpr ⟨part :: parts, by simp, each, rfl⟩)

end Grammar

namespace Rule

mutual

/-- The rule a token stands in is named in mistakes only. -/
theorem patternText_of_ok {rule other text : String} {body : Rule}
    (success : body.patternText rule = .ok text) : body.patternText other = .ok text := by
  cases body with
  | blank | literal | pattern => exact success
  | token body | prec _ _ body | dynamicPrec _ body =>
      rw [patternText] at success ⊢
      exact patternText_of_ok success
  | optional body | repeat0 body | repeat1 body =>
      rw [patternText] at success ⊢
      obtain ⟨inner, found, same⟩ := exists_of_bind_eq_ok success
      rw [patternText_of_ok found]
      exact same
  | seq items | choice items =>
      rw [patternText] at success ⊢
      obtain ⟨parts, found, same⟩ := exists_of_bind_eq_ok success
      rw [patternTexts_of_ok found]
      exact same
  | symbol | keyword | field | aliased | immediate => cases success

theorem patternTexts_of_ok {rule other : String} {texts : List String} {items : List Rule}
    (success : patternTexts rule items = .ok texts) : patternTexts other items = .ok texts := by
  cases items with
  | nil => exact success
  | cons item items =>
      rw [patternTexts] at success ⊢
      obtain ⟨text, found, rest⟩ := exists_of_bind_eq_ok success
      obtain ⟨others, listed, same⟩ := exists_of_bind_eq_ok rest
      rw [patternText_of_ok found]
      change (patternTexts other items >>= _) = _
      rw [patternTexts_of_ok listed]
      exact same

end

end Rule

/-! ## Draft productions -/

namespace Grammar

variable {grammar : Grammar}

theorem mem_syntacticEntries_iff {name : String} {body : Rule} :
    (name, body) ∈ grammar.syntacticEntries ↔
      grammar.rule? name = some body ∧ body.isLexical = false := by
  have distinct := grammar.names_nodup
  simp only [syntacticEntries, List.mem_filter, Bool.not_eq_true', rule?]
  refine and_congr_left fun _ => ?_
  rw [List.lookup_eq_some_iff]
  constructor
  · intro member
    obtain ⟨before, behind, split⟩ := List.append_of_mem member
    refine ⟨before, behind, split, ?_⟩
    intro entry early
    rw [split, List.map_append, List.map_cons, List.nodup_append] at distinct
    have apart := distinct.2.2 entry.1 (List.mem_map_of_mem early) name List.mem_cons_self
    simpa using fun same => apart same.symm
  · rintro ⟨before, behind, split, _⟩
    rw [split]
    simp

theorem syntacticRules_nodup (grammar : Grammar) : grammar.syntacticRules.Nodup :=
  grammar.names_nodup.sublist (List.filter_sublist.map Prod.fst)

theorem idxOf?_syntacticRules_iff {name : String} {index : Nat} :
    grammar.syntacticRules.idxOf? name = some index ↔
      ∃ body, grammar.syntacticEntries[index]? = some (name, body) := by
  have placed : grammar.syntacticRules[index]? = some name ↔
      ∃ body, grammar.syntacticEntries[index]? = some (name, body) := by
    simp [syntacticRules, syntacticEntries, List.getElem?_map]
  rw [← placed, List.idxOf?_eq_some_iff, List.getElem?_eq_some_iff]
  refine exists_congr fun bound => and_iff_left_of_imp ?_
  rintro rfl earlier before same
  exact absurd (grammar.syntacticRules_nodup.getElem_inj_iff.mp same) (Nat.ne_of_lt before)

theorem isLexical_of_idxOf?_eq_none {name : String} {body : Rule}
    (absent : grammar.syntacticRules.idxOf? name = none)
    (known : grammar.rule? name = some body) : body.isLexical = true := by
  cases lexical : body.isLexical with
  | true => rfl
  | false =>
      have entered := mem_syntacticEntries_iff.mpr ⟨known, lexical⟩
      obtain ⟨index, listed⟩ := List.mem_iff_getElem?.mp entered
      rw [idxOf?_syntacticRules_iff.mpr ⟨body, listed⟩] at absent
      cases absent

end Grammar

theorem exists_of_mem_forall₂ {α β : Type} {related : α → β → Prop} {first : List α}
    {second : List β} (each : List.Forall₂ related first second) {value : β}
    (member : value ∈ second) : ∃ other ∈ first, related other value := by
  induction each with
  | nil => exact absurd member List.not_mem_nil
  | cons head _ ih =>
      rcases List.mem_cons.mp member with rfl | later
      · exact ⟨_, List.mem_cons_self, head⟩
      · obtain ⟨other, listed, pair⟩ := ih later
        exact ⟨other, List.mem_cons_of_mem _ listed, pair⟩

namespace FlatDraft

/-- What a sequence of symbols stands for with the productions found so far. -/
inductive Yields (draft : FlatDraft) : List SymbolRef → List TerminalKey → Prop where
  | nil : Yields draft [] []
  | terminal {index : Nat} {key : TerminalKey} {symbols : List SymbolRef}
      {word : List TerminalKey} :
      draft.keys[index]? = some key → Yields draft symbols word →
        Yields draft (.terminal index :: symbols) (key :: word)
  | production {production : DraftProduction} {symbols : List SymbolRef}
      {first word : List TerminalKey} :
      production ∈ draft.productions → Yields draft production.alternative.symbols first →
        Yields draft symbols word → Yields draft (production.lhs :: symbols) (first ++ word)

variable {grammar : Grammar} {draft : FlatDraft}

namespace Yields

theorem append {first second : List SymbolRef} {firstWord secondWord : List TerminalKey}
    (left : draft.Yields first firstWord) (right : draft.Yields second secondWord) :
    draft.Yields (first ++ second) (firstWord ++ secondWord) := by
  induction left with
  | nil => exact right
  | terminal placed _ rest => exact .terminal placed rest
  | production member inner _ _ rest =>
      rw [List.append_assoc]
      exact .production member inner rest

theorem of_hasProduction {lhs : SymbolRef} {symbols : List SymbolRef} {word : List TerminalKey}
    (has : draft.HasProduction lhs symbols) (yields : draft.Yields symbols word) :
    draft.Yields [lhs] word := by
  obtain ⟨production, member, rfl, rfl⟩ := has
  simpa using Yields.production member yields .nil

theorem of_key {index : Nat} {key : TerminalKey} (placed : draft.keys[index]? = some key) :
    draft.Yields [.terminal index] [key] :=
  .terminal placed .nil

theorem eq_key {index : Nat} {key other : TerminalKey}
    (yields : draft.Yields [.terminal index] [other]) (sound : draft.Sound grammar)
    (placed : draft.keys[index]? = some key) : other = key := by
  generalize shape : [SymbolRef.terminal index] = symbols at yields
  generalize result : [other] = word at yields
  cases yields with
  | nil => cases shape
  | terminal known _ =>
      cases shape
      cases result
      exact Option.some.inj (known.symm.trans placed)
  | production member _ _ =>
      have left := (sound.productions _ member).1
      rw [← (List.cons.inj shape).1] at left
      exact absurd left id

end Yields

/-! ## Every yield is denoted -/

/-- What a symbol is meant to stand for: a terminal for its key, a rule for the language of
its name, a repetition for one or more strings of its content. -/
def Means (grammar : Grammar) (draft : FlatDraft) : SymbolRef → List TerminalKey → Prop
  | .terminal index, word => ∃ key, draft.keys[index]? = some key ∧ word = [key]
  | .rule index, word => ∃ name, grammar.syntacticRules.idxOf? name = some index ∧
      grammar.Denotes (.symbol name) word
  | .repetition index, word => ∃ known, draft.repetitions[index]? = some known ∧
      grammar.Denotes (.repeat1 known.content) word

/-- What a sequence of symbols is meant to stand for. -/
def MeansAll (grammar : Grammar) (draft : FlatDraft) (symbols : List SymbolRef)
    (word : List TerminalKey) : Prop :=
  ∃ parts, List.Forall₂ (draft.Means grammar) symbols parts ∧ word = parts.flatten

theorem meansAll_nil_iff {word : List TerminalKey} :
    draft.MeansAll grammar [] word ↔ word = [] := by
  constructor
  · rintro ⟨parts, each, rfl⟩
    cases each
    rfl
  · rintro rfl
    exact ⟨[], .nil, rfl⟩

theorem meansAll_cons_iff {symbol : SymbolRef} {symbols : List SymbolRef}
    {word : List TerminalKey} :
    draft.MeansAll grammar (symbol :: symbols) word ↔
      ∃ first rest, draft.Means grammar symbol first ∧ draft.MeansAll grammar symbols rest ∧
        word = first ++ rest := by
  constructor
  · rintro ⟨parts, each, rfl⟩
    cases each with
    | cons head tail => exact ⟨_, _, head, ⟨_, tail, rfl⟩, rfl⟩
  · rintro ⟨first, rest, head, ⟨parts, tail, rfl⟩, rfl⟩
    exact ⟨first :: parts, .cons head tail, rfl⟩

theorem meansAll_single_iff {symbol : SymbolRef} {word : List TerminalKey} :
    draft.MeansAll grammar [symbol] word ↔ draft.Means grammar symbol word := by
  simp [meansAll_cons_iff, meansAll_nil_iff]

theorem meansAll_append_iff {before behind : List SymbolRef} {word : List TerminalKey} :
    draft.MeansAll grammar (before ++ behind) word ↔
      ∃ first rest, draft.MeansAll grammar before first ∧ draft.MeansAll grammar behind rest ∧
        word = first ++ rest := by
  induction before generalizing word with
  | nil => simp [meansAll_nil_iff]
  | cons symbol before ih =>
      rw [List.cons_append, meansAll_cons_iff]
      constructor
      · rintro ⟨first, rest, head, tail, rfl⟩
        obtain ⟨middle, last, front, back, rfl⟩ := ih.mp tail
        exact ⟨first ++ middle, last, meansAll_cons_iff.mpr ⟨first, middle, head, front, rfl⟩,
          back, (List.append_assoc ..).symm⟩
      · rintro ⟨first, rest, front, back, rfl⟩
        obtain ⟨lead, middle, head, tail, rfl⟩ := meansAll_cons_iff.mp front
        exact ⟨lead, middle ++ rest, head, ih.mpr ⟨middle, rest, tail, back, rfl⟩,
          List.append_assoc ..⟩

theorem means_terminal_iff {index : Nat} {key : TerminalKey} {word : List TerminalKey}
    (placed : draft.keys[index]? = some key) :
    draft.Means grammar (.terminal index) word ↔ word = [key] := by
  simp [Means, placed]

theorem eq_key_of_meansAll {index : Nat} {key : TerminalKey}
    (placed : draft.keys[index]? = some key) {symbols : List SymbolRef}
    (member : symbols ∈ [[SymbolRef.terminal index]]) {word : List TerminalKey}
    (means : draft.MeansAll grammar symbols word) : word = [key] := by
  obtain rfl := List.mem_singleton.mp member
  exact (means_terminal_iff placed).mp (meansAll_single_iff.mp means)

/-- Whatever the sequences that replace an expression are meant to stand for, the expression
denotes. -/
theorem Flattens.denotes {body : Rule} {found : List (List SymbolRef)}
    (sound : draft.Sound grammar) (flattens : draft.Flattens grammar body found)
    {symbols : List SymbolRef} (member : symbols ∈ found) {word : List TerminalKey}
    (means : draft.MeansAll grammar symbols word) : grammar.Denotes body word := by
  induction flattens generalizing symbols word with
  | blank =>
      obtain rfl := List.mem_singleton.mp member
      obtain rfl := meansAll_nil_iff.mp means
      exact .blank
  | literal placed =>
      obtain rfl := eq_key_of_meansAll placed member means
      exact .literal
  | pattern placed =>
      obtain rfl := eq_key_of_meansAll placed member means
      exact .pattern
  | token text placed =>
      obtain rfl := eq_key_of_meansAll placed member means
      exact .token text
  | keyword placed =>
      obtain rfl := eq_key_of_meansAll placed member means
      exact .keyword
  | syntactic known =>
      obtain rfl := List.mem_singleton.mp member
      obtain ⟨name, same, denotes⟩ := meansAll_single_iff.mp means
      obtain ⟨_, first⟩ := Grammar.idxOf?_syntacticRules_iff.mp known
      obtain ⟨_, second⟩ := Grammar.idxOf?_syntacticRules_iff.mp same
      cases first.symm.trans second
      exact denotes
  | lexical absent known placed =>
      obtain rfl := eq_key_of_meansAll placed member means
      exact .lexical known (Grammar.isLexical_of_idxOf?_eq_none absent known)
  | external _ unknown placed =>
      obtain rfl := eq_key_of_meansAll placed member means
      exact .external unknown (sound.externals _ (List.mem_of_getElem? placed))
  | seqNil =>
      obtain rfl := List.mem_singleton.mp member
      obtain rfl := meansAll_nil_iff.mp means
      exact .seqNil
  | seqCons _ _ item items =>
      obtain ⟨before, inFirst, behind, inRest, rfl⟩ := mem_joinAll.mp member
      obtain ⟨first, rest, front, back, rfl⟩ := meansAll_append_iff.mp means
      exact .seqCons (item inFirst front) (items inRest back)
  | choiceNil => exact absurd member List.not_mem_nil
  | choiceCons _ _ item items =>
      rcases List.mem_append.mp member with inFirst | inRest
      · exact .choice List.mem_cons_self (item inFirst means)
      · cases items inRest means with
        | choice listed denotes => exact .choice (List.mem_cons_of_mem _ listed) denotes
  | optional _ inner =>
      rcases List.mem_append.mp member with inBody | empty
      · exact .present (inner inBody means)
      · obtain rfl := List.mem_singleton.mp empty
        obtain rfl := meansAll_nil_iff.mp means
        exact .absent
  | repeat0 known =>
      rcases List.mem_cons.mp member with rfl | empty
      · obtain ⟨other, same, denotes⟩ := meansAll_single_iff.mp means
        cases known.symm.trans same
        exact .often denotes
      · obtain rfl := List.mem_singleton.mp empty
        obtain rfl := meansAll_nil_iff.mp means
        exact .never
  | repeat1 known =>
      -- the repetition is one symbol, so what it is meant to stand for is given at once
      obtain rfl := List.mem_singleton.mp member
      obtain ⟨other, same, denotes⟩ := meansAll_single_iff.mp means
      cases known.symm.trans same
      exact denotes
  | prec _ inner => exact .prec (inner member means)
  | dynamicPrec _ inner => exact .dynamicPrec (inner member means)
  | field _ inner => exact .field (inner member means)
  | aliased _ inner => exact .aliased (inner member means)
  | immediate _ twins inner =>
      obtain ⟨base, listed, index, place, key, rfl, rfl, based, paired⟩ :=
        exists_of_mem_forall₂ twins member
      obtain rfl := (means_terminal_iff paired).mp (meansAll_single_iff.mp means)
      exact .immediate (inner listed (meansAll_single_iff.mpr ((means_terminal_iff based).mpr rfl)))

/-- Whatever symbols yield, they are meant to stand for. -/
theorem Yields.meansAll {count : Nat} (sound : draft.Sound grammar)
    (completed : draft.Completed grammar count)
    (finished : grammar.syntacticEntries.length ≤ count) {symbols : List SymbolRef}
    {word : List TerminalKey} (yields : draft.Yields symbols word) :
    draft.MeansAll grammar symbols word := by
  induction yields with
  | nil => exact meansAll_nil_iff.mpr rfl
  | terminal placed _ rest =>
      exact meansAll_cons_iff.mpr ⟨_, _, (means_terminal_iff placed).mpr rfl, rest, rfl⟩
  | @production production symbols first word member _ _ inner rest =>
      refine meansAll_cons_iff.mpr ⟨first, word, ?_, rest, rfl⟩
      have has : draft.HasProduction production.lhs production.alternative.symbols :=
        ⟨production, member, rfl, rfl⟩
      have left := (sound.productions production member).1
      cases lhs : production.lhs with
      | terminal index =>
          rw [lhs] at left
          exact absurd left id
      | rule index =>
          rw [lhs] at left has
          have bound : index < grammar.syntacticEntries.length := by
            simpa [HasLeftSide, Grammar.syntacticRules, Grammar.syntacticEntries] using left
          obtain ⟨⟨name, body⟩, entry⟩ : ∃ entry, grammar.syntacticEntries[index]? = some entry :=
            ⟨_, List.getElem?_eq_getElem bound⟩
          obtain ⟨found, flattens, productions⟩ :=
            completed.rules index (by omega) name body entry
          obtain ⟨known, syntactic⟩ :=
            Grammar.mem_syntacticEntries_iff.mp (List.mem_of_getElem? entry)
          refine ⟨name, Grammar.idxOf?_syntacticRules_iff.mpr ⟨body, entry⟩, ?_⟩
          exact .syntactic known syntactic
            (flattens.denotes sound ((productions _).mp has) inner)
      | repetition index =>
          rw [lhs] at left has
          obtain ⟨known, found, placed, flattens, productions⟩ := completed.closed index left
          refine ⟨known, placed, ?_⟩
          rcases (productions _).mp has with listed | ⟨behind, listed, split⟩
          · exact .once (flattens.denotes sound listed inner)
          · rw [split] at inner
            obtain ⟨before, last, ⟨other, same, many⟩, one, rfl⟩ := meansAll_cons_iff.mp inner
            cases placed.symm.trans same
            exact .again many (flattens.denotes sound listed one)

/-! ## Everything denoted is yielded -/

theorem Flattens.eq_rule {name : String} {body : Rule} {found : List (List SymbolRef)}
    (flattens : draft.Flattens grammar (.symbol name) found)
    (known : grammar.rule? name = some body) (syntactic : body.isLexical = false) :
    ∃ index, grammar.syntacticEntries[index]? = some (name, body) ∧ found = [[.rule index]] := by
  have entered := Grammar.mem_syntacticEntries_iff.mpr ⟨known, syntactic⟩
  obtain ⟨index, listed⟩ := List.mem_iff_getElem?.mp entered
  have place := Grammar.idxOf?_syntacticRules_iff.mpr ⟨body, listed⟩
  cases flattens with
  | syntactic same =>
      cases place.symm.trans same
      exact ⟨index, listed, rfl⟩
  | lexical absent => cases place.symm.trans absent
  | external absent => cases place.symm.trans absent

/-- Every string that an expression denotes is yielded by one of the sequences that replace it. -/
theorem Flattens.yields {count : Nat} (sound : draft.Sound grammar)
    (completed : draft.Completed grammar count)
    (finished : grammar.syntacticEntries.length ≤ count) {body : Rule} {word : List TerminalKey}
    (denotes : grammar.Denotes body word) {found : List (List SymbolRef)}
    (flattens : draft.Flattens grammar body found) :
    ∃ symbols ∈ found, draft.Yields symbols word := by
  induction denotes generalizing found with
  | blank =>
      cases flattens
      exact ⟨[], by simp, .nil⟩
  | literal =>
      cases flattens with
      | literal placed => exact ⟨_, List.mem_singleton.mpr rfl, .of_key placed⟩
  | pattern =>
      cases flattens with
      | pattern placed => exact ⟨_, List.mem_singleton.mpr rfl, .of_key placed⟩
  | token text =>
      cases flattens with
      | token other placed =>
          cases (Rule.patternText_of_ok text).symm.trans other
          exact ⟨_, List.mem_singleton.mpr rfl, .of_key placed⟩
  | keyword =>
      cases flattens with
      | keyword placed => exact ⟨_, List.mem_singleton.mpr rfl, .of_key placed⟩
  | syntactic known syntactic _ inner =>
      obtain ⟨index, entry, rfl⟩ := flattens.eq_rule known syntactic
      have bound := (List.getElem?_eq_some_iff.mp entry).1
      obtain ⟨sequences, replaced, productions⟩ :=
        completed.rules index (by omega) _ _ entry
      obtain ⟨symbols, listed, yields⟩ := inner replaced
      exact ⟨_, List.mem_singleton.mpr rfl,
        .of_hasProduction ((productions symbols).mpr listed) yields⟩
  | lexical known lexical =>
      cases flattens with
      | syntactic place =>
          obtain ⟨body, entry⟩ := Grammar.idxOf?_syntacticRules_iff.mp place
          obtain ⟨same, syntactic⟩ :=
            Grammar.mem_syntacticEntries_iff.mp (List.mem_of_getElem? entry)
          cases known.symm.trans same
          exact absurd lexical (by simp [syntactic])
      | lexical _ _ placed => exact ⟨_, List.mem_singleton.mpr rfl, .of_key placed⟩
      | external _ unknown => cases known.symm.trans unknown
  | external unknown =>
      cases flattens with
      | syntactic place =>
          obtain ⟨body, entry⟩ := Grammar.idxOf?_syntacticRules_iff.mp place
          obtain ⟨same, _⟩ := Grammar.mem_syntacticEntries_iff.mp (List.mem_of_getElem? entry)
          cases unknown.symm.trans same
      | lexical _ known => cases unknown.symm.trans known
      | external _ _ placed => exact ⟨_, List.mem_singleton.mpr rfl, .of_key placed⟩
  | seqNil =>
      cases flattens
      exact ⟨[], by simp, .nil⟩
  | seqCons _ _ head tail =>
      cases flattens with
      | seqCons item items =>
          obtain ⟨before, inFirst, front⟩ := head item
          obtain ⟨behind, inRest, back⟩ := tail items
          exact ⟨before ++ behind, mem_joinAll.mpr ⟨before, inFirst, behind, inRest, rfl⟩,
            front.append back⟩
  | @choice item items word listed _ inner =>
      -- the item that is chosen may stand anywhere, so its sequences are looked for in turn
      induction items generalizing found with
      | nil => exact absurd listed List.not_mem_nil
      | cons first others ih =>
          cases flattens with
          | choiceCons head tail =>
              rcases List.mem_cons.mp listed with rfl | later
              · obtain ⟨symbols, member, yields⟩ := inner head
                exact ⟨symbols, List.mem_append_left _ member, yields⟩
              · obtain ⟨symbols, member, yields⟩ := ih later tail
                exact ⟨symbols, List.mem_append_right _ member, yields⟩
  | absent =>
      cases flattens
      exact ⟨[], by simp, .nil⟩
  | present _ inner =>
      cases flattens with
      | optional body =>
          obtain ⟨symbols, member, yields⟩ := inner body
          exact ⟨symbols, List.mem_append_left _ member, yields⟩
  | never =>
      cases flattens
      exact ⟨[], by simp, .nil⟩
  | often _ inner =>
      cases flattens with
      | repeat0 known =>
          obtain ⟨symbols, member, yields⟩ := inner (.repeat1 known)
          obtain rfl := List.mem_singleton.mp member
          exact ⟨_, List.mem_cons_self, yields⟩
  | once _ inner =>
      cases flattens with
      | repeat1 known =>
          obtain ⟨entry, sequences, placed, replaced, productions⟩ :=
            completed.closed _ (List.getElem?_eq_some_iff.mp known).1
          cases placed.symm.trans known
          obtain ⟨symbols, member, yields⟩ := inner replaced
          exact ⟨_, List.mem_singleton.mpr rfl,
            .of_hasProduction ((productions symbols).mpr (.inl member)) yields⟩
  | again _ _ many one =>
      -- the repetition so far comes first: its production is recursive on the left
      cases flattens with
      | repeat1 known =>
          obtain ⟨entry, sequences, placed, replaced, productions⟩ :=
            completed.closed _ (List.getElem?_eq_some_iff.mp known).1
          cases placed.symm.trans known
          obtain ⟨before, alone, front⟩ := many (.repeat1 known)
          obtain rfl := List.mem_singleton.mp alone
          obtain ⟨symbols, member, back⟩ := one replaced
          exact ⟨_, List.mem_singleton.mpr rfl,
            .of_hasProduction ((productions _).mpr (.inr ⟨symbols, member, rfl⟩))
              (front.append back)⟩
  | prec _ inner =>
      cases flattens with
      | prec body => exact inner body
  | dynamicPrec _ inner =>
      cases flattens with
      | dynamicPrec body => exact inner body
  | field _ inner =>
      cases flattens with
      | field body => exact inner body
  | aliased _ inner =>
      cases flattens with
      | aliased body => exact inner body
  | immediate _ inner =>
      cases flattens with
      | immediate body twins =>
          obtain ⟨symbols, member, yields⟩ := inner body
          obtain ⟨twin, listed, index, place, key, rfl, rfl, based, paired⟩ :=
            exists_of_mem_forall₂ twins.flip member
          obtain rfl := yields.eq_key sound based
          exact ⟨_, listed, .of_key paired⟩

/-! ## Numbers -/

/-- The number of the terminal with a key. -/
def terminalNumber? (draft : FlatDraft) (grammar : Grammar) (key : TerminalKey) : Option Nat :=
  (terminalIndex? draft.terminals key).map (draft.terminalId grammar)

theorem terminalIndex?_eq_some_iff (sound : draft.Sound grammar) {key : TerminalKey}
    {index : Nat} :
    terminalIndex? draft.terminals key = some index ↔ draft.keys[index]? = some key := by
  refine ⟨getElem?_of_terminalIndex?, fun placed => ?_⟩
  cases found : terminalIndex? draft.terminals key with
  | none => exact absurd (List.mem_of_getElem? placed) (terminalIndex?_eq_none_iff.mp found)
  | some other =>
      have same := (getElem?_of_terminalIndex? found).trans placed.symm
      have bound := (List.getElem?_eq_some_iff.mp (getElem?_of_terminalIndex? found)).1
      exact congrArg some ((List.getElem?_inj bound sound.keysNodup).mp same)

theorem terminalNumber?_eq_some_iff (sound : draft.Sound grammar) {key : TerminalKey}
    {number : Nat} :
    draft.terminalNumber? grammar key = some number ↔
      ∃ index, draft.keys[index]? = some key ∧ draft.terminalId grammar index = number := by
  simp only [terminalNumber?, Option.map_eq_some_iff, terminalIndex?_eq_some_iff sound]

theorem lt_length_terminals {index : Nat} {key : TerminalKey}
    (placed : draft.keys[index]? = some key) : index < draft.terminals.length := by
  rw [← length_keys]
  exact (List.getElem?_eq_some_iff.mp placed).1

theorem terminalId_inj (sound : draft.Sound grammar) {first second : Nat}
    (bound : first < draft.terminals.length) :
    draft.terminalId grammar first = draft.terminalId grammar second ↔ first = second :=
  List.idxOf_inj (mem_terminalOrder sound bound)

theorem terminalId_lt (sound : draft.Sound grammar) {index : Nat}
    (bound : index < draft.terminals.length) :
    draft.terminalId grammar index < draft.terminalCount grammar :=
  List.idxOf_lt_length_of_mem (mem_terminalOrder sound bound)

theorem terminalNumber?_inj (sound : draft.Sound grammar) {first second : TerminalKey}
    {number : Nat} (left : draft.terminalNumber? grammar first = some number)
    (right : draft.terminalNumber? grammar second = some number) : first = second := by
  obtain ⟨index, placed, rfl⟩ := (terminalNumber?_eq_some_iff sound).mp left
  obtain ⟨other, placedOther, same⟩ := (terminalNumber?_eq_some_iff sound).mp right
  obtain rfl := (terminalId_inj sound (lt_length_terminals placedOther)).mp same
  exact Option.some.inj (placed.symm.trans placedOther)

theorem eq_of_symbolId_eq (sound : draft.Sound grammar) {symbol lhs : SymbolRef}
    (entered : draft.HasSymbol grammar symbol) (left : draft.HasLeftSide grammar lhs)
    (same : draft.symbolId grammar symbol = draft.symbolId grammar lhs) : symbol = lhs := by
  cases symbol with
  | terminal index =>
      have small := terminalId_lt sound entered.2
      have large := (symbolId_leftSide_range left).1
      rw [← same] at large
      exact absurd small (Nat.not_lt.mpr large)
  | rule index =>
      have bound : index < grammar.syntacticRules.length := entered
      cases lhs with
      | terminal other => exact absurd left id
      | rule other =>
          simp only [symbolId] at same
          exact congrArg SymbolRef.rule (by omega)
      | repetition other =>
          simp only [symbolId] at same
          omega
  | repetition index =>
      cases lhs with
      | terminal other => exact absurd left id
      | rule other =>
          have bound : other < grammar.syntacticRules.length := left
          simp only [symbolId] at same
          omega
      | repetition other =>
          simp only [symbolId] at same
          exact congrArg SymbolRef.repetition (by omega)

/-- What numbering makes of a draft. -/
structure NumbersTo (grammar : Grammar) (draft : FlatDraft) (flat : FlatGrammar) : Prop where
  terminalCount : flat.terminalCount = draft.terminalCount grammar
  start : ∃ name index, grammar.startRule? = some name ∧
    grammar.syntacticRules.idxOf? name = some index ∧
    flat.start = draft.symbolId grammar (.rule index)
  numbered : ∀ production ∈ draft.productions, ∃ other ∈ flat.productions,
    other.lhs = draft.symbolId grammar production.lhs ∧
      other.rhs = production.alternative.symbols.map (draft.symbolId grammar)
  drafted : ∀ other ∈ flat.productions, ∃ production ∈ draft.productions,
    other.lhs = draft.symbolId grammar production.lhs ∧
      other.rhs = production.alternative.symbols.map (draft.symbolId grammar)

/-- A step of a flat grammar is a step of a draft with its symbol numbered. -/
structure NumbersStep (grammar : Grammar) (draft : FlatDraft) (step : Step)
    (drafted : DraftStep) : Prop where
  symbol : step.symbol = draft.symbolId grammar drafted.symbol
  precedence : step.precedence = drafted.precedence.getD 0
  associativity : step.associativity = drafted.associativity

/-- The productions of a flat grammar are those of the draft with their symbols numbered. -/
theorem mem_productions_of_number {flat : FlatGrammar}
    (success : draft.number grammar = .ok flat) :
    ∃ convert : DraftProduction → Production,
      (∀ other, other ∈ flat.productions ↔
        ∃ production ∈ draft.productions, convert production = other) ∧
      ∀ production, (convert production).lhs = draft.symbolId grammar production.lhs ∧
        List.Forall₂ (draft.NumbersStep grammar) (convert production).steps
          production.alternative.steps := by
  unfold number at success
  dsimp only at success
  split at success
  case h_1 => cases success
  case h_2 =>
      obtain rfl := Except.ok.inj success
      refine ⟨_, fun other => List.mem_toArray.trans (List.mem_mergeSort.trans List.mem_map),
        fun production => ⟨rfl, ?_⟩⟩
      exact List.forall₂_map_left_iff.mpr (List.forall₂_same.mpr fun _ _ => ⟨rfl, rfl, rfl⟩)

theorem NumbersStep.map_symbol {steps : List Step} {drafted : List DraftStep}
    (each : List.Forall₂ (draft.NumbersStep grammar) steps drafted) :
    steps.map Step.symbol = (drafted.map DraftStep.symbol).map (draft.symbolId grammar) := by
  induction each with
  | nil => rfl
  | cons here _ ih => rw [List.map_cons, List.map_cons, List.map_cons, ih, here.symbol]

theorem numbersTo_of_number {flat : FlatGrammar} (success : draft.number grammar = .ok flat) :
    draft.NumbersTo grammar flat := by
  obtain ⟨convert, members, converted⟩ := mem_productions_of_number success
  unfold number at success
  dsimp only at success
  split at success
  case h_1 => cases success
  case h_2 start found =>
      obtain rfl := Except.ok.inj success
      refine ⟨rfl, ?_, ?_, ?_⟩
      · cases rules : grammar.rules with
        | nil => simp [Grammar.syntacticRules, rules] at found
        | cons entry others =>
            have named : grammar.startRule? = some entry.1 := by simp [Grammar.startRule?, rules]
            rw [named] at found
            exact ⟨entry.1, start, named, found, rfl⟩
      · intro production member
        obtain ⟨lhs, steps⟩ := converted production
        exact ⟨_, (members _).mpr ⟨production, member, rfl⟩, lhs, NumbersStep.map_symbol steps⟩
      · intro other member
        obtain ⟨production, listed, rfl⟩ := (members other).mp member
        obtain ⟨lhs, steps⟩ := converted production
        exact ⟨production, listed, lhs, NumbersStep.map_symbol steps⟩

/-- What symbols yield, their numbers yield. -/
theorem Yields.numbered {flat : FlatGrammar} (sound : draft.Sound grammar)
    (numbers : draft.NumbersTo grammar flat) {symbols : List SymbolRef}
    {keys : List TerminalKey} (yields : draft.Yields symbols keys) :
    ∃ word, List.Forall₂ (fun key number => draft.terminalNumber? grammar key = some number)
        keys word ∧ flat.Yields (symbols.map (draft.symbolId grammar)) word := by
  induction yields with
  | nil => exact ⟨[], .nil, .nil⟩
  | @terminal index key symbols word placed _ rest =>
      obtain ⟨tail, each, behind⟩ := rest
      have terminal : flat.isTerminal (draft.terminalId grammar index) = true := by
        simpa [FlatGrammar.isTerminal, numbers.terminalCount] using
          terminalId_lt sound (lt_length_terminals placed)
      exact ⟨_ :: tail, .cons ((terminalNumber?_eq_some_iff sound).mpr ⟨index, placed, rfl⟩) each,
        .terminal terminal behind⟩
  | production member _ _ inner rest =>
      obtain ⟨first, eachFirst, front⟩ := inner
      obtain ⟨tail, each, behind⟩ := rest
      obtain ⟨other, listed, left, right⟩ := numbers.numbered _ member
      refine ⟨first ++ tail, List.rel_append eachFirst each, ?_⟩
      rw [List.map_cons, ← left]
      exact .production listed (right ▸ front) behind

/-- What the numbers of symbols yield, the symbols yield. -/
theorem Yields.of_numbered {flat : FlatGrammar} (sound : draft.Sound grammar)
    (numbers : draft.NumbersTo grammar flat) {symbols : List SymbolRef}
    (entered : ∀ symbol ∈ symbols, draft.HasSymbol grammar symbol) {word : List Nat}
    (yields : flat.Yields (symbols.map (draft.symbolId grammar)) word) :
    ∃ keys, List.Forall₂ (fun key number => draft.terminalNumber? grammar key = some number)
        keys word ∧ draft.Yields symbols keys := by
  generalize shape : symbols.map (draft.symbolId grammar) = numbered at yields
  induction yields generalizing symbols with
  | nil =>
      obtain rfl := List.map_eq_nil_iff.mp shape
      exact ⟨[], .nil, .nil⟩
  | terminal terminal _ rest =>
      obtain ⟨symbol, others, rfl, rfl, rfl⟩ := List.map_eq_cons_iff.mp shape
      obtain ⟨keys, each, behind⟩ :=
        rest (fun other member => entered other (List.mem_cons_of_mem _ member)) rfl
      have here := entered symbol List.mem_cons_self
      have small : draft.symbolId grammar symbol < draft.terminalCount grammar := by
        simpa [FlatGrammar.isTerminal, numbers.terminalCount] using terminal
      cases symbol with
      | terminal index =>
          have bound : index < draft.keys.length := draft.length_keys ▸ here.2
          have placed := List.getElem?_eq_getElem bound
          exact ⟨_ :: keys,
            .cons ((terminalNumber?_eq_some_iff sound).mpr ⟨index, placed, rfl⟩) each,
            .terminal placed behind⟩
      | rule index =>
          simp only [symbolId] at small
          omega
      | repetition index =>
          simp only [symbolId] at small
          omega
  | production member _ _ inner rest =>
      obtain ⟨symbol, others, rfl, left, rfl⟩ := List.map_eq_cons_iff.mp shape
      obtain ⟨keys, each, behind⟩ :=
        rest (fun other member => entered other (List.mem_cons_of_mem _ member)) rfl
      obtain ⟨production, listed, same, right⟩ := numbers.drafted _ member
      obtain ⟨leftSide, has⟩ := sound.productions production listed
      obtain rfl := eq_of_symbolId_eq sound (entered symbol List.mem_cons_self) leftSide
        (left.trans same)
      have enteredRight : ∀ other ∈ production.alternative.symbols,
          draft.HasSymbol grammar other := by
        intro other inside
        obtain ⟨step, stepMember, rfl⟩ := List.mem_map.mp inside
        exact has step stepMember
      obtain ⟨first, eachFirst, front⟩ := inner enteredRight right.symm
      exact ⟨first ++ keys, List.rel_append eachFirst each, .production listed front behind⟩

end FlatDraft

namespace Grammar

/-- The number that the terminal with a key gets when a grammar is flattened. -/
def terminalNumber? (grammar : Grammar) (key : TerminalKey) : Option Nat :=
  match FlatDraft.ofGrammar grammar with
  | .ok draft => draft.terminalNumber? grammar key
  | .error _ => none

/-- A string of terminals and its numbers. -/
def Numbers (grammar : Grammar) (keys : List TerminalKey) (word : List Nat) : Prop :=
  List.Forall₂ (fun key number => grammar.terminalNumber? key = some number) keys word

end Grammar

/-- The words that the start symbol derives with the flat productions are, number by number,
the strings that the start rule denotes, and different terminals have different numbers. -/
theorem generates_iff_denotes {source : Grammar} {grammar : FlatGrammar}
    (flattened : FlatGrammar.ofGrammar source = .ok grammar) :
    (∀ first second number, source.terminalNumber? first = some number →
      source.terminalNumber? second = some number → first = second) ∧
    ∃ start, source.startRule? = some start ∧
      (∀ word, grammar.Generates word ↔
        ∃ keys, source.Denotes (.symbol start) keys ∧ source.Numbers keys word) ∧
      ∀ keys, source.Denotes (.symbol start) keys → ∃ word, source.Numbers keys word := by
  obtain ⟨draft, drafted, numbered⟩ := FlatGrammar.exists_draft_of_ofGrammar flattened
  have sound := FlatDraft.sound_of_ofGrammar drafted
  have completed := FlatDraft.completed_of_ofGrammar drafted
  have numbers := FlatDraft.numbersTo_of_number numbered
  have number : ∀ key, source.terminalNumber? key = draft.terminalNumber? source key := by
    intro key
    rw [Grammar.terminalNumber?, drafted]
  obtain ⟨name, index, start, place, same⟩ := numbers.start
  have bound : index < source.syntacticRules.length :=
    (List.findIdx?_eq_some_iff_getElem.mp place).1
  have replaced : draft.Flattens source (.symbol name) [[.rule index]] := .syntactic place
  have denoted : ∀ keys, source.Denotes (.symbol name) keys →
      ∃ word, source.Numbers keys word ∧ grammar.Generates word := by
    intro keys denotes
    obtain ⟨symbols, alone, yields⟩ := replaced.yields sound completed (Nat.le_refl _) denotes
    obtain rfl := List.mem_singleton.mp alone
    obtain ⟨word, each, derived⟩ := yields.numbered sound numbers
    refine ⟨word, by simpa only [Grammar.Numbers, number] using each, ?_⟩
    rw [FlatGrammar.generates_iff_yields, same]
    exact derived
  refine ⟨?_, name, start, fun word => ⟨?_, ?_⟩, ?_⟩
  · intro first second value left right
    rw [number] at left right
    exact FlatDraft.terminalNumber?_inj sound left right
  · intro generates
    rw [FlatGrammar.generates_iff_yields, same] at generates
    have entered : ∀ symbol ∈ [SymbolRef.rule index], draft.HasSymbol source symbol := by
      simpa [FlatDraft.HasSymbol] using bound
    obtain ⟨keys, each, yields⟩ :=
      FlatDraft.Yields.of_numbered sound numbers entered generates
    have means := yields.meansAll sound completed (Nat.le_refl _)
    exact ⟨keys, replaced.denotes sound (List.mem_singleton.mpr rfl) means,
      by simpa only [Grammar.Numbers, number] using each⟩
  · rintro ⟨keys, denotes, each⟩
    obtain ⟨other, eachOther, generates⟩ := denoted keys denotes
    have same : word = other :=
      List.right_unique_forall₂' (fun _ _ _ left right => Option.some.inj (left.symm.trans right))
        each eachOther
    exact same ▸ generates
  · intro keys denotes
    obtain ⟨word, each, _⟩ := denoted keys denotes
    exact ⟨word, each⟩

/-- The grammar of a list of items behind an optional mark. -/
def listGrammar : Grammar :=
  ⟨{ name := "list"
     rules :=
      [("start", .seq [.optional (.literal "#"),
          .field "items" (.repeat1 (.seq [.symbol "item", .immediate (.literal ",")]))]),
        ("item", .choice [.symbol "word", .prec 1 none (.repeat0 (.literal "x"))]),
        ("word", .literal "w")] }, by decide⟩

set_option maxRecDepth 10000 in
theorem generates_iff_denotes_of_list :
    ∃ grammar, FlatGrammar.ofGrammar listGrammar = .ok grammar ∧
      ∃ start, listGrammar.startRule? = some start ∧
        ∀ word, grammar.Generates word ↔
          ∃ keys, listGrammar.Denotes (.symbol start) keys ∧ listGrammar.Numbers keys word := by
  have measured : ((FlatGrammar.ofGrammar listGrammar).toOption.map fun grammar =>
      grammar.productions.size) = some 9 := by cbv
  cases flattened : FlatGrammar.ofGrammar listGrammar with
  | error failure => simp [flattened, Except.toOption] at measured
  | ok grammar =>
      obtain ⟨_, start, named, words, _⟩ := generates_iff_denotes flattened
      exact ⟨grammar, rfl, start, named, words⟩

end Lalr
