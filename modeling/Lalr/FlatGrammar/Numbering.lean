import Lalr.FlatGrammar.Basic
import Lalr.FlatGrammar.Flatten
import Lalr.Grammar.Check

set_option autoImplicit false

/-!
Numbering of symbols. Terminals come first: the end of the input, then tokens in
the order of their discovery, then external tokens in the order of their
declaration. Syntactic rules, repetitions and the kinds of aliases follow.
-/

namespace Lalr

/-- A node kind: its name and whether it is a named one. -/
abbrev KindName := String × Bool

/-- Whether a visible symbol has a kind name. -/
def SymbolInfo.hasKind (info : SymbolInfo) (kind : KindName) : Bool :=
  info.visible && info.named == kind.2 && info.name == kind.1

namespace FlatDraft

variable (draft : FlatDraft) (grammar : Grammar)

/-- The places of the terminals in the order of their numbers. -/
def terminalOrder : List Nat :=
  let own := draft.terminals.zipIdx.filter fun (terminal, index) =>
    index != 0 && !terminal.key.isExternal
  let external := grammar.externals.filterMap fun name =>
    terminalIndex? draft.terminals (.external name)
  0 :: own.map Prod.snd ++ external

/-- The number of the terminal in a place. -/
def terminalId (index : Nat) : Nat :=
  (draft.terminalOrder grammar).idxOf index

/-- The number of terminals. -/
def terminalCount : Nat :=
  (draft.terminalOrder grammar).length

/-- The number of terminals, syntactic rules and repetitions. -/
def tableSymbolCount : Nat :=
  draft.terminalCount grammar + grammar.syntacticRules.length + draft.repetitions.length

/-- The number of a symbol. -/
def symbolId : SymbolRef → Nat
  | .terminal index => draft.terminalId grammar index
  | .rule index => draft.terminalCount grammar + index
  | .repetition index =>
      draft.terminalCount grammar + grammar.syntacticRules.length + index

/-- The terminals, rules and repetitions by number; the canonical kinds are not yet
settled. -/
def tableSymbols : List SymbolInfo :=
  let terminals := (draft.terminalOrder grammar).filterMap fun index =>
    (draft.terminals[index]?).map fun terminal =>
      { name := terminal.name
        kind := .terminal
        named := terminal.named
        visible := terminal.visible
        extra := terminal.extra
        external := terminal.key.isExternal
        canonical := 0 : SymbolInfo }
  let rules := grammar.syntacticRules.map fun name =>
    { name := name
      kind := .nonterminal
      named := true
      visible := !isHiddenName name
      extra := false
      external := false
      canonical := 0 : SymbolInfo }
  let repetitions := draft.repetitions.map fun known =>
    { name := known.name
      kind := .auxiliary
      named := false
      visible := false
      extra := false
      external := false
      canonical := 0 : SymbolInfo }
  terminals ++ rules ++ repetitions

/-- The kinds that only aliases produce, in the order of their first use. -/
def aliasKinds (symbols : List SymbolInfo) : List KindName :=
  let used := draft.productions.flatMap fun production =>
    production.alternative.steps.filterMap DraftStep.shownAs
  (used.filter fun kind => !symbols.any (·.hasKind kind)).eraseDups

end FlatDraft

/-- The number of a kind: that of the first visible symbol of this kind, or a number
behind all table symbols. -/
def kindId (symbols : List SymbolInfo) (aliases : List KindName) (kind : KindName) : Nat :=
  match symbols.findIdx? (·.hasKind kind) with
  | some id => id
  | none => symbols.length + aliases.idxOf kind

/-- Gives every symbol the first visible symbol of its kind as the canonical one; the
end of the input and hidden symbols stand for themselves. -/
def withCanonicalKinds (symbols : List SymbolInfo) : List SymbolInfo :=
  symbols.zipIdx.map fun (info, id) =>
    let canonical :=
      if info.visible && id != 0 then
        ((symbols.zipIdx.find? fun (other, otherId) =>
          otherId != 0 && other.hasKind (info.name, info.named)).map Prod.snd).getD id
      else id
    { info with canonical := canonical.toUInt16 }

/-- Texts with a symbol, by ascending text and symbol. -/
def textBefore (first second : String × SymbolId) : Bool :=
  first.1 < second.1 || (first.1 == second.1 && first.2 ≤ second.2)

/-- Pairs of symbols in ascending order. -/
def pairBefore (first second : SymbolId × SymbolId) : Bool :=
  first.1 < second.1 || (first.1 == second.1 && first.2 ≤ second.2)

namespace FlatDraft

variable (draft : FlatDraft) (grammar : Grammar)

/-- How the lexer recognises the terminals. -/
def lexicalTable : LexicalTable :=
  let numbered := draft.terminals.zipIdx.map fun (terminal, index) =>
    (terminal, (draft.terminalId grammar index).toUInt16)
  let literals := numbered.filterMap fun (terminal, id) =>
    match terminal.form with
    | .literal text => some (text, id)
    | _ => none
  let patterns := numbered.filterMap fun (terminal, id) =>
    match terminal.form with
    | .pattern text => some (text, id)
    | _ => none
  let keywords := numbered.flatMap fun (terminal, id) =>
    match terminal.form, terminal.key with
    | .keyword, .keyword name =>
        ((grammar.keyword? name).elim [] Keyword.spellings).map fun spelling =>
          (Text.lowerCase spelling, id)
    | _, _ => []
  let twins := numbered.filterMap fun (terminal, id) =>
    match terminal.form, terminal.key with
    | .none, .immediate base =>
        (terminalIndex? draft.terminals base).map fun index =>
          ((draft.terminalId grammar index).toUInt16, id)
    | _, _ => none
  { literals := literals.mergeSort textBefore
    patterns := patterns.mergeSort fun first second => first.2 ≤ second.2
    keywords := (keywords.mergeSort textBefore).eraseDups
    word := do
      let word ← grammar.word
      let index ← terminalIndex? draft.terminals (.named word)
      pure (draft.terminalId grammar index).toUInt16
    extras := ((numbered.filter fun entry => entry.1.extra).map Prod.snd).mergeSort
    immediateTwins := twins.mergeSort pairBefore
    externals := grammar.externals.filterMap fun name =>
      (terminalIndex? draft.terminals (.external name)).map fun index =>
        (draft.terminalId grammar index).toUInt16 }

/-- Numbers all symbols. The start rule must be a syntactic one. -/
def number : Except GrammarError FlatGrammar := do
  let symbols := draft.tableSymbols grammar
  let aliases := draft.aliasKinds symbols
  let fields := draft.fields.eraseDups.mergeSort fun first second => first ≤ second
  let productions := draft.productions.map fun production =>
    { lhs := draft.symbolId grammar production.lhs
      steps := production.alternative.steps.map fun step =>
        { symbol := draft.symbolId grammar step.symbol
          precedence := step.precedence.getD 0
          associativity := step.associativity
          field := step.field.bind fields.idxOf?
          shownAs := step.shownAs.map (kindId symbols aliases) }
      dynamicPrecedence := production.alternative.dynamicPrecedence : Production }
  let aliasSymbols := aliases.map fun kind =>
    { name := kind.1
      kind := .aliasOnly
      named := kind.2
      visible := true
      extra := false
      external := false
      canonical := 0 : SymbolInfo }
  let startName := grammar.startRule?.getD ""
  match grammar.syntacticRules.idxOf? startName with
  | none => .error (.invalidToken startName .startNotSyntactic)
  | some start =>
      pure
        { name := grammar.name
          symbols := (withCanonicalKinds (symbols ++ aliasSymbols)).toArray
          terminalCount := draft.terminalCount grammar
          tableSymbolCount := draft.tableSymbolCount grammar
          productions :=
            (productions.mergeSort fun first second => first.lhs ≤ second.lhs).toArray
          start := draft.terminalCount grammar + start
          fields := fields
          lexical := draft.lexicalTable grammar
          conflicts := grammar.conflicts
          origins := (grammar.syntacticRules ++ draft.repetitions.map Repetition.origin).toArray }

end FlatDraft

end Lalr
