import Lalr.FlatGrammar.Terminal

set_option autoImplicit false

/-!
Flattening of rule expressions. Choices and optional parts become alternatives, a
repeated expression becomes a left-recursive rule of its own, and precedence,
fields and aliases end up at single steps. Of nested precedences and fields the inner
one counts, of nested aliases the outer one.
-/

namespace Lalr

/-- A symbol whose number is not yet known: a terminal, a syntactic rule or a
repetition, by its place among its like. -/
inductive SymbolRef where
  | terminal (index : Nat)
  | rule (index : Nat)
  | repetition (index : Nat)
deriving DecidableEq, Repr

/-- One symbol of an alternative and the marks on it. -/
structure DraftStep where
  symbol : SymbolRef
  precedence : Option Int32 := none
  associativity : Option Associativity := none
  field : Option String := none
  /-- The alias: the name of the node and whether it is a named one. -/
  shownAs : Option (String × Bool) := none
deriving DecidableEq, Repr

/-- One of the symbol sequences that an expression stands for. -/
structure Alternative where
  steps : List DraftStep
  dynamicPrecedence : Int32
deriving DecidableEq, Repr

/-- Whether the magnitude of a dynamic precedence is in its range; that of the least one is not. -/
def hasMagnitude (value : Int32) : Bool :=
  value != Int32.minValue

/-- Of two dynamic precedences the one of greater magnitude counts; of equal ones
the first. -/
def stronger (first second : Int32) : Int32 :=
  if first.abs < second.abs then second else first

namespace Alternative

/-- The empty sequence. -/
def empty : Alternative :=
  ⟨[], 0⟩

/-- A single symbol without marks. -/
def single (symbol : SymbolRef) : Alternative :=
  ⟨[{ symbol := symbol }], 0⟩

/-- One sequence behind another. -/
def append (first second : Alternative) : Alternative :=
  ⟨first.steps ++ second.steps, stronger first.dynamicPrecedence second.dynamicPrecedence⟩

/-- Marks steps that have no precedence yet. -/
def withPrecedence (value : Int32) (associativity : Option Associativity)
    (alternative : Alternative) : Alternative :=
  { alternative with
    steps := alternative.steps.map fun step =>
      if step.precedence.isNone then
        { step with precedence := some value, associativity := associativity }
      else step }

/-- Lets a dynamic precedence apply to the whole sequence. -/
def withDynamicPrecedence (value : Int32) (alternative : Alternative) : Alternative :=
  { alternative with dynamicPrecedence := stronger alternative.dynamicPrecedence value }

/-- Marks steps that have no field yet. -/
def withField (name : String) (alternative : Alternative) : Alternative :=
  { alternative with
    steps := alternative.steps.map fun step =>
      if step.field.isNone then { step with field := some name } else step }

/-- Renames the only step; other sequences have no alias. -/
def withAlias? (name : String) (named : Bool) (alternative : Alternative) : Option Alternative :=
  match alternative.steps with
  | [step] => some { alternative with steps := [{ step with shownAs := some (name, named) }] }
  | _ => none

end Alternative

/-- All ways to put one of the second sequences behind one of the first. -/
def appendAll (first second : List Alternative) : List Alternative :=
  first.flatMap fun before => second.map before.append

/-- A production whose symbols are not numbered yet. -/
structure DraftProduction where
  lhs : SymbolRef
  alternative : Alternative
deriving DecidableEq, Repr

/-- The rule made for a repeated expression, and the rule that needed it first. -/
structure Repetition where
  name : String
  origin : String
  content : Rule
deriving Repr

/-- What was found while flattening. -/
structure FlatDraft where
  /-- In the order of discovery. -/
  terminals : List Terminal := []
  repetitions : List Repetition := []
  /-- The rule of each anonymous pattern, by which they are counted. -/
  patternOwners : List String := []
  productions : List DraftProduction := []
  fields : List String := []
deriving Repr

/-- Flattening keeps what it found and stops at the first mistake. -/
abbrev FlattenM := StateT FlatDraft (Except GrammarError)

namespace FlattenM

/-- Stops with a mistake. -/
def fail {α : Type} (mistake : GrammarError) : FlattenM α :=
  throw mistake

/-- The place of a terminal, which is added if its key is new. -/
def intern (terminal : Terminal) : FlattenM Nat := do
  let draft ← get
  match terminalIndex? draft.terminals terminal.key with
  | some index => pure index
  | none =>
      set { draft with terminals := draft.terminals ++ [terminal] }
      pure draft.terminals.length

/-- The place of a lexical rule; its pattern is checked when it is first met. -/
def internRule (name : String) (body : Rule) : FlattenM Nat := do
  match terminalIndex? (← get).terminals (.named name) with
  | some index => pure index
  | none =>
      let form ← (body.terminalForm name : Except GrammarError TerminalForm)
      intern (.ofRule name form)

/-- The place of a pattern without a rule; it is called after the rule that holds
it and counted there. -/
def internPattern (rule text : String) : FlattenM Nat := do
  (checkPattern rule text : Except GrammarError Unit)
  let draft ← get
  match terminalIndex? draft.terminals (.pattern text) with
  | some index => pure index
  | none =>
      let number := draft.patternOwners.count rule + 1
      set { draft with patternOwners := rule :: draft.patternOwners }
      intern (.ofPattern (rule ++ "_token" ++ toString number) text)

/-- What a name in a rule stands for: a syntactic rule, a lexical rule or an
external token, in this order. -/
def resolve (grammar : Grammar) (rule name : String) : FlattenM SymbolRef := do
  match grammar.syntacticRules.idxOf? name, grammar.rule? name with
  | some index, _ => pure (.rule index)
  | none, some body => .terminal <$> internRule name body
  | none, none =>
      match terminalIndex? (← get).terminals (.external name) with
      | some index => pure (.terminal index)
      | none => fail (.undefinedSymbol rule name)

/-- Replaces the token of a sequence by its immediate twin; only a single token of
the grammar itself has one. -/
def immediate (rule : String) (alternative : Alternative) : FlattenM Alternative := do
  match alternative.steps with
  | [⟨.terminal index, precedence, associativity, field, shownAs⟩] =>
      match (← get).terminals[index]? with
      | none => fail (.invalidImmediate rule)
      | some base =>
          if index = 0 || base.key.isExternal then fail (.invalidImmediate rule)
          else
            let twin ← intern base.twin
            pure { alternative with
              steps := [⟨.terminal twin, precedence, associativity, field, shownAs⟩] }
  | _ => fail (.invalidImmediate rule)

/-- The repetition of an expression. It is entered before its content is flattened,
so an expression that contains itself refers back to it; the productions
`r → r content` precede `r → content`. -/
def repetition (rule : String) (content : Rule) (alternatives : FlattenM (List Alternative)) :
    FlattenM Nat := do
  let draft ← get
  match draft.repetitions.findIdx? fun known => known.content = content with
  | some index => pure index
  | none =>
      let index := draft.repetitions.length
      let number := (draft.repetitions.filter fun known => known.origin == rule).length + 1
      let entered : Repetition := ⟨rule ++ "_repeat" ++ toString number, rule, content⟩
      set { draft with repetitions := draft.repetitions ++ [entered] }
      let found := (← alternatives).eraseDups
      if found.any fun alternative => alternative.steps.isEmpty then fail (.emptyRepeat rule)
      let lhs := SymbolRef.repetition index
      let more := found.map fun alternative =>
        (⟨lhs, { alternative with steps := { symbol := lhs } :: alternative.steps }⟩ :
          DraftProduction)
      let first := found.map fun alternative => (⟨lhs, alternative⟩ : DraftProduction)
      modify fun draft => { draft with productions := draft.productions ++ more ++ first }
      pure index

end FlattenM

open FlattenM

mutual

/-- The alternatives that an expression of a rule stands for. -/
def flatten (grammar : Grammar) (rule : String) : Rule → FlattenM (List Alternative)
  | .blank => pure [.empty]
  | .literal text => do
      let index ← intern (.ofLiteral text)
      pure [.single (.terminal index)]
  | .pattern text => do
      let index ← internPattern rule text
      pure [.single (.terminal index)]
  | .token body => do
      let text ← (body.patternText rule : Except GrammarError String)
      let index ← internPattern rule text
      pure [.single (.terminal index)]
  | .keyword name => do
      if (grammar.keyword? name).isNone then fail (.undefinedKeyword rule name)
      let index ← intern (.ofKeyword name)
      pure [.single (.terminal index)]
  | .symbol name => do
      let symbol ← resolve grammar rule name
      pure [.single symbol]
  | .seq items => flattenSeq grammar rule [.empty] items
  | .choice items => flattenChoice grammar rule items
  | .optional body => do
      let found ← flatten grammar rule body
      pure (found ++ [.empty])
  | .repeat1 body => do
      let index ← repetition rule body (flatten grammar rule body)
      pure [.single (.repetition index)]
  | .repeat0 body => do
      let index ← repetition rule body (flatten grammar rule body)
      pure [.single (.repetition index), .empty]
  | .prec value associativity body => do
      let found ← flatten grammar rule body
      if found.all fun alternative => alternative.steps.isEmpty then
        fail (.precedenceOfNothing rule)
      pure (found.map (·.withPrecedence value associativity))
  | .dynamicPrec value body => do
      let found ← flatten grammar rule body
      -- what was found inside has passed this check
      if !found.isEmpty && !hasMagnitude value then fail .noMagnitude
      pure (found.map (·.withDynamicPrecedence value))
  | .field name body => do
      let found ← flatten grammar rule body
      modify fun draft => { draft with fields := name :: draft.fields }
      pure (found.map (·.withField name))
  | .aliased name named body => do
      let found ← flatten grammar rule body
      match found.mapM (·.withAlias? name named) with
      | some renamed => pure renamed
      | none => fail (.aliasNotSingle rule name)
  | .immediate body => do
      let found ← flatten grammar rule body
      found.mapM (immediate rule)

/-- The alternatives of a sequence behind those of what precedes it. -/
def flattenSeq (grammar : Grammar) (rule : String) (before : List Alternative) :
    List Rule → FlattenM (List Alternative)
  | [] => pure before
  | item :: items => do
      let found ← flatten grammar rule item
      flattenSeq grammar rule (appendAll before found) items

/-- The alternatives of several expressions, one after the other. -/
def flattenChoice (grammar : Grammar) (rule : String) : List Rule → FlattenM (List Alternative)
  | [] => pure []
  | item :: items => do
      let found ← flatten grammar rule item
      let others ← flattenChoice grammar rule items
      pure (found ++ others)

end

/-- Enters an extra, which must be a token, and marks its terminal. -/
def enterExtra (grammar : Grammar) (extra : Rule) : FlattenM Unit := do
  let index ←
    match extra with
    | .symbol name =>
        match grammar.rule? name with
        | some body =>
            if body.isLexical then internRule name body
            else fail (.invalidToken name .extraNotToken)
        | none => fail (.invalidToken name .extraNotToken)
    | .literal text => intern (.ofLiteral text)
    | .pattern text => internPattern "extra" text
    | _ => fail (.invalidToken "extras" .extraNotToken)
  modify fun draft =>
    { draft with
      terminals := draft.terminals.modify index fun terminal => { terminal with extra := true } }

/-- Enters the terminals that do not depend on the syntactic rules: the end of the
input, the word token, the external tokens and the extras. -/
def enterFixedTerminals (grammar : Grammar) : FlattenM Unit := do
  let _ ← intern .endOfInput
  match grammar.word with
  | none => pure ()
  | some word =>
      match grammar.rule? word with
      | none => fail (.invalidWordToken word)
      | some body =>
          let _ ← internRule word body
  grammar.externals.forM fun name => do
    let _ ← intern (.ofExternal name)
  grammar.extras.forM (enterExtra grammar)

/-- Flattens the syntactic rules in order, each into its distinct alternatives. -/
def enterRules (grammar : Grammar) : List (String × Rule) → Nat → FlattenM Unit
  | [], _ => pure ()
  | (name, body) :: rules, index =>
      if body.isLexical then enterRules grammar rules index
      else do
        let found ← flatten grammar name body
        let productions := found.eraseDups.map fun alternative =>
          (⟨.rule index, alternative⟩ : DraftProduction)
        modify fun draft => { draft with productions := draft.productions ++ productions }
        enterRules grammar rules (index + 1)

/-- Everything a grammar flattens to, before symbols are numbered. -/
def FlatDraft.ofGrammar (grammar : Grammar) : Except GrammarError FlatDraft := do
  let flattened : FlattenM Unit := do
    enterFixedTerminals grammar
    enterRules grammar grammar.rules 0
  let (_, draft) ← flattened.run {}
  pure draft

end Lalr
