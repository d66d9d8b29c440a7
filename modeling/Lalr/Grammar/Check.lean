import Lalr.Grammar.Basic
import Lalr.Text.LowerCase

set_option autoImplicit false

/-!
Checks of a whole grammar: every name it uses is defined, keyword spellings are
told apart by their lower-case form, conflict entries name syntactic rules, and
every rule can be reached.
-/

namespace Lalr.Grammar

/-- Every symbol a rule refers to is a rule or an external token. -/
def checkSymbols (grammar : Grammar) : Except GrammarError Unit :=
  grammar.rules.forM fun (rule, body) =>
    body.referencedSymbols.forM fun symbol =>
      if (grammar.rule? symbol).isSome || grammar.externals.contains symbol then pure ()
      else .error (.undefinedSymbol rule symbol)

/-- The word token is a lexical rule. -/
def checkWord (grammar : Grammar) : Except GrammarError Unit :=
  match grammar.word with
  | none => pure ()
  | some word =>
      if grammar.isLexicalRule word then pure () else .error (.invalidWordToken word)

/-- Checks spellings one by one against the owners of those before them; a later
owner of the same name takes the spelling over. -/
def checkSpellings (owners : List (String × String)) :
    List (String × String) → Except GrammarError Unit
  | [] => pure ()
  | (spelling, keyword) :: rest =>
      let form := Text.lowerCase spelling
      match owners.lookup form with
      | some owner =>
          if owner = keyword then checkSpellings owners rest
          else .error (.duplicateSpelling spelling owner keyword)
      | none => checkSpellings ((form, keyword) :: owners) rest

/-- No two keywords share a spelling. -/
def checkKeywords (grammar : Grammar) : Except GrammarError Unit :=
  checkSpellings [] <| grammar.keywords.flatMap fun keyword =>
    keyword.spellings.map fun spelling => (spelling, keyword.name)

/-- Conflict entries name at least two rules, all of them syntactic. -/
def checkConflictEntries (grammar : Grammar) : Except GrammarError Unit :=
  grammar.conflicts.zipIdx.forM fun (entry, index) => do
    if entry.length < 2 then .error (.malformedConflictEntry index .tooFewRules)
    entry.forM fun name =>
      match grammar.rule? name with
      | none => .error (.malformedConflictEntry index (.unknownRule name))
      | some body =>
          if body.isLexical then .error (.malformedConflictEntry index (.token name))
          else pure ()

/-- Checks that need no view of the rules' structure. -/
def check (grammar : Grammar) : Except GrammarError Unit := do
  grammar.checkSymbols
  grammar.checkWord
  grammar.checkKeywords
  grammar.checkConflictEntries

/-- Adds the names in `queue` and all they refer to. Each step takes one name off
the queue; a name is followed only once. -/
def reach (grammar : Grammar) : Nat → List String → List String → List String
  | 0, reached, _ => reached
  | _ + 1, reached, [] => reached
  | budget + 1, reached, name :: queue =>
      if reached.contains name then grammar.reach budget reached queue
      else
        let next := (grammar.rule? name).elim [] Rule.referencedSymbols
        grammar.reach budget (name :: reached) (next ++ queue)

/-- Names from which rules are reached: the start rule, the word token and what
the extras refer to. -/
def roots (grammar : Grammar) : List String :=
  grammar.startRule?.toList ++ grammar.word.toList ++ Rule.referencedSymbolsOf grammar.extras

/-- The rules no root leads to, in order. -/
def unreachableRules (grammar : Grammar) : List String :=
  let references := (grammar.rules.flatMap fun entry => entry.2.referencedSymbols).length
  let reached := grammar.reach (grammar.roots.length + references + 1) [] grammar.roots
  (grammar.rules.map Prod.fst).filter fun name => !reached.contains name

end Lalr.Grammar
