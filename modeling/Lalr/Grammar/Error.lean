set_option autoImplicit false

/-!
Mistakes in a grammar that are found before any table is built.
-/

namespace Lalr

/-- What is wrong with a conflict entry. -/
inductive ConflictEntryDefect where
  | tooFewRules
  | token (name : String)
  | unknownRule (name : String)
deriving DecidableEq, Repr

/-- Why an expression cannot be a single token. -/
inductive TokenDefect where
  | refersToRule
  | containsKeyword
  | carriesMarks
  | extraNotToken
  | startNotSyntactic
deriving DecidableEq, Repr

/-- A mistake in a grammar; `rule` is the rule it was found in. -/
inductive GrammarError where
  | noRules (grammar : String)
  | duplicateRule (rule : String)
  | undefinedSymbol (rule symbol : String)
  | undefinedKeyword (rule keyword : String)
  | emptyKeyword (keyword : String)
  | duplicateSpelling (spelling first second : String)
  | precedenceOfNothing (rule : String)
  | aliasNotSingle (rule kind : String)
  | emptyRepeat (rule : String)
  | malformedConflictEntry (index : Nat) (defect : ConflictEntryDefect)
  | invalidWordToken (name : String)
  | invalidImmediate (rule : String)
  | invalidToken (rule : String) (defect : TokenDefect)
  | invalidPattern (rule pattern : String)
  | emptyPattern (rule pattern : String)
  | duplicateExternal (name : String)
  | tooManyExternals (count : Nat)
  /-- A dynamic precedence that cannot be negated. It is no error that is returned: flattening
  breaks off. -/
  | noMagnitude
deriving DecidableEq, Repr

/-- A name as messages quote it. -/
def quoted (name : String) : String :=
  "`" ++ name ++ "`"

/-- The wording of a conflict entry's defect. -/
def ConflictEntryDefect.message : ConflictEntryDefect → String
  | .tooFewRules => "an entry must name at least two rules"
  | .token name => quoted name ++ " is a token, not a syntactic rule"
  | .unknownRule name => "unknown rule " ++ quoted name

/-- The wording of a token's defect. -/
def TokenDefect.message : TokenDefect → String
  | .refersToRule => "tokens cannot reference other rules"
  | .containsKeyword => "tokens cannot contain keywords"
  | .carriesMarks => "tokens cannot carry fields, aliases or immediate marks"
  | .extraNotToken => "extras must be tokens"
  | .startNotSyntactic => "the start rule must be a syntactic rule"

/-- The wording of a mistake. -/
def GrammarError.message : GrammarError → String
  | .noRules grammar => "grammar " ++ quoted grammar ++ " has no rules"
  | .duplicateRule rule => "rule " ++ quoted rule ++ " is defined more than once"
  | .undefinedSymbol rule symbol =>
      "rule " ++ quoted rule ++ " references undefined symbol " ++ quoted symbol
  | .undefinedKeyword rule keyword =>
      "rule " ++ quoted rule ++ " references undeclared keyword " ++ quoted keyword
  | .emptyKeyword keyword => "keyword " ++ quoted keyword ++ " has no spellings"
  | .duplicateSpelling spelling first second =>
      "spelling " ++ quoted spelling ++ " is shared by keywords " ++ quoted first ++ " and " ++
        quoted second
  | .precedenceOfNothing rule =>
      "malformed precedence in rule " ++ quoted rule ++
        ": precedence wraps a rule that matches nothing"
  | .aliasNotSingle rule kind =>
      "malformed alias in rule " ++ quoted rule ++ ": alias " ++ quoted kind ++
        " must wrap exactly one symbol"
  | .emptyRepeat rule => "repeat in rule " ++ quoted rule ++ " can match empty input"
  | .malformedConflictEntry index defect =>
      "conflict entry #" ++ toString index ++ " is malformed: " ++ defect.message
  | .invalidWordToken name => "word token " ++ quoted name ++ " must name a lexical rule"
  | .invalidImmediate rule =>
      quoted "immediate" ++ " in rule " ++ quoted rule ++ " must wrap a single token"
  | .invalidToken rule defect =>
      "rule " ++ quoted rule ++ " cannot be turned into a single token: " ++ defect.message
  | .invalidPattern rule pattern =>
      "pattern " ++ quoted pattern ++ " in rule " ++ quoted rule ++ " is invalid"
  | .emptyPattern rule pattern =>
      "pattern " ++ quoted pattern ++ " in rule " ++ quoted rule ++ " matches empty input"
  | .duplicateExternal name => "external token " ++ quoted name ++ " is declared more than once"
  | .tooManyExternals count =>
      "grammar declares " ++ toString count ++ " external tokens, at most 64 are supported"
  | .noMagnitude => "attempt to negate with overflow"

end Lalr
