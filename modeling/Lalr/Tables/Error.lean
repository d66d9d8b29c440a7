import Lalr.Grammar.Error
import Lalr.Tables.Basic

set_option autoImplicit false

/-!
Why tables are not a usable language.
-/

namespace Lalr

/-- What is wrong with a stored artifact. -/
inductive ArtifactDefect where
  | missingHeader
  | malformedBody
  | versionsDiffer
deriving DecidableEq, Repr

/-- What is wrong with a production of the tables. -/
inductive ProductionDefect where
  | leftHandSide
  | fieldCount
  | aliasSequence
  | unknownSymbol
  | unknownField
deriving DecidableEq, Repr

/-- Where tables contradict themselves or their scanner. -/
inductive TableDefect where
  | tooManySymbols (count : Nat)
  | symbolCounts
  | actionCount
  | symbolOrder (symbol : Nat) (name : String)
  | noCanonicalKind (name : String)
  | production (index : Nat) (defect : ProductionDefect)
  | invalidAction (action : Action) (state symbol : Nat)
  | lexicalSymbol (symbol : Nat)
  | scannerTokens (produced declared : Nat)
  | noStartSymbol
deriving DecidableEq, Repr

/-- Arithmetic on counts that has no result. It is no error that is returned: loading breaks off. -/
inductive ArithmeticFault where
  /-- The product takes more than 64 bits. -/
  | overflow (left right : UInt64)
  | zeroDivisor (dividend : Nat)
deriving DecidableEq, Repr

/-- Why tables are not a usable language. -/
inductive LanguageError where
  | versionMismatch (found : UInt32)
  | invalidArtifact (defect : ArtifactDefect)
  | invalidPattern (pattern : String)
  | inconsistent (defect : TableDefect)
  | fault (fault : ArithmeticFault)
deriving DecidableEq, Repr

/-- An action as messages name it. -/
def Action.render : Action → String
  | .error => "Error"
  | .shift state => "Shift(" ++ toString state.toNat ++ ")"
  | .reduce production => "Reduce(" ++ toString production.toNat ++ ")"
  | .goto state => "Goto(" ++ toString state.toNat ++ ")"
  | .accept => "Accept"

/-- The wording of a production's defect. -/
def ProductionDefect.message : ProductionDefect → String
  | .leftHandSide => " has a non-nonterminal lhs"
  | .fieldCount => " field map has a wrong length"
  | .aliasSequence => " alias sequence is invalid"
  | .unknownSymbol => " references an unknown symbol"
  | .unknownField => " references an unknown field"

/-- The wording of a contradiction. -/
def TableDefect.message : TableDefect → String
  | .tooManySymbols count => toString count ++ " symbols do not fit the id range"
  | .symbolCounts => "symbol counts out of range"
  | .actionCount => "action table dimensions do not match the state count"
  | .symbolOrder symbol name =>
      "symbol " ++ toString symbol ++ " " ++ quoted name ++ " is out of order"
  | .noCanonicalKind name => "symbol " ++ quoted name ++ " does not collapse onto a canonical kind"
  | .production index defect => "production " ++ toString index ++ defect.message
  | .invalidAction action state symbol =>
      "invalid action " ++ action.render ++ " in state " ++ toString state ++ " for symbol " ++
        toString symbol
  | .lexicalSymbol symbol => "lexical table references non-terminal " ++ toString symbol
  | .scannerTokens produced declared =>
      "scanner produces " ++ toString produced ++ " external tokens, grammar declares " ++
        toString declared
  | .noStartSymbol => "no accepting state for a start symbol"

/-- The wording of a fault. -/
def ArithmeticFault.message : ArithmeticFault → String
  | .overflow _ _ => "attempt to multiply with overflow"
  | .zeroDivisor _ => "attempt to calculate the remainder with a divisor of zero"

/-- The wording of an error. The defects of a body are not told apart. -/
def LanguageError.message : LanguageError → String
  | .versionMismatch found =>
      "language version mismatch: runtime expects " ++ toString layoutVersion.toNat ++
        ", artifact has " ++ toString found.toNat
  | .invalidArtifact .missingHeader => "invalid language artifact: missing artifact header"
  | .invalidArtifact .malformedBody => "invalid language artifact"
  | .invalidArtifact .versionsDiffer =>
      "invalid language artifact: header and body versions differ"
  | .invalidPattern pattern => "invalid lexical pattern " ++ quoted pattern
  | .inconsistent defect => "inconsistent language tables: " ++ defect.message
  | .fault failure => failure.message

end Lalr
