import Lalr.Grammar.Basic
import Lalr.Pattern.Match
import Lalr.Pattern.Parser

set_option autoImplicit false

/-!
Lexical rules as patterns. A token's expression is glued together into one
pattern text, which must be well-formed and must not match the empty text.
-/

namespace Lalr

namespace Rule

mutual

/-- The pattern text of a lexical expression. -/
def patternText (rule : String) : Rule → Except GrammarError String
  | .blank => .ok ""
  | .literal text => .ok (Pattern.quote text)
  | .pattern text => .ok ("(?:" ++ text ++ ")")
  | .token body => body.patternText rule
  | .prec _ _ body => body.patternText rule
  | .dynamicPrec _ body => body.patternText rule
  | .seq items => do
      let parts ← patternTexts rule items
      pure (String.join parts)
  | .choice items => do
      let parts ← patternTexts rule items
      pure ("(?:" ++ "|".intercalate parts ++ ")")
  | .optional body => do
      let text ← body.patternText rule
      pure ("(?:" ++ text ++ ")?")
  | .repeat0 body => do
      let text ← body.patternText rule
      pure ("(?:" ++ text ++ ")*")
  | .repeat1 body => do
      let text ← body.patternText rule
      pure ("(?:" ++ text ++ ")+")
  | .symbol _ => .error (.invalidToken rule .refersToRule)
  | .keyword _ => .error (.invalidToken rule .containsKeyword)
  | .field _ _ => .error (.invalidToken rule .carriesMarks)
  | .aliased _ _ _ => .error (.invalidToken rule .carriesMarks)
  | .immediate _ => .error (.invalidToken rule .carriesMarks)

/-- The pattern texts of several expressions. -/
def patternTexts (rule : String) : List Rule → Except GrammarError (List String)
  | [] => .ok []
  | item :: items => do
      let text ← item.patternText rule
      let texts ← patternTexts rule items
      pure (text :: texts)

end

end Rule

/-- Refuses patterns that are malformed or match the empty text. -/
def checkPattern (rule pattern : String) : Except GrammarError Unit :=
  match Pattern.compile? pattern with
  | none => .error (.invalidPattern rule pattern)
  | some program =>
      if program.matchesEmpty then .error (.emptyPattern rule pattern) else .ok ()

end Lalr
