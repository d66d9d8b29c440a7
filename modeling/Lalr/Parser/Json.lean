import Lalr.Json.Shape
import Lalr.Parser.Config

set_option autoImplicit false

/-!
Settings of a parse as JSON.
-/

namespace Lalr.Shape

/-- Settings of a parse; those that are not given have their defaults. -/
def parseConfig : Shape ParseConfig :=
  let default : ParseConfig := {}
  optionalObject <|
    ((Members.withDefault "max_skip_tokens" nat default.maxSkipTokens).and <|
      Members.withDefault "insert_missing" truth default.insertMissing).via
      (fun config => (config.maxSkipTokens, config.insertMissing))
      (fun (maxSkipTokens, insertMissing) => ⟨maxSkipTokens, insertMissing⟩)

end Lalr.Shape
