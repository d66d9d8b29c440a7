import Lalr.Language
import Lalr.OneScript.Grammar
import Lalr.OneScript.Scanner

set_option autoImplicit false

/-!
The language of OneScript modules.
-/

namespace Lalr.OneScript

/-- The OneScript language, made from its grammar. -/
def language : Except BuildError Language :=
  Language.ofGrammar grammar scanner

end Lalr.OneScript
