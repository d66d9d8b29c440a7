import Lalr.Parser.Config
import Lalr.Toml.Parser
import Lalr.Toml.Printer

set_option autoImplicit false

/-!
The settings of a project, kept in a TOML file. Every setting has a default, and what
is not known is ignored.
-/

namespace Lalr

/-- Where generated tables are written. -/
structure GenerateConfig where
  output : String := "onescript.lang"
  /-- Where the tables are written as JSON, if at all. -/
  json : Option String := none
deriving DecidableEq, Repr, Inhabited

/-- Which files of a directory are sources. -/
structure FilesConfig where
  extensions : List String := ["os", "bsl"]
deriving DecidableEq, Repr, Inhabited

/-- The settings of a project. -/
structure Config where
  parse : ParseConfig := {}
  generate : GenerateConfig := {}
  files : FilesConfig := {}
deriving DecidableEq, Repr, Inhabited

namespace Toml

/-- A text. -/
def text? : Toml → Option String
  | .string text => some text
  | _ => none

/-- A truth value. -/
def boolean? : Toml → Option Bool
  | .boolean value => some value
  | _ => none

/-- A natural number. -/
def nat? : Toml → Option Nat
  | .integer (.ofNat value) => some value
  | _ => none

/-- An array of texts. -/
def texts? : Toml → Option (List String)
  | .array items => items.mapM text?
  | .tables items => items.mapM text?
  | _ => none

/-- The settings of a section by name. A section may also be an array, whose items are
the settings in their order; a date is a section without settings. -/
def settings? (names : List String) : Toml → Option (List (String × Toml))
  | .table _ members => some members
  | .array items => some (names.zip items)
  | .tables items => some (names.zip items)
  | .date => some []
  | _ => none

/-- A setting, or its default if it is absent. -/
def setting? {α : Type} (settings : List (String × Toml)) (name : String)
    (read? : Toml → Option α) (default : α) : Option α :=
  match settings.lookup name with
  | none => some default
  | some value => read? value

end Toml

namespace Config

open Toml (setting? settings?)

/-- The section of the parser. -/
def parseSection? (toml : Toml) : Option ParseConfig := do
  let settings ← settings? ["max_skip_tokens", "insert_missing"] toml
  let default : ParseConfig := {}
  pure ⟨← setting? settings "max_skip_tokens" Toml.nat? default.maxSkipTokens,
    ← setting? settings "insert_missing" Toml.boolean? default.insertMissing⟩

/-- The section of the generator. -/
def generateSection? (toml : Toml) : Option GenerateConfig := do
  let settings ← settings? ["output", "json"] toml
  let default : GenerateConfig := {}
  pure ⟨← setting? settings "output" Toml.text? default.output,
    ← setting? settings "json" (fun value => value.text?.map some) default.json⟩

/-- The section of the source files. -/
def filesSection? (toml : Toml) : Option FilesConfig := do
  let settings ← settings? ["extensions"] toml
  let default : FilesConfig := {}
  pure ⟨← setting? settings "extensions" Toml.texts? default.extensions⟩

/-- Reads settings; there are none if the text is no TOML or a setting has a wrong
type. -/
def parse? (text : List Char) : Option Config := do
  let settings ← settings? [] (← Toml.parse? text)
  pure ⟨← setting? settings "parse" parseSection? {},
    ← setting? settings "generate" generateSection? {},
    ← setting? settings "files" filesSection? {}⟩

/-- The settings as a TOML document. -/
def render (config : Config) : String :=
  let json := (config.generate.json.map fun json =>
    "json = " ++ Toml.renderText json ++ "\n").getD ""
  "[parse]\n" ++
    "max_skip_tokens = " ++ toString config.parse.maxSkipTokens ++ "\n" ++
    "insert_missing = " ++ (if config.parse.insertMissing then "true" else "false") ++ "\n\n" ++
    "[generate]\n" ++
    "output = " ++ Toml.renderText config.generate.output ++ "\n" ++ json ++ "\n" ++
    "[files]\n" ++
    "extensions = " ++ Toml.renderTexts config.files.extensions ++ "\n"

end Config

end Lalr
