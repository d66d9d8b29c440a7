import Lalr.Json.Printer
import Lalr.Text.LowerCase

set_option autoImplicit false

/-!
Writing results as text for people or as JSON for programs.
-/

namespace Lalr

/-- For whom results are written. -/
inductive OutputFormat where
  | text
  | json
deriving DecidableEq, Repr, Inhabited

/-- There is no format of this name. -/
structure UnknownFormat where
  name : String
deriving DecidableEq, Repr

/-- The wording of the error. -/
def UnknownFormat.message (unknown : UnknownFormat) : String :=
  "Unknown output format: " ++ unknown.name

namespace OutputFormat

/-- The format with a name, in whatever case. -/
def ofName (name : String) : Except UnknownFormat OutputFormat :=
  match Text.lowerCase name with
  | "text" => .ok .text
  | "txt" => .ok .text
  | "json" => .ok .json
  | _ => .error ⟨name⟩

end OutputFormat

/-- A piece of output. -/
inductive OutputItem where
  | object (value : Json)
  | line (text : String)
  | header (text : String)
deriving Repr, Inhabited

namespace OutputItem

/-- The text of a piece of output. JSON is spread over several lines for people or when
`pretty` asks for it; headers are underlined for people. -/
def render (format : OutputFormat) (pretty : Bool) : OutputItem → String
  | .object value =>
      (if pretty || format == .text then value.pretty 0 else value.compact) ++ "\n"
  | .line text => text ++ "\n"
  | .header text =>
      match format with
      | .text =>
          "\n" ++ text ++ "\n" ++ String.ofList (List.replicate text.toList.length '=') ++ "\n"
      | .json => text ++ "\n"

end OutputItem

/-- The text of several pieces of output. -/
def renderOutput (format : OutputFormat) (pretty : Bool) (items : List OutputItem) : String :=
  String.join (items.map (OutputItem.render format pretty))

end Lalr
