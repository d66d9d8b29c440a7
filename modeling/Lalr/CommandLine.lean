import Lalr.Check
import Lalr.Config.File
import Lalr.Duration
import Lalr.OneScript.Language
import Lalr.Output
import Lalr.Tables.Json

set_option autoImplicit false

/-!
The commands of the program as functions from arguments and files to what is printed
and written.
-/

namespace Lalr

/-- The arguments of the program. -/
structure Arguments where
  /-- The command and what it is applied to. -/
  names : List String := []
  quiet : Bool := false
  config : Option String := none
  output : Option String := none
  json : Option String := none
  format : String := "text"
  stats : Bool := false
  sexp : Bool := false
  force : Bool := false
deriving DecidableEq, Repr, Inhabited

/-- What a command leads to. -/
structure CommandResult where
  /-- What is printed, given how long the command took. -/
  output : Duration → String := fun _ => ""
  errors : String := ""
  exitCode : UInt32 := 0
  files : List (String × List UInt8) := []

/-- How the program is called. -/
def usage : String :=
  "usage: lalr generate [-o FILE] [--json FILE] [--stats]\n" ++
    "       lalr parse [--sexp] [-f text|json] FILE...\n" ++
    "       lalr init [-o FILE] [--force]\n" ++
    "options: -q, --quiet; --config FILE\n"

namespace Arguments

/-- Reads arguments from left to right. -/
def read? (arguments : Arguments) : List String → Option Arguments
  | [] => some { arguments with names := arguments.names.reverse }
  | "-q" :: rest => { arguments with quiet := true }.read? rest
  | "--quiet" :: rest => { arguments with quiet := true }.read? rest
  | "--stats" :: rest => { arguments with stats := true }.read? rest
  | "--sexp" :: rest => { arguments with sexp := true }.read? rest
  | "--force" :: rest => { arguments with force := true }.read? rest
  | "--config" :: value :: rest => { arguments with config := some value }.read? rest
  | "-o" :: value :: rest => { arguments with output := some value }.read? rest
  | "--output" :: value :: rest => { arguments with output := some value }.read? rest
  | "--json" :: value :: rest => { arguments with json := some value }.read? rest
  | "-f" :: value :: rest => { arguments with format := value }.read? rest
  | "--format" :: value :: rest => { arguments with format := value }.read? rest
  | name :: rest =>
      if name.startsWith "-" then none
      else { arguments with names := name :: arguments.names }.read? rest

/-- The files that a command may read. -/
def inputs (arguments : Arguments) : List String :=
  [arguments.config.getD Config.fileName, arguments.output.getD Config.fileName] ++
    arguments.names.drop 1

end Arguments

namespace CommandResult

/-- A command that fails. -/
def failure (message : String) : CommandResult :=
  { errors := "❌ " ++ message ++ "\n", exitCode := 2 }

/-- Goes on with a result, or fails with the wording of its error. -/
def ofExcept {ε α : Type} (result : Except ε α) (message : ε → String) (next : α → CommandResult) :
    CommandResult :=
  match result with
  | .error cause => failure (message cause)
  | .ok value => next value

end CommandResult

namespace LanguageTables.Stats

/-- The sizes of tables, a line each. -/
def lines (stats : Stats) : List String :=
  ["Parse tables", "   Symbols:      " ++ toString stats.symbols,
    "   Terminals:    " ++ toString stats.terminals,
    "   Productions:  " ++ toString stats.productions,
    "   States:       " ++ toString stats.states,
    "   Fields:       " ++ toString stats.fields,
    "   Alias rows:   " ++ toString stats.aliasSequences]

end LanguageTables.Stats

/-- Several lines of text. -/
def renderLines (lines : List String) : String :=
  renderOutput .text false (lines.map .line)

/-- Writes the tables of the OneScript language. -/
def generateCommand (arguments : Arguments) (config : Config) : CommandResult :=
  CommandResult.ofExcept OneScript.language BuildError.message fun language =>
    let path := arguments.output.getD config.generate.output
    let bytes := language.tables.toBytes
    let json := (arguments.json.or config.generate.json).map fun path =>
      let text := renderOutput .json true [.object (Shape.languageTables.write language.tables)]
      (path, Text.encodeUtf8 text.toList)
    let stats := if arguments.stats then language.tables.stats.lines else []
    { files := (path, bytes) :: json.toList
      output := fun elapsed =>
        if arguments.quiet then ""
        else renderLines (stats ++ ["✅ " ++ path ++ " written (" ++ toString bytes.length ++
          " bytes) in " ++ elapsed.render]) }

/-- How many of some reports are about errors, and how many diagnostics they hold. -/
def reportCounts (reports : List FileReport) : Nat × Nat :=
  (reports.countP FileReport.hasErrors,
    (reports.flatMap FileReport.diagnostics).length)

/-- The reports of a check as JSON. -/
def summaryJson (reports : List FileReport) : Json :=
  let (withErrors, diagnostics) := reportCounts reports
  .object [("files", .number reports.length), ("files_with_errors", .number withErrors),
    ("diagnostics", .number diagnostics), ("reports", .array (reports.map FileReport.toJson))]

/-- The reports of a check as text for people. -/
def summaryItems (quiet : Bool) (reports : List FileReport) (elapsed : Duration) :
    List OutputItem :=
  let (withErrors, diagnostics) := reportCounts reports
  let own (report : FileReport) : List OutputItem :=
    (report.readError.map fun cause =>
      OutputItem.line (report.path ++ ": " ++ cause.message)).toList ++
      report.diagnostics.map (fun diagnostic => .line diagnostic.render) ++
      ((report.sexp.map fun sexp => [OutputItem.line report.path, .line sexp]).getD [])
  let summary : List OutputItem :=
    if quiet then []
    else
      [.header "Summary", .line ("Files parsed:      " ++ toString reports.length),
        .line ("Files with errors: " ++ toString withErrors),
        .line ("Diagnostics:       " ++ toString diagnostics),
        .line ("Duration:          " ++ elapsed.render)]
  reports.flatMap own ++ summary

/-- Checks files and reports what is wrong in them. -/
def parseCommand (arguments : Arguments) (config : Config) (read : FileReader) : CommandResult :=
  CommandResult.ofExcept (OutputFormat.ofName arguments.format) UnknownFormat.message fun format =>
    CommandResult.ofExcept OneScript.language BuildError.message fun language =>
      let parser : Parser := ⟨config.parse, some ⟨0, language⟩⟩
      let paths := arguments.names.drop 1
      CommandResult.ofExcept (checkFiles parser arguments.sexp read paths) CheckError.message
        fun reports =>
          { exitCode := if reports.any FileReport.hasErrors then 1 else 0
            output := fun elapsed =>
              renderOutput format false <|
                match format with
                | .json => [.object (summaryJson reports)]
                | .text => summaryItems arguments.quiet reports elapsed }

/-- Writes the default settings. -/
def initCommand (arguments : Arguments) (read : FileReader) : CommandResult :=
  let path := arguments.output.getD Config.fileName
  if (read path).isOk && !arguments.force then
    .failure (ConfigError.alreadyThere path).message
  else
    let config : Config := {}
    { files := [(path, Text.encodeUtf8 config.render.toList)]
      output := fun _ =>
        if arguments.quiet then "" else renderLines ["✅ Configuration created: " ++ path] }

/-- What the program does. -/
def runCommand (arguments : Arguments) (read : FileReader) : CommandResult :=
  let configured (next : Config → CommandResult) : CommandResult :=
    .ofExcept (Config.discover read arguments.config) ConfigError.message next
  match arguments.names with
  | ["init"] => initCommand arguments read
  | ["generate"] => configured (generateCommand arguments)
  | "parse" :: _ :: _ => configured fun config => parseCommand arguments config read
  | _ => { errors := usage, exitCode := 2 }

end Lalr
