import Lalr.Diagnostic
import Lalr.Files.Tree
import Lalr.Parser.Document
import Lalr.Text.Encoding

set_option autoImplicit false

/-!
Checking the syntax of files.
-/

namespace Lalr

open Lalr.Text

/-- What the check of a file found. A file that could not be read has no diagnostics. -/
structure FileReport where
  path : String
  diagnostics : List Diagnostic := []
  /-- The S-expression of the tree, if it was asked for. -/
  sexp : Option String := none
  readError : Option FileError := none

/-- Why a file could not be checked. -/
structure CheckError where
  path : String
  cause : ParseError

/-- The wording of an error. -/
def CheckError.message (failure : CheckError) : String :=
  "Failed to parse " ++ failure.path

namespace FileReport

/-- Whether something is wrong with a file. -/
def hasErrors (report : FileReport) : Bool :=
  report.readError.isSome || report.diagnostics.any Diagnostic.isError

/-- A report as JSON. -/
def toJson (report : FileReport) : Json :=
  let optional : String → Option String → List (String × Json) := fun name text =>
    (text.map fun text => (name, Json.string text)).toList
  .object ([("path", .string report.path),
    ("diagnostics", Shape.diagnostic.list.write report.diagnostics)] ++
    optional "sexp" report.sexp ++
    optional "read_error" (report.readError.map FileError.message))

/-- Checks the bytes of a file. -/
def ofBytes (parser : Parser) (withSexp : Bool) (path : String) (content : List UInt8) :
    Except CheckError FileReport :=
  let source := String.ofList (decodeSource content)
  match (Document.mk parser none).parse source (some path) with
  | .error cause => .error ⟨path, cause⟩
  | .ok (report, _) =>
      .ok { path := path, diagnostics := report.diagnostics
            sexp := if withSexp then some report.root.sexp else none }

/-- Checks a file. -/
def ofFile (parser : Parser) (withSexp : Bool) (read : FileReader) (path : String) :
    Except CheckError FileReport :=
  match read path with
  | .error failure => .ok { path := path, readError := some failure }
  | .ok content => ofBytes parser withSexp path content

end FileReport

/-- Checks files in their order. -/
def checkFiles (parser : Parser) (withSexp : Bool) (read : FileReader) (paths : List String) :
    Except CheckError (List FileReport) :=
  paths.mapM (FileReport.ofFile parser withSexp read)

end Lalr
