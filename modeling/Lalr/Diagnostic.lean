import Lalr.Json.Shape
import Lalr.Text.Blank
import Lalr.Text.Position
import Lalr.Tree.Node

set_option autoImplicit false

/-!
Reports of what is wrong in a text, made from the error and missing nodes of its syntax tree, and
how they are kept as JSON.
-/

namespace Lalr

open Lalr.Text

/-- How grave a diagnostic is. -/
inductive Severity where
  | error
  | warning
  | info
deriving DecidableEq, Repr, Inhabited

/-- What a diagnostic is about. -/
inductive DiagnosticCode where
  | syntaxError
  | missingToken
  | unexpectedCharacter
deriving DecidableEq, Repr, Inhabited

/-- A report about a stretch of text. -/
structure Diagnostic where
  severity : Severity
  code : DiagnosticCode
  message : String
  span : Span
  file : Option String
deriving DecidableEq, Repr, Inhabited

/-- The word for a severity. -/
def Severity.word : Severity → String
  | .error => "error"
  | .warning => "warning"
  | .info => "info"

/-- The number of a code. -/
def DiagnosticCode.number : DiagnosticCode → String
  | .syntaxError => "OS001"
  | .missingToken => "OS002"
  | .unexpectedCharacter => "OS003"

namespace Diagnostic

/-- Whether a diagnostic is an error. -/
def isError (diagnostic : Diagnostic) : Bool :=
  diagnostic.severity == .error

/-- A diagnostic on one line, from file and place to message. -/
def render (diagnostic : Diagnostic) : String :=
  let file := (diagnostic.file.map fun file => file ++ ":").getD ""
  file ++ diagnostic.span.start.render ++ ": " ++ diagnostic.severity.word ++ "[" ++
    diagnostic.code.number ++ "]: " ++ diagnostic.message

/-- Diagnostics are ordered by the bytes at which they start, then by those at which
they end. -/
def le (first second : Diagnostic) : Bool :=
  let start := first.span.start.offset
  let start' := second.span.start.offset
  decide (start < start') ||
    (decide (start = start') &&
      decide (first.span.finish.offset ≤ second.span.finish.offset))

end Diagnostic

/-- How many characters of the text a message quotes at most. -/
def excerptLength : Nat := 40

/-- The first line of a text without the blank space around it, cut at 40 characters. -/
def excerpt (text : List Char) : String :=
  let line := trimWhiteSpace (text.takeWhile (· ≠ '\n'))
  if excerptLength < line.length then String.ofList (line.take excerptLength) ++ "..."
  else String.ofList line

namespace Node

/-- An error at the place of a node. -/
def mistake (source : List Char) (info : NodeInfo) (code : DiagnosticCode) (message : String) :
    Diagnostic :=
  ⟨.error, code, message, .ofOffsets source info.start info.finish, none⟩

/-- Whether a node is a single unrecognised character. -/
def isStray (node : Node) : Bool :=
  node.info.error && node.children.isEmpty

mutual

/-- What is wrong in a node. An error made of unrecognised characters only is reported
character by character; of other errors the outermost is reported, and the characters
within. -/
def diagnostics (source : List Char) (insideError : Bool) : Node → List Diagnostic
  | .mk info children =>
      let node := Node.mk info children
      if info.missing then
        [mistake source info .missingToken ("missing `" ++ info.kind ++ "`")]
      else if node.isStray then
        [mistake source info .unexpectedCharacter
          ("unexpected character `" ++ node.text source ++ "`")]
      else if info.error then
        let own :=
          if !children.all isStray && !insideError then
            [mistake source info .syntaxError
              ("unexpected `" ++ excerpt (node.text source).toList ++ "`")]
          else []
        own ++ diagnosticsOf source true children
      else diagnosticsOf source insideError children

/-- What is wrong in several nodes. -/
def diagnosticsOf (source : List Char) (insideError : Bool) : List Node → List Diagnostic
  | [] => []
  | node :: nodes =>
      let own := if node.info.hasError then node.diagnostics source insideError else []
      own ++ diagnosticsOf source insideError nodes

end

end Node

namespace Diagnostic

/-- What is wrong in the tree of a text, in the order of the places. -/
def ofTree (root : Node) (source : List Char) (file : Option String) : List Diagnostic :=
  let found := if root.info.hasError then root.diagnostics source false else []
  (found.mergeSort le).map fun diagnostic => { diagnostic with file := file }

end Diagnostic

end Lalr

namespace Lalr.Shape

open Lalr.Text

/-- Severities by name. -/
def severity : Shape Severity :=
  named [("Error", .error), ("Warning", .warning), ("Info", .info)]

/-- Codes by name. -/
def diagnosticCode : Shape DiagnosticCode :=
  named [("SyntaxError", .syntaxError), ("MissingToken", .missingToken),
    ("UnexpectedCharacter", .unexpectedCharacter)]

/-- A position. -/
def position : Shape Position :=
  object <|
    ((Members.one "line" nat).and <| (Members.one "column" nat).and <| Members.one "offset" nat).via
      (fun position => (position.line, position.column, position.offset))
      (fun (line, column, offset) => ⟨line, column, offset⟩)

/-- A span. -/
def span : Shape Span :=
  object <|
    ((Members.one "start" position).and <| Members.one "end" position).via
      (fun span => (span.start, span.finish)) (fun (start, finish) => ⟨start, finish⟩)

/-- A diagnostic. -/
def diagnostic : Shape Diagnostic :=
  object <|
    ((Members.one "level" severity).and <| (Members.one "code" diagnosticCode).and <|
      (Members.one "message" text).and <| (Members.one "span" span).and <|
      Members.one "file" text.option).via
      (fun diagnostic =>
        (diagnostic.severity, diagnostic.code, diagnostic.message, diagnostic.span,
          diagnostic.file))
      (fun (severity, code, message, span, file) => ⟨severity, code, message, span, file⟩)

end Lalr.Shape
