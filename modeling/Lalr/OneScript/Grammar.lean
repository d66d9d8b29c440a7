import Lalr.OneScript.Keyword

set_option autoImplicit false

/-!
The grammar of OneScript. A module consists of declarations and regions followed by
its statements. Statements are separated by semicolons; the last of a block may do
without. Operators bind, from loose to tight: `Or`, `And`, `Not`, comparisons, addition,
multiplication, unary minus and plus.
-/

namespace Lalr.OneScript

/-- How tightly operators bind. -/
inductive Precedence where
  | or
  | and
  | not
  | relational
  | add
  | multiply
  | unary
deriving DecidableEq, Repr

/-- The rungs of the ladder are numbered from the loosest. -/
def Precedence.level : Precedence → Int32
  | .or => 1
  | .and => 2
  | .not => 3
  | .relational => 4
  | .add => 5
  | .multiply => 6
  | .unary => 7

/-- The external tokens in the order their scanner numbers them. -/
def externals : List String :=
  ["region_start", "region_end", "string", "date_literal"]

/-- A binary operation; chains of one precedence group to the left. -/
def binary (precedence : Precedence) (operator : Rule) : Rule :=
  .prec precedence.level (some .left) (.seq
    [.field "left" (.symbol "_expression"), .field "operator" operator,
      .field "right" (.symbol "_expression")])

/-- A unary operation. -/
def unary (precedence : Precedence) (operator : Rule) : Rule :=
  .prec precedence.level none (.seq
    [.field "operator" operator, .field "operand" (.symbol "_expression")])

/-- The line that opens or closes a region shows up as an anonymous node, so the named
children of a region are its name and its content. -/
def regionMarker (external kind : String) : Rule :=
  .aliased kind false (.symbol external)

/-- A procedure or a function. -/
def method (opening closing : String) : Rule :=
  .seq
    [.repeat0 (.symbol "annotation"), .keyword opening, .field "name" (.symbol "identifier"),
      .field "parameters" (.symbol "parameters"),
      .optional (.field "export" (.aliased "export" true (.keyword "Export"))),
      .optional (.field "variables" (.symbol "var_block")),
      .optional (.field "body" (.symbol "block")), .keyword closing]

/-- A statement that ties a handler to an event. -/
def handlerStatement (opening : String) : Rule :=
  .seq
    [.keyword opening, .field "event" (.symbol "_expression"), .literal ",",
      .field "handler" (.symbol "_expression")]

/-- Declarations of a module and their parts. -/
def moduleRules : List (String × Rule) :=
  [("source_file", .seq [.repeat0 (.symbol "_declaration"), .optional (.symbol "_statements")]),
    ("_declaration",
      .choice
        [.symbol "module_var_declaration", .symbol "procedure_declaration",
          .symbol "function_declaration", .symbol "region"]),
    ("module_var_declaration",
      .seq
        [.repeat0 (.symbol "annotation"), .keyword "Var", .commaSeparated (.symbol "variable"),
          .literal ";"]),
    ("variable",
      .seq
        [.field "name" (.symbol "identifier"),
          .optional (.field "export" (.aliased "export" true (.keyword "Export")))]),
    ("annotation",
      .seq
        [.literal "&", .field "name" (.immediate (.symbol "identifier")),
          .optional (.field "arguments" (.symbol "annotation_arguments"))]),
    ("annotation_arguments",
      .seq
        [.literal "(", .optional (.commaSeparated (.symbol "annotation_argument")),
          .literal ")"]),
    ("annotation_argument",
      .choice
        [.seq
           [.field "name" (.symbol "identifier"),
             .optional (.seq [.literal "=", .field "value" (.symbol "_literal")])],
          .field "value" (.symbol "_literal")]),
    ("procedure_declaration", method "Procedure" "EndProcedure"),
    ("function_declaration", method "Function" "EndFunction"),
    ("parameters",
      .seq [.literal "(", .optional (.commaSeparated (.symbol "parameter")), .literal ")"]),
    ("parameter",
      .seq
        [.repeat0 (.symbol "annotation"),
          .optional (.field "val" (.aliased "val" true (.keyword "Val"))),
          .field "name" (.symbol "identifier"),
          .optional (.seq [.literal "=", .field "default" (.symbol "_default_value")])]),
    ("_default_value", .choice [.symbol "_literal", .symbol "unary_expression"]),
    ("var_block", .repeat1 (.symbol "var_declaration")),
    ("var_declaration",
      .seq
        [.keyword "Var", .commaSeparated (.field "name" (.symbol "identifier")), .literal ";"])]

/-- Regions among declarations and among statements. -/
def regionRules : List (String × Rule) :=
  [("region",
      .seq
        [regionMarker "region_start" "#Region", .field "name" (.symbol "identifier"),
          .repeat0 (.symbol "_declaration"), .optional (.symbol "_statements"),
          regionMarker "region_end" "#EndRegion"]),
    ("code_region",
      .seq
        [regionMarker "region_start" "#Region", .field "name" (.symbol "identifier"),
          .optional (.symbol "_statements"), regionMarker "region_end" "#EndRegion"])]

/-- Statements. -/
def statementRules : List (String × Rule) :=
  [("block", .symbol "_statements"),
    ("_statements",
      .choice
        [.seq [.repeat1 (.symbol "_terminated_statement"), .optional (.symbol "_statement")],
          .symbol "_statement"]),
    ("_terminated_statement",
      .choice
        [.seq [.symbol "_statement", .literal ";"], .literal ";",
          .aliased "region" true (.symbol "code_region")]),
    ("_statement",
      .choice
        [.symbol "assignment", .symbol "call_statement", .symbol "if_statement",
          .symbol "while_loop", .symbol "for_loop", .symbol "for_each_loop",
          .symbol "try_statement", .symbol "return_statement", .symbol "raise_operator",
          .symbol "break_statement", .symbol "continue_statement", .symbol "add_handler",
          .symbol "remove_handler"]),
    ("assignment",
      .seq
        [.field "left" (.symbol "_lvalue"), .literal "=",
          .field "right" (.symbol "_expression")]),
    ("call_statement", .field "call" (.symbol "method_call")),
    ("if_statement",
      .seq
        [.keyword "If", .field "condition" (.symbol "_expression"), .keyword "Then",
          .optional (.field "consequence" (.symbol "block")), .repeat0 (.symbol "elsif_clause"),
          .optional (.field "alternative" (.symbol "else_clause")), .keyword "EndIf"]),
    ("elsif_clause",
      .seq
        [.keyword "ElsIf", .field "condition" (.symbol "_expression"), .keyword "Then",
          .optional (.field "consequence" (.symbol "block"))]),
    ("else_clause", .seq [.keyword "Else", .optional (.field "body" (.symbol "block"))]),
    ("while_loop",
      .seq
        [.keyword "While", .field "condition" (.symbol "_expression"), .keyword "Do",
          .optional (.field "body" (.symbol "block")), .keyword "EndDo"]),
    ("for_loop",
      .seq
        [.keyword "For", .field "variable" (.symbol "identifier"), .literal "=",
          .field "start" (.symbol "_expression"), .keyword "To",
          .field "end" (.symbol "_expression"), .keyword "Do",
          .optional (.field "body" (.symbol "block")), .keyword "EndDo"]),
    ("for_each_loop",
      .seq
        [.keyword "For", .keyword "Each", .field "variable" (.symbol "identifier"),
          .keyword "In", .field "collection" (.symbol "_expression"), .keyword "Do",
          .optional (.field "body" (.symbol "block")), .keyword "EndDo"]),
    ("try_statement",
      .seq
        [.keyword "Try", .optional (.field "body" (.symbol "block")), .keyword "Except",
          .optional (.field "handler" (.symbol "block")), .keyword "EndTry"]),
    ("return_statement",
      .seq [.keyword "Return", .optional (.field "value" (.symbol "_expression"))]),
    ("raise_operator",
      .seq [.keyword "Raise", .optional (.field "value" (.symbol "_expression"))]),
    ("break_statement", .keyword "Break"),
    ("continue_statement", .keyword "Continue"),
    ("add_handler", handlerStatement "AddHandler"),
    ("remove_handler", handlerStatement "RemoveHandler")]

/-- Expressions. -/
def expressionRules : List (String × Rule) :=
  [("_expression",
      .choice
        [.symbol "_lvalue", .symbol "_literal", .symbol "unary_expression",
          .symbol "binary_expression", .symbol "ternary_expression", .symbol "new_expression",
          .symbol "parenthesized_expression"]),
    ("_lvalue",
      .choice
        [.symbol "identifier", .symbol "member_access", .symbol "index_access",
          .symbol "method_call"]),
    ("member_access",
      .seq
        [.field "object" (.symbol "_lvalue"), .literal ".",
          .field "property" (.symbol "identifier")]),
    ("index_access",
      .seq
        [.field "object" (.symbol "_lvalue"), .literal "[",
          .field "index" (.symbol "_expression"), .literal "]"]),
    ("method_call",
      .seq [.field "function" (.symbol "_lvalue"), .field "arguments" (.symbol "arguments")]),
    ("arguments", .seq [.literal "(", .optional (.symbol "_argument_list"), .literal ")"]),
    ("_argument_list",
      .choice
        [.seq
           [.symbol "_expression",
             .repeat0 (.seq [.literal ",", .optional (.symbol "_expression")])],
          .repeat1 (.seq [.literal ",", .optional (.symbol "_expression")])]),
    ("unary_expression",
      .choice
        [unary .unary (.choice [.literal "-", .literal "+"]), unary .not (.keyword "Not")]),
    ("binary_expression",
      .choice
        [binary .or (.keyword "Or"), binary .and (.keyword "And"),
          binary .relational
            (.choice
               [.literal "=", .literal "<>", .literal "<", .literal "<=", .literal ">",
                 .literal ">="]),
          binary .add (.choice [.literal "+", .literal "-"]),
          binary .multiply (.choice [.literal "*", .literal "/", .literal "%"])]),
    ("ternary_expression",
      .seq
        [.literal "?", .literal "(", .field "condition" (.symbol "_expression"), .literal ",",
          .field "consequence" (.symbol "_expression"), .literal ",",
          .field "alternative" (.symbol "_expression"), .literal ")"]),
    ("new_expression",
      .choice
        [.seq
           [.keyword "New", .field "type" (.symbol "identifier"),
             .optional (.field "arguments" (.symbol "arguments"))],
          .seq
            [.keyword "New", .literal "(", .field "type" (.symbol "_expression"),
              .optional (.seq [.literal ",", .field "arguments" (.symbol "_expression")]),
              .literal ")"]]),
    ("parenthesized_expression", .seq [.literal "(", .symbol "_expression", .literal ")"]),
    ("_literal",
      .choice
        [.symbol "number", .symbol "string", .symbol "date_literal",
          .aliased "true_literal" true (.keyword "True"),
          .aliased "false_literal" true (.keyword "False"),
          .aliased "undefined_literal" true (.keyword "Undefined"),
          .aliased "null_literal" true (.keyword "Null")])]

/-- Tokens. -/
def lexicalRules : List (String × Rule) :=
  [("identifier", .pattern "[\\p{L}_][\\p{L}\\p{N}_]*"),
    ("number",
      .token (.seq [.pattern "[0-9]+", .optional (.seq [.literal ".", .pattern "[0-9]+"])])),
    ("comment", .pattern "//[^\\r\\n]*"),
    ("preprocessor_directive", .pattern "#[^\\r\\n]*")]

/-- The grammar as it is written down. -/
def draft : GrammarDraft :=
  { name := "onescript"
    rules := moduleRules ++ regionRules ++ statementRules ++ expressionRules ++ lexicalRules
    extras := [.symbol "comment", .symbol "preprocessor_directive"]
    externals := externals
    keywords := keywords
    word := some "identifier"
    conflicts := [["region", "code_region"]] }

/-- The grammar of OneScript. -/
def grammar : Grammar :=
  { draft with names_nodup := by decide +kernel }

end Lalr.OneScript
