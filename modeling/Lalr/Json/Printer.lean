import Lalr.Json.Basic
import Lalr.Json.Number

set_option autoImplicit false

/-!
Writing JSON: on one line without blanks, or over several lines with two blanks of
indentation a level.
-/

namespace Lalr.Json

/-- A character inside a quoted text. Only the quotation mark, the backslash and control
characters are escaped. -/
def quotedChar (c : Char) : List Char :=
  match c with
  | '"' => ['\\', '"']
  | '\\' => ['\\', '\\']
  | '\x08' => ['\\', 'b']
  | '\x0c' => ['\\', 'f']
  | '\n' => ['\\', 'n']
  | '\r' => ['\\', 'r']
  | '\t' => ['\\', 't']
  | c =>
      if c.toNat < 32 then
        ['\\', 'u', '0', '0', Nat.digitChar (c.toNat / 16), Nat.digitChar (c.toNat % 16)]
      else [c]

/-- A text in quotation marks. -/
def quoted (text : String) : String :=
  String.ofList ('"' :: text.toList.flatMap quotedChar ++ ['"'])

/-- The text of a truth value. -/
def truth (value : Bool) : String :=
  if value then "true" else "false"

mutual

/-- A value on one line. -/
def compact : Json → String
  | .array items => "[" ++ ",".intercalate (compactItems items) ++ "]"
  | .object members => "\x7b" ++ ",".intercalate (compactMembers members) ++ "\x7d"
  | .null => "null"
  | .bool value => truth value
  | .number value => toString value
  | .float value => floatText value
  | .string text => quoted text
termination_by structural value => value

/-- The items of an array, each on one line. -/
def compactItems : List Json → List String
  | [] => []
  | item :: items => item.compact :: compactItems items
termination_by structural items => items

/-- The members of an object, each on one line. -/
def compactMembers : List (String × Json) → List String
  | [] => []
  | (name, value) :: members =>
      (quoted name ++ ":" ++ value.compact) :: compactMembers members
termination_by structural members => members

end

/-- The blanks before a line. -/
def indentation (depth : Nat) : String :=
  String.ofList (List.replicate (2 * depth) ' ')

/-- Lines one level deeper between brackets; without lines the brackets are joined. -/
def block (opening closing : String) (depth : Nat) (lines : List String) : String :=
  if lines.isEmpty then opening ++ closing
  else
    opening ++ "\n" ++
      ",\n".intercalate (lines.map fun line => indentation (depth + 1) ++ line) ++
      "\n" ++ indentation depth ++ closing

mutual

/-- A value over several lines. -/
def pretty (depth : Nat) : Json → String
  | .array items => block "[" "]" depth (prettyItems (depth + 1) items)
  | .object members => block "\x7b" "\x7d" depth (prettyMembers (depth + 1) members)
  | .null => "null"
  | .bool value => truth value
  | .number value => toString value
  | .float value => floatText value
  | .string text => quoted text
termination_by structural value => value

/-- The items of an array over several lines. -/
def prettyItems (depth : Nat) : List Json → List String
  | [] => []
  | item :: items => item.pretty depth :: prettyItems depth items
termination_by structural items => items

/-- The members of an object over several lines. -/
def prettyMembers (depth : Nat) : List (String × Json) → List String
  | [] => []
  | (name, value) :: members =>
      (quoted name ++ ": " ++ value.pretty depth) :: prettyMembers depth members
termination_by structural members => members

end

end Lalr.Json
