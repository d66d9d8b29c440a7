import Lalr.Toml.Scan

set_option autoImplicit false

/-!
Reading TOML documents.
-/

namespace Lalr.Toml

/-- Reads a number, a date or a truth value. -/
def scalar (text : List Char) : Option (Toml × List Char) :=
  match text with
  | 't' :: 'r' :: 'u' :: 'e' :: rest => some (.boolean true, rest)
  | 'f' :: 'a' :: 'l' :: 's' :: 'e' :: rest => some (.boolean false, rest)
  | _ =>
      match skipDate? text with
      | some rest => some (.date, rest)
      | none =>
          match skipFloat? text with
          | some rest => some (.float, rest)
          | none => (wholeNumber text).map fun (value, rest) => (.integer value, rest)

/-- Reads the items of an array up to its closing bracket. -/
def arrayItems (item : Reader Toml) : Nat → Reader (List Toml)
  | 0, _ => none
  | fuel + 1, text =>
      match skipBlank (text.length + 1) text with
      | ']' :: rest => some ([], rest)
      | text => do
          let (value, rest) ← item text
          match skipBlank (rest.length + 1) rest with
          | ',' :: rest => do
              let (values, rest) ← arrayItems item fuel rest
              pure (value :: values, rest)
          | ']' :: rest => pure ([value], rest)
          | _ => none

/-- Reads a key, an equals sign and a value. -/
def assignment (item : Reader Toml) (text : List Char) :
    Option ((List String × String × Toml) × List Char) := do
  let ((path, name), rest) ← key text
  let rest ← skipChar? '=' rest
  let (value, rest) ← item (skipInline rest)
  pure ((path, name, value), rest)

/-- Reads the members of a table in braces up to the closing one, and adds them. -/
def inlineMembers (item : Reader Toml) : Nat → Toml → Reader Toml
  | 0, _, _ => none
  | fuel + 1, opened, text => do
      let ((path, name, content), rest) ← assignment item text
      let opened ← opened.insert? path name content
      match skipInline rest with
      | ',' :: rest => inlineMembers item fuel opened rest
      | '\x7d' :: rest => pure (opened, rest)
      | _ => none

/-- Reads a value with at most `depth` levels of arrays and tables. -/
def value : Nat → Reader Toml
  | depth, text =>
      match text with
      | '[' :: rest =>
          match depth with
          | 0 => none
          | depth + 1 =>
              (arrayItems (value depth) (rest.length + 1) rest).map fun (items, rest) =>
                (.array items, rest)
      | '\x7b' :: rest =>
          match depth with
          | 0 => none
          | depth + 1 =>
              match skipInline rest with
              | '\x7d' :: rest => some (.table .inline [], rest)
              | rest => inlineMembers (value depth) (rest.length + 1) (.table .inline []) rest
      | '"' :: _ => (anyText text).map fun (content, rest) => (.string content, rest)
      | '\x27' :: _ => (anyText text).map fun (content, rest) => (.string content, rest)
      | _ => scalar text

/-- A document in the making: what was read and the table that is open. -/
structure Draft where
  document : Toml := .empty
  path : List String := []

namespace Draft

/-- Reads a header and opens its table. -/
def header (draft : Draft) (text : List Char) : Option (Draft × List Char) :=
  match text with
  | '[' :: '[' :: rest => do
      let ((path, name), rest) ← key rest
      let rest ← skipChar? ']' rest
      let rest ← skipChar? ']' rest
      let document ← updateAt? false (addTable name) path draft.document
      pure (⟨document, path ++ [name]⟩, rest)
  | '[' :: rest => do
      let ((path, name), rest) ← key rest
      let rest ← skipChar? ']' rest
      let document ← updateAt? false (openTable name) path draft.document
      pure (⟨document, path ++ [name]⟩, rest)
  | _ => none

/-- Reads a value under its key into the open table. -/
def member (draft : Draft) (text : List Char) : Option (Draft × List Char) := do
  let ((path, name, content), rest) ← assignment (value (nestingLimit - 1)) text
  let add : Origin → List (String × Toml) → Option Toml := fun origin members =>
    insert? (.table origin members) path name content
  let document ← updateAt? false add draft.path draft.document
  pure ({ draft with document := document }, rest)

/-- Reads lines up to the end of the text. -/
def lines : Nat → Draft → List Char → Option Draft
  | 0, _, _ => none
  | fuel + 1, draft, text =>
      match skipBlank (text.length + 1) text with
      | [] => some draft
      | text => do
          let (draft, rest) ←
            match text with
            | '[' :: _ => draft.header text
            | _ => draft.member text
          lines fuel draft (← endLine? rest)

end Draft

/-- Reads a document; a byte order mark before it does not count. -/
def parse? (text : List Char) : Option Toml :=
  let text :=
    match text with
    | '\ufeff' :: rest => rest
    | text => text
  let text := joinLineEnds text
  (Draft.lines (text.length + 1) {} text).map Draft.document

end Lalr.Toml
