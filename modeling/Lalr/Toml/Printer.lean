set_option autoImplicit false

/-!
Writing texts in TOML with as few escapes as possible.
-/

namespace Lalr.Toml

/-- The longest run of a character. -/
def longestRun (c : Char) (text : List Char) : Nat :=
  (text.foldl (fun (run, longest) d =>
    let run := if d = c then run + 1 else 0
    (run, max longest run)) (0, 0)).2

/-- Control characters other than tabulators and line ends; only escapes can write
them. -/
def needsEscape (c : Char) : Bool :=
  (c < ' ' && c ≠ '\t' && c ≠ '\n') || c = '\x7f'

/-- Four hexadecimal digits of a number, in capitals. -/
def fourDigits (number : Nat) : List Char :=
  [4096, 256, 16, 1].map fun place => (Nat.digitChar (number / place % 16)).toUpper

/-- A character between quotation marks, after `quotes` quotation marks in a row; in a
text of several lines line ends and up to two quotation marks stand for themselves. -/
def basicChar (long : Bool) (quotes : Nat) (c : Char) : List Char :=
  match c with
  | '"' => if long && quotes < 2 then ['"'] else ['\\', '"']
  | '\\' => ['\\', '\\']
  | '\n' => if long then ['\n'] else ['\\', 'n']
  | '\t' => ['\\', 't']
  | '\x08' => ['\\', 'b']
  | '\x0c' => ['\\', 'f']
  | '\r' => ['\\', 'r']
  | c => if needsEscape c then ['\\', 'u'] ++ fourDigits c.toNat else [c]

/-- The characters between quotation marks. -/
def basicChars (long : Bool) (quotes : Nat) : List Char → List Char
  | [] => []
  | c :: rest =>
      let written := basicChar long quotes c
      written ++ basicChars long (if written = ['"'] then quotes + 1 else 0) rest

/-- A text in the first of these notations that holds it without escapes: quotation
marks, apostrophes, three quotation marks, three apostrophes; else between quotation
marks with escapes. Texts with line ends take the long notations, behind a line end. -/
def renderText (text : String) : String :=
  let chars := text.toList
  let control := chars.any needsEscape
  let backslash := chars.contains '\\'
  let lineEnd := chars.contains '\n'
  let quotes := longestRun '"' chars
  let apostrophes := longestRun '\x27' chars
  let start := if lineEnd then ['\n'] else []
  let short := ['"'] ++ basicChars false 0 chars ++ ['"']
  let long := ['"', '"', '"'] ++ start ++ basicChars true 0 chars ++ ['"', '"', '"']
  String.ofList <|
    if !control && !backslash && quotes = 0 && !lineEnd then short
    else if !control && apostrophes = 0 && !lineEnd then ['\x27'] ++ chars ++ ['\x27']
    else if !control && !backslash && quotes ≤ 2 then long
    else if !control && apostrophes ≤ 2 then
      ['\x27', '\x27', '\x27'] ++ start ++ chars ++ ['\x27', '\x27', '\x27']
    else if lineEnd then long
    else short

/-- An array of texts: on one line with up to one item, else with one item a line. -/
def renderTexts (items : List String) : String :=
  match items with
  | [] => "[]"
  | [item] => "[" ++ renderText item ++ "]"
  | items => "[" ++ String.join (items.map fun item => "\n    " ++ renderText item ++ ",") ++ "\n]"

end Lalr.Toml
