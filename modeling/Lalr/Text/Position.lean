import Lalr.Text.Utf8

set_option autoImplicit false

/-!
Positions in a text. Offsets are in bytes, columns in characters; both lines and
columns count from zero and are shown from one. The lines of a text are found
through an index of where they start.
-/

namespace Lalr.Text

/-- A place in a text. -/
structure Position where
  line : Nat
  column : Nat
  offset : Nat
deriving DecidableEq, Repr, Inhabited

/-- A stretch of text between two positions. -/
structure Span where
  start : Position
  finish : Position
deriving DecidableEq, Repr, Inhabited

namespace Position

/-- A count from one for a count from zero; behind the largest word of eight bytes comes
zero. -/
def shown (count : Nat) : Nat :=
  (count.toUInt64 + 1).toNat

/-- Positions are shown as `line:column`, counted from one. -/
def render (position : Position) : String :=
  toString (shown position.line) ++ ":" ++ toString (shown position.column)

end Position

/-- The lines of a text: how many bytes it has, and where its lines start. -/
structure LineIndex where
  length : Nat
  /-- The start of the text, and the place behind each line feed. -/
  starts : Array Cursor
deriving Repr, Inhabited

namespace LineIndex

/-- The places behind the line feeds of a text that starts at byte `offset`. -/
def startsBehind (offset : Nat) : List Char → List Cursor
  | [] => []
  | c :: rest =>
      let behind := offset + c.utf8Size
      if c = '\n' then ⟨behind, rest⟩ :: startsBehind behind rest
      else startsBehind behind rest

/-- The index of a text. -/
def ofText (text : List Char) : LineIndex :=
  ⟨utf8Length text, (Cursor.start text :: startsBehind 0 text).toArray⟩

/-- The last line that starts at or before a byte offset, searched among `count` lines
from line `low` on by halving their number. -/
def lineAt (index : LineIndex) (offset low count : Nat) : Nat :=
  if count ≤ 1 then low
  else
    let half := count / 2
    if (index.starts[low + half]?).any (·.offset ≤ offset) then
      index.lineAt offset (low + half) (count - half)
    else index.lineAt offset low half
termination_by count

/-- How many characters the first `count` bytes of a text are, on top of those already
passed; there is no answer where a character does not end with these bytes. -/
def columnFrom (passed : Nat) : Nat → List Char → Option Nat
  | 0, _ => some passed
  | _ + 1, [] => none
  | count + 1, c :: rest =>
      if c.utf8Size ≤ count + 1 then columnFrom (passed + 1) (count + 1 - c.utf8Size) rest
      else none
termination_by structural _ text => text

/-- The position of a byte offset; offsets past the end give the end, and an offset inside
a character has its column in bytes. -/
def position (index : LineIndex) (offset : Nat) : Position :=
  let offset := min offset index.length
  let line := index.lineAt offset 0 index.starts.size
  let start := index.starts.getD line default
  let count := offset - start.offset
  ⟨line, (columnFrom 0 count start.rest).getD count, offset⟩

end LineIndex

/-- The position of a byte offset; offsets past the end give the end. -/
def Position.ofOffset (text : List Char) (offset : Nat) : Position :=
  (LineIndex.ofText text).position offset

/-- The number of lines of a text, one more than its line feeds. -/
def lineCount (text : List Char) : Nat :=
  (LineIndex.ofText text).starts.size

/-- The span between two byte offsets. -/
def Span.ofOffsets (text : List Char) (start finish : Nat) : Span :=
  let index := LineIndex.ofText text
  ⟨index.position start, index.position finish⟩

end Lalr.Text
