import Lalr.Text.Property.Age
import Lalr.Text.Property.Binary
import Lalr.Text.Property.ScriptExtension
import Lalr.Text.Property.Segment

set_option autoImplicit false

/-!
Looking up a set of characters by the name of a property. Names may be written in any case,
with or without blanks, hyphens and low lines, and with a leading `is`.
-/

namespace Lalr.Text.Property

/-- The letters of a name in normal form; whatever is not ASCII is dropped. -/
def normalLetters (name : List Char) : List Char :=
  (name.filter fun c => c.toNat < 0x80 && c != ' ' && c != '_' && c != '-').map Char.toLower

/-- The normal form of a name. The one name that starts with `is` keeps it. -/
def normalName (name : List Char) : String :=
  match name with
  | i :: s :: rest =>
      if i.toLower = 'i' && s.toLower = 's' then
        let letters := normalLetters rest
        if letters = ['c'] then "isc" else String.ofList letters
      else String.ofList (normalLetters name)
  | _ => String.ofList (normalLetters name)

/-- The set of a property that characters have or lack, of a category or of a script, in
this order. -/
def named? (name : List Char) : Option CharRanges :=
  let name := normalName name
  ((binary? name).or (category? name)).or (script? name)

/-- The characters with a given value of a property. -/
def valued? (property value : List Char) : Option CharRanges :=
  let value := normalName value
  match normalName property with
  | "generalcategory" | "gc" => category? value
  | "script" | "sc" => script? value
  | "scriptextensions" | "scx" => scriptExtension? value
  | "age" => age? value
  | "graphemeclusterbreak" | "gcb" => NamedSet.find? value graphemeBreaks
  | "wordbreak" | "wb" => NamedSet.find? value wordBreaks
  | "sentencebreak" | "sb" => NamedSet.find? value sentenceBreaks
  | _ => none

/-- Characters of words in patterns: alphabetic characters, marks, decimal digits, connectors
and the two join controls. -/
def word : CharRanges :=
  CharRanges.unions [alphabetic, mark, decimalNumber, connectors, joinControl]

/-- ASCII digits. -/
def asciiDigit : CharRanges :=
  [(0x30, 0x39)]

/-- ASCII white space. -/
def asciiSpace : CharRanges :=
  [(0x9, 0xD), (0x20, 0x20)]

/-- ASCII characters of words. -/
def asciiWord : CharRanges :=
  [(0x30, 0x39), (0x41, 0x5A), (0x5F, 0x5F), (0x61, 0x7A)]

end Lalr.Text.Property
