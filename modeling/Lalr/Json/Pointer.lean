import Lalr.Json.Basic
import Lalr.Text.Digits

set_option autoImplicit false

/-!
Changing a value at a place given by a JSON pointer: the names of members and the
numbers of items on the way to it, each after a slash.
-/

namespace Lalr.Json

open Lalr.Text

/-- A step of a pointer as it is written: `~1` stands for a slash and `~0` for a tilde. -/
def pointerStep : List Char → List Char
  | '~' :: '1' :: rest => '/' :: pointerStep rest
  | '~' :: '0' :: rest => '~' :: pointerStep rest
  | c :: rest => c :: pointerStep rest
  | [] => []

/-- The steps of a pointer. The empty pointer is the whole value, any other starts with
a slash. -/
def pointerSteps? (pointer : String) : Option (List String) :=
  match pointer.toList with
  | [] => some []
  | '/' :: rest =>
      some ((rest.splitOn '/').map fun step => String.ofList (pointerStep step))
  | _ => none

/-- The number of an item: decimal digits without a leading zero. -/
def itemNumber? (step : String) : Option Nat :=
  let digits := step.toList
  if digits.isEmpty || !digits.all Char.isDigit || (digits.head? == some '0' && digits ≠ ['0']) then
    none
  else some (ofDigits 10 digits)

/-- Changes the first member with a name. -/
def updateMember? (name : String) (change : Json → Option Json) :
    List (String × Json) → Option (List (String × Json))
  | [] => none
  | (first, value) :: members =>
      if first = name then (change value).map fun value => (first, value) :: members
      else (updateMember? name change members).map ((first, value) :: ·)

/-- Changes what the steps lead to; there is no result if they lead nowhere. -/
def updateAt? (change : Json → Option Json) : List String → Json → Option Json
  | [], value => change value
  | step :: steps, .object members =>
      (updateMember? step (updateAt? change steps) members).map .object
  | step :: steps, .array items => do
      let index ← itemNumber? step
      let item ← updateAt? change steps (← items[index]?)
      pure (.array (items.set index item))
  | _ :: _, _ => none

/-- A change of a value. -/
inductive Patch where
  | replace (value : Json)
  /-- Adds an item to the end of an array. -/
  | push (item : Json)
  /-- Keeps the first items of an array. -/
  | truncate (count : Nat)
deriving Repr, Inhabited

/-- Carries out a change; only arrays can be added to or cut. -/
def Patch.apply? : Patch → Json → Option Json
  | .replace value, _ => some value
  | .push item, .array items => some (.array (items ++ [item]))
  | .truncate count, .array items => some (.array (items.take count))
  | _, _ => none

/-- Carries out a change at the place of a pointer. -/
def patchAt? (value : Json) (pointer : String) (patch : Patch) : Option Json := do
  updateAt? patch.apply? (← pointerSteps? pointer) value

end Lalr.Json
