import Lalr.Json.Basic

set_option autoImplicit false

/-!
How values are kept as JSON: each shape has a writing and a reading side, and reading
gives back what was written. Some values can also be read from a second form that is never
written: the members of an object from an array in their order, and a name from an object
with nothing under the name.
-/

namespace Lalr

/-- A way to keep values of a type as JSON. -/
structure Shape (α : Type) where
  write : α → Json
  read? : Json → Option α

/-- A way to keep values of a type as the members of an object. -/
structure Members (α : Type) where
  /-- The names of the members in their order. -/
  names : List String
  write : α → List (String × Json)
  read? : List (String × Json) → Option α

namespace Shape

variable {α β : Type}

/-- Reading gives back what was written. -/
def Lawful (shape : Shape α) : Prop :=
  ∀ value, shape.read? (shape.write value) = some value

/-- A text. -/
def text : Shape String :=
  ⟨.string, fun json => match json with | .string text => some text | _ => none⟩

/-- A truth value. -/
def truth : Shape Bool :=
  ⟨.bool, fun json => match json with | .bool value => some value | _ => none⟩

/-- A natural number. -/
def nat : Shape Nat :=
  ⟨fun value => .number value,
    fun json => match json with | .number (.ofNat value) => some value | _ => none⟩

/-- An integer. -/
def int : Shape Int :=
  ⟨.number, fun json => match json with | .number value => some value | _ => none⟩

/-- Values of another type that a shape can keep; reading may refuse some. -/
def via? (shape : Shape α) (out : β → α) (into? : α → Option β) : Shape β :=
  ⟨fun value => shape.write (out value), fun json => (shape.read? json).bind into?⟩

/-- Values of another type. -/
def via (shape : Shape α) (out : β → α) (into : α → β) : Shape β :=
  shape.via? out fun value => some (into value)

/-- Natural numbers below a bound, kept as numbers of another type. -/
def below (bound : Nat) (out : β → Nat) (into : Nat → β) : Shape β :=
  nat.via? out fun value => if value < bound then some (into value) else none

/-- A word of two bytes. -/
def word16 : Shape UInt16 :=
  below UInt16.size UInt16.toNat Nat.toUInt16

/-- A word of four bytes. -/
def word32 : Shape UInt32 :=
  below UInt32.size UInt32.toNat Nat.toUInt32

/-- A word of eight bytes. -/
def word64 : Shape UInt64 :=
  below UInt64.size UInt64.toNat Nat.toUInt64

/-- A signed word of four bytes. -/
def signed32 : Shape Int32 :=
  int.via? Int32.toInt fun value =>
    if Int32.minValue.toInt ≤ value ∧ value ≤ Int32.maxValue.toInt then some (Int32.ofInt value)
    else none

/-- The name that a text gives, or an object with nothing but null under the name. -/
def name? : Json → Option String
  | .string name => some name
  | .object [(name, .null)] => some name
  | _ => none

/-- One of several named values. -/
def named [BEq α] (names : List (String × α)) : Shape α :=
  ⟨fun value => .string (((names.find? fun entry => entry.2 == value).map Prod.fst).getD ""),
    fun json => (name? json).bind (names.lookup ·)⟩

/-- An optional value; null stands for none. -/
def option (shape : Shape α) : Shape (Option α) :=
  ⟨fun value => (value.map shape.write).getD .null,
    fun json => match json with | .null => some none | json => (shape.read? json).map some⟩

/-- An array of values. -/
def list (shape : Shape α) : Shape (List α) :=
  ⟨fun values => .array (values.map shape.write),
    fun json => match json with | .array items => items.mapM shape.read? | _ => none⟩

/-- An array of two values. -/
def pair (first : Shape α) (second : Shape β) : Shape (α × β) :=
  ⟨fun (a, b) => .array [first.write a, second.write b],
    fun json =>
      match json with
      | .array [a, b] => do pure (← first.read? a, ← second.read? b)
      | _ => none⟩

/-- An object with the given members; others are ignored. An array must have an item for
each of them. -/
def object (members : Members α) : Shape α :=
  ⟨fun value => .object (members.write value),
    fun json =>
      match json with
      | .object found => members.read? found
      | .array items =>
          if items.length = members.names.length then members.read? (members.names.zip items)
          else none
      | _ => none⟩

/-- An object of which all members may be absent. An array may have an item for only the
first of them. -/
def optionalObject (members : Members α) : Shape α :=
  ⟨fun value => .object (members.write value),
    fun json =>
      match json with
      | .object found => members.read? found
      | .array items =>
          if items.length ≤ members.names.length then members.read? (members.names.zip items)
          else none
      | _ => none⟩

end Shape

namespace Members

variable {α β : Type}

/-- A single member; an absent one counts as null. -/
def one (name : String) (shape : Shape α) : Members α :=
  ⟨[name], fun value => [(name, shape.write value)],
    fun found => shape.read? ((found.lookup name).getD .null)⟩

/-- A single member with a value that it has if it is absent or null. -/
def withDefault (name : String) (shape : Shape α) (default : α) : Members α :=
  ⟨[name], fun value => [(name, shape.write value)],
    fun found => (shape.option.read? ((found.lookup name).getD .null)).map (·.getD default)⟩

/-- The members of two groups. -/
def and (first : Members α) (second : Members β) : Members (α × β) :=
  ⟨first.names ++ second.names, fun (a, b) => first.write a ++ second.write b,
    fun found => do pure (← first.read? found, ← second.read? found)⟩

/-- The members of values of another type. -/
def via (members : Members α) (out : β → α) (into : α → β) : Members β :=
  ⟨members.names, fun value => members.write (out value),
    fun found => (members.read? found).map into⟩

end Members

end Lalr
