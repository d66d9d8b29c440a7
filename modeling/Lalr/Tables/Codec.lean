set_option autoImplicit false

/-!
Binary storage forms. A codec writes a value as bytes and reads it from the front of
a byte sequence, leaving the rest. Numbers have a fixed width and put their low bytes
first; texts and lists start with their length; an option starts with one byte and an
alternative with its number.
-/

namespace Lalr

/-- A storage form of values. -/
structure Codec (α : Type) where
  write : α → List UInt8
  read : List UInt8 → Option (α × List UInt8)

namespace Codec

/-- Reading gives back what was written, and only what was written can be read. -/
structure Lawful {α : Type} (codec : Codec α) (storable : α → Prop) : Prop where
  read_write : ∀ value rest, storable value →
    codec.read (codec.write value ++ rest) = some (value, rest)
  eq_write : ∀ bytes value rest, codec.read bytes = some (value, rest) →
    storable value ∧ bytes = codec.write value ++ rest

/-- The low bytes of a number, the lowest first. -/
def lowBytes : Nat → Nat → List UInt8
  | 0, _ => []
  | width + 1, number => (number % 256).toUInt8 :: lowBytes width (number / 256)

/-- Reads a number of a fixed width. -/
def readNumber : Nat → List UInt8 → Option (Nat × List UInt8)
  | 0, bytes => some (0, bytes)
  | _ + 1, [] => none
  | width + 1, byte :: bytes => do
      let (high, rest) ← readNumber width bytes
      pure (byte.toNat + 256 * high, rest)

/-- Numbers of a fixed width in bytes. -/
def number (width : Nat) : Codec Nat :=
  ⟨lowBytes width, readNumber width⟩

/-- Stores values of one type as values of another. -/
def via {α β : Type} (codec : Codec α) (store : β → α) (load : α → β) : Codec β :=
  ⟨fun value => codec.write (store value),
    fun bytes => (codec.read bytes).map fun (value, rest) => (load value, rest)⟩

/-- Numbers of 16 bits. -/
def word16 : Codec UInt16 :=
  (number 2).via UInt16.toNat Nat.toUInt16

/-- Numbers of 32 bits. -/
def word32 : Codec UInt32 :=
  (number 4).via UInt32.toNat Nat.toUInt32

/-- Numbers of 64 bits. -/
def word64 : Codec UInt64 :=
  (number 8).via UInt64.toNat Nat.toUInt64

/-- Signed numbers of 32 bits. -/
def signed32 : Codec Int32 :=
  word32.via Int32.toUInt32 UInt32.toInt32

/-- One value behind another. -/
def pair {α β : Type} (first : Codec α) (second : Codec β) : Codec (α × β) :=
  ⟨fun value => first.write value.1 ++ second.write value.2,
    fun bytes => do
      let (a, rest) ← first.read bytes
      let (b, rest) ← second.read rest
      pure ((a, b), rest)⟩

/-- A truth value is one byte, 0 or 1. -/
def bool : Codec Bool :=
  ⟨fun value => [if value then 1 else 0],
    fun bytes =>
      match bytes with
      | 0 :: rest => some (false, rest)
      | 1 :: rest => some (true, rest)
      | _ => none⟩

/-- An option is a byte, 0 or 1, and the value if there is one. -/
def option {α : Type} (item : Codec α) : Codec (Option α) :=
  ⟨fun value =>
      match value with
      | none => [0]
      | some value => 1 :: item.write value,
    fun bytes =>
      match bytes with
      | 0 :: rest => some (none, rest)
      | 1 :: rest => (item.read rest).map fun (value, rest) => (some value, rest)
      | _ => none⟩

/-- Reads a given number of values; `before` holds those already read, last first. -/
def readMany {α : Type} (item : Codec α) (before : List α) :
    Nat → List UInt8 → Option (List α × List UInt8)
  | 0, bytes => some (before.reverse, bytes)
  | count + 1, bytes =>
      match item.read bytes with
      | none => none
      | some (value, rest) => readMany item (value :: before) count rest

/-- A list is its length and its items. -/
def list {α : Type} (item : Codec α) : Codec (List α) :=
  ⟨fun values => (number 8).write values.length ++ values.flatMap item.write,
    fun bytes => do
      let (count, rest) ← (number 8).read bytes
      item.readMany [] count rest⟩

/-- An array is stored as its list. -/
def array {α : Type} (item : Codec α) : Codec (Array α) :=
  item.list.via Array.toList List.toArray

/-- Takes exactly `count` bytes off the front; `before` holds those already taken, last
first. -/
def takeBytes (before : List UInt8) : Nat → List UInt8 → Option (List UInt8 × List UInt8)
  | 0, bytes => some (before.reverse, bytes)
  | _ + 1, [] => none
  | count + 1, byte :: bytes => takeBytes (byte :: before) count bytes

/-- A text is its length in bytes and its UTF-8 form. -/
def text : Codec String :=
  ⟨fun value => (number 8).write value.utf8ByteSize ++ value.toUTF8.data.toList,
    fun bytes => do
      let (count, rest) ← (number 8).read bytes
      let (content, rest) ← takeBytes [] count rest
      let value ← String.fromUTF8? ⟨content.toArray⟩
      pure (value, rest)⟩

end Codec

end Lalr
