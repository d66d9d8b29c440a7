set_option autoImplicit false

/-!
Reading source bytes as text. A byte order mark selects UTF-16; otherwise bytes
that are valid UTF-8 are read as such, and all others as Windows-1251, the usual
single-byte encoding of older modules.
-/

namespace Lalr.Text

/-- Stands for input that encodes no character. -/
def replacement : Char := '\ufffd'

/-- The byte order mark. -/
def byteOrderMark : Char := '\ufeff'

/-! ## UTF-16 -/

/-- The order of the two bytes of a code unit. -/
inductive ByteOrder where
  | littleEndian
  | bigEndian
deriving DecidableEq, Repr

/-- A code unit from its two bytes in the order they are read. -/
def ByteOrder.unit (order : ByteOrder) (first second : UInt8) : Nat :=
  match order with
  | .littleEndian => first.toNat + 256 * second.toNat
  | .bigEndian => 256 * first.toNat + second.toNat

/-- The two bytes of a code unit. -/
def ByteOrder.bytes (order : ByteOrder) (unit : Nat) : List UInt8 :=
  match order with
  | .littleEndian => [(unit % 256).toUInt8, (unit / 256).toUInt8]
  | .bigEndian => [(unit / 256).toUInt8, (unit % 256).toUInt8]

/-- The first code unit of a surrogate pair. -/
def isLeadSurrogate (unit : Nat) : Bool :=
  0xD800 ≤ unit && unit < 0xDC00

/-- The second code unit of a surrogate pair. -/
def isTrailSurrogate (unit : Nat) : Bool :=
  0xDC00 ≤ unit && unit < 0xE000

/-- Reads UTF-16. Each surrogate without its partner, and a lone last byte, gives
one replacement; a lead surrogate followed by a lone last byte gives one for both. -/
def decodeUtf16 (order : ByteOrder) (lead : Option Nat) : List UInt8 → List Char
  | first :: second :: rest =>
      let unit := order.unit first second
      match lead with
      | some high =>
          if isTrailSurrogate unit then
            Char.ofNat (0x10000 + (high - 0xD800) * 0x400 + (unit - 0xDC00)) ::
              decodeUtf16 order none rest
          else if isLeadSurrogate unit then replacement :: decodeUtf16 order (some unit) rest
          else replacement :: Char.ofNat unit :: decodeUtf16 order none rest
      | none =>
          if isLeadSurrogate unit then decodeUtf16 order (some unit) rest
          else if isTrailSurrogate unit then replacement :: decodeUtf16 order none rest
          else Char.ofNat unit :: decodeUtf16 order none rest
  | [_] => [replacement]
  | [] => if lead.isSome then [replacement] else []

/-- The UTF-16 form of a text. -/
def encodeUtf16 (order : ByteOrder) : List Char → List UInt8
  | [] => []
  | c :: rest =>
      let code := c.toNat
      let units :=
        if code < 0x10000 then order.bytes code
        else
          order.bytes (0xD800 + (code - 0x10000) / 0x400) ++
            order.bytes (0xDC00 + (code - 0x10000) % 0x400)
      units ++ encodeUtf16 order rest

/-! ## UTF-8 -/

/-- What follows a lead byte of UTF-8: the value of its own bits, how many
continuation bytes there are and the bounds of the first one. -/
structure Utf8Lead where
  bits : Nat
  count : Nat
  low : Nat
  high : Nat
deriving DecidableEq, Repr

/-- Reads a lead byte; the bounds exclude overlong forms, surrogates and code
points past the last. -/
def Utf8Lead.ofByte? (byte : Nat) : Option Utf8Lead :=
  if byte < 0x80 then some ⟨byte, 0, 0x80, 0xBF⟩
  else if byte < 0xC2 then none
  else if byte < 0xE0 then some ⟨byte - 0xC0, 1, 0x80, 0xBF⟩
  else if byte = 0xE0 then some ⟨0, 2, 0xA0, 0xBF⟩
  else if byte = 0xED then some ⟨0xD, 2, 0x80, 0x9F⟩
  else if byte < 0xF0 then some ⟨byte - 0xE0, 2, 0x80, 0xBF⟩
  else if byte = 0xF0 then some ⟨0, 3, 0x90, 0xBF⟩
  else if byte < 0xF4 then some ⟨byte - 0xF0, 3, 0x80, 0xBF⟩
  else if byte = 0xF4 then some ⟨4, 3, 0x80, 0x8F⟩
  else none

/-- What is still expected of a character whose first bytes were read. -/
structure Utf8Partial where
  bits : Nat
  /-- Continuation bytes still to come, less one. -/
  left : Nat
  low : Nat
  high : Nat
deriving DecidableEq, Repr

/-- Reads UTF-8; `none` in the answer stands for one malformed stretch, the
longest start of a character that does not go on, or a byte that starts none. -/
def decodeUtf8 (pending : Option Utf8Partial) : List UInt8 → List (Option Char)
  | [] => if pending.isSome then [none] else []
  | byte :: rest =>
      let fresh : Unit → List (Option Char) := fun _ =>
        match Utf8Lead.ofByte? byte.toNat with
        | none => none :: decodeUtf8 none rest
        | some ⟨bits, 0, _, _⟩ => some (Char.ofNat bits) :: decodeUtf8 none rest
        | some ⟨bits, left + 1, low, high⟩ => decodeUtf8 (some ⟨bits, left, low, high⟩) rest
      match pending with
      | none => fresh ()
      | some awaited =>
          if awaited.low ≤ byte.toNat ∧ byte.toNat ≤ awaited.high then
            let bits := awaited.bits * 0x40 + (byte.toNat - 0x80)
            match awaited.left with
            | 0 => some (Char.ofNat bits) :: decodeUtf8 none rest
            | left + 1 => decodeUtf8 (some ⟨bits, left, 0x80, 0xBF⟩) rest
          else none :: fresh ()

/-- The text of bytes that are valid UTF-8. -/
def utf8? (bytes : List UInt8) : Option (List Char) :=
  (decodeUtf8 none bytes).mapM id

/-- The text of bytes read as UTF-8, with a replacement for each malformed stretch. -/
def utf8Lossy (bytes : List UInt8) : List Char :=
  (decodeUtf8 none bytes).map fun c => c.getD replacement

/-- The UTF-8 form of a character. -/
def encodeUtf8Char (c : Char) : List UInt8 :=
  let code := c.toNat
  if code < 0x80 then [code.toUInt8]
  else if code < 0x800 then [(0xC0 + code / 0x40).toUInt8, (0x80 + code % 0x40).toUInt8]
  else if code < 0x10000 then
    [(0xE0 + code / 0x1000).toUInt8, (0x80 + code / 0x40 % 0x40).toUInt8,
      (0x80 + code % 0x40).toUInt8]
  else
    [(0xF0 + code / 0x40000).toUInt8, (0x80 + code / 0x1000 % 0x40).toUInt8,
      (0x80 + code / 0x40 % 0x40).toUInt8, (0x80 + code % 0x40).toUInt8]

/-- The UTF-8 form of a text. -/
def encodeUtf8 (text : List Char) : List UInt8 :=
  text.flatMap encodeUtf8Char

/-! ## Windows-1251 -/

/-- The characters of the bytes 0x80 to 0xBF in Windows-1251. -/
def windows1251Upper : List Nat :=
  [0x402, 0x403, 0x201A, 0x453, 0x201E, 0x2026, 0x2020, 0x2021,
    0x20AC, 0x2030, 0x409, 0x2039, 0x40A, 0x40C, 0x40B, 0x40F,
    0x452, 0x2018, 0x2019, 0x201C, 0x201D, 0x2022, 0x2013, 0x2014,
    0x98, 0x2122, 0x459, 0x203A, 0x45A, 0x45C, 0x45B, 0x45F,
    0xA0, 0x40E, 0x45E, 0x408, 0xA4, 0x490, 0xA6, 0xA7,
    0x401, 0xA9, 0x404, 0xAB, 0xAC, 0xAD, 0xAE, 0x407,
    0xB0, 0xB1, 0x406, 0x456, 0x491, 0xB5, 0xB6, 0xB7,
    0x451, 0x2116, 0x454, 0xBB, 0x458, 0x405, 0x455, 0x457]

/-- The character of a byte in Windows-1251; the upper quarter holds the Russian
alphabet in order. -/
def windows1251Char (byte : UInt8) : Char :=
  let code := byte.toNat
  if code < 0x80 then Char.ofNat code
  else if code < 0xC0 then Char.ofNat (windows1251Upper.getD (code - 0x80) 0)
  else Char.ofNat (0x410 + (code - 0xC0))

/-! ## Source files -/

/-- The text without one leading byte order mark. -/
def dropByteOrderMark : List Char → List Char
  | [] => []
  | c :: rest => if c = byteOrderMark then rest else c :: rest

/-- The text of source bytes. Bytes that start with the mark of UTF-8 but are not
valid UTF-8 are still read as UTF-8, with replacements. -/
def decodeSource (bytes : List UInt8) : List Char :=
  dropByteOrderMark <|
    match bytes with
    | 0xFF :: 0xFE :: rest => decodeUtf16 .littleEndian none rest
    | 0xFE :: 0xFF :: rest => decodeUtf16 .bigEndian none rest
    | _ =>
        match utf8? bytes with
        | some text => text
        | none =>
            match bytes with
            | 0xEF :: 0xBB :: 0xBF :: rest => utf8Lossy rest
            | _ => bytes.map windows1251Char

end Lalr.Text
