import Mathlib.Algebra.Group.Nat.Defs
import Lalr.Tables.Codec

set_option autoImplicit false

/-!
Laws of the storage forms. Every form gives back what it wrote, whatever follows, and reads
nothing but what it writes; so no written value is the start of another one.
-/

namespace Lalr

namespace Codec

variable {α β : Type}

namespace Lawful

variable {codec : Codec α} {storable : α → Prop}

theorem storable_of_read (lawful : codec.Lawful storable) {bytes rest : List UInt8} {value : α}
    (read : codec.read bytes = some (value, rest)) : storable value :=
  (lawful.eq_write bytes value rest read).1

/-- What was read is what is written, up to the rest. -/
theorem write_prefix (lawful : codec.Lawful storable) {bytes rest : List UInt8} {value : α}
    (read : codec.read bytes = some (value, rest)) : codec.write value <+: bytes :=
  ⟨rest, (lawful.eq_write bytes value rest read).2.symm⟩

/-- A written value that is cut short cannot be read. -/
theorem read_of_proper_prefix (lawful : codec.Lawful storable) {bytes missing : List UInt8}
    {value : α} (fits : storable value) (whole : codec.write value = bytes ++ missing)
    (cut : missing ≠ []) : codec.read bytes = none := by
  cases read : codec.read bytes with
  | none => rfl
  | some found =>
      obtain ⟨other, rest⟩ := found
      obtain ⟨otherFits, same⟩ := lawful.eq_write bytes other rest read
      -- the whole is read as the value with nothing behind it, and as the other one with a rest
      have once := lawful.read_write value [] fits
      have again := lawful.read_write other (rest ++ missing) otherFits
      rw [List.append_nil, whole, same, List.append_assoc, again] at once
      have empty := (Prod.mk.inj (Option.some.inj once)).2
      exact absurd (List.append_eq_nil_iff.mp empty).2 cut

theorem congr (lawful : codec.Lawful storable) {other : α → Prop}
    (same : ∀ value, storable value ↔ other value) : codec.Lawful other where
  read_write value rest fits := lawful.read_write value rest ((same value).mpr fits)
  eq_write bytes value rest read :=
    (lawful.eq_write bytes value rest read).imp_left (same value).mp

theorem via (lawful : codec.Lawful storable) {store : β → α} {load : α → β}
    (load_store : ∀ value, load (store value) = value)
    (store_load : ∀ value, storable value → store (load value) = value) :
    (codec.via store load).Lawful fun value => storable (store value) where
  read_write value rest fits := by
    simp only [Codec.via, lawful.read_write _ _ fits, Option.map_some, load_store]
  eq_write bytes value rest read := by
    obtain ⟨⟨stored, behind⟩, found, same⟩ := Option.map_eq_some_iff.mp read
    obtain ⟨rfl, rfl⟩ := Prod.mk.inj same
    obtain ⟨fits, shape⟩ := lawful.eq_write bytes stored behind found
    simp only [Codec.via, store_load stored fits]
    exact ⟨fits, shape⟩

theorem pair {second : Codec β} {otherStorable : β → Prop} (lawful : codec.Lawful storable)
    (others : second.Lawful otherStorable) :
    (codec.pair second).Lawful fun value => storable value.1 ∧ otherStorable value.2 where
  read_write value rest fits := by
    simp only [Codec.pair, List.append_assoc, lawful.read_write _ _ fits.1,
      Option.bind_eq_bind, Option.bind_some, others.read_write _ _ fits.2]
    rfl
  eq_write bytes value rest read := by
    simp only [Codec.pair, Option.bind_eq_bind, Option.bind_eq_some_iff, Prod.exists,
      Option.pure_def, Option.some.injEq, Prod.mk.injEq] at read
    obtain ⟨a, middle, first, b, last, next, rfl, rfl⟩ := read
    obtain ⟨fits, rfl⟩ := lawful.eq_write bytes a middle first
    obtain ⟨otherFits, rfl⟩ := others.eq_write middle b last next
    exact ⟨⟨fits, otherFits⟩, by simp only [Codec.pair, List.append_assoc]⟩

theorem option (lawful : codec.Lawful storable) :
    codec.option.Lawful fun value => ∀ item ∈ value, storable item where
  read_write value rest fits := by
    cases value with
    | none => rfl
    | some item =>
        change (codec.read (codec.write item ++ rest)).map _ = _
        rw [lawful.read_write item rest (fits item rfl), Option.map_some]
  eq_write bytes value rest read := by
    simp only [Codec.option] at read
    split at read
    case h_1 =>
        cases read
        exact ⟨nofun, rfl⟩
    case h_2 behind =>
        obtain ⟨⟨item, last⟩, found, same⟩ := Option.map_eq_some_iff.mp read
        obtain ⟨rfl, rfl⟩ := Prod.mk.inj same
        obtain ⟨fits, rfl⟩ := lawful.eq_write behind item last found
        exact ⟨fun other known => Option.some.inj known ▸ fits, rfl⟩
    case h_3 => cases read

/-! ## Lists -/

theorem readMany_write (lawful : codec.Lawful storable) {values : List α}
    (fits : ∀ value ∈ values, storable value) (before : List α) (rest : List UInt8) :
    codec.readMany before values.length (values.flatMap codec.write ++ rest) =
      some (before.reverse ++ values, rest) := by
  induction values generalizing before with
  | nil => simp [readMany]
  | cons value values ih =>
      have here := fits value List.mem_cons_self
      have later := ih fun other member => fits other (List.mem_cons_of_mem _ member)
      simp only [List.length_cons, readMany, List.flatMap_cons, List.append_assoc,
        lawful.read_write value _ here, later, List.reverse_cons, List.cons_append,
        List.nil_append]

theorem eq_write_of_readMany (lawful : codec.Lawful storable) {count : Nat} {before values : List α}
    {bytes rest : List UInt8} (read : codec.readMany before count bytes = some (values, rest)) :
    ∃ items, values = before.reverse ++ items ∧ items.length = count ∧
      (∀ item ∈ items, storable item) ∧ bytes = items.flatMap codec.write ++ rest := by
  induction count generalizing before bytes with
  | zero =>
      obtain ⟨rfl, rfl⟩ := Prod.mk.inj (Option.some.inj read)
      exact ⟨[], by simp, rfl, by simp, rfl⟩
  | succ count ih =>
      rw [readMany] at read
      split at read
      case h_1 => cases read
      case h_2 item behind found =>
          obtain ⟨fits, rfl⟩ := lawful.eq_write bytes item behind found
          obtain ⟨items, rfl, rfl, others, rfl⟩ := ih read
          refine ⟨item :: items, by simp, rfl, ?_, by simp⟩
          exact List.forall_mem_cons.mpr ⟨fits, others⟩

end Lawful

/-! ## Numbers -/

theorem readNumber_lowBytes {width number : Nat} (bound : number < 256 ^ width)
    (rest : List UInt8) : readNumber width (lowBytes width number ++ rest) = some (number, rest) := by
  induction width generalizing number with
  | zero =>
      obtain rfl : number = 0 := by simpa using bound
      rfl
  | succ width ih =>
      have high : number / 256 < 256 ^ width := by
        rw [Nat.pow_succ'] at bound
        exact Nat.div_lt_of_lt_mul bound
      have low : (number % 256).toUInt8.toNat = number % 256 :=
        UInt8.toNat_ofNat_of_lt' (Nat.mod_lt _ (by decide))
      simp only [lowBytes, List.cons_append, readNumber, ih high, Option.bind_eq_bind,
        Option.bind_some, Option.pure_def, low, Nat.mod_add_div]

theorem eq_lowBytes_of_readNumber {width number : Nat} {bytes rest : List UInt8}
    (read : readNumber width bytes = some (number, rest)) :
    number < 256 ^ width ∧ bytes = lowBytes width number ++ rest := by
  induction width generalizing number bytes with
  | zero =>
      obtain ⟨rfl, rfl⟩ := Prod.mk.inj (Option.some.inj read)
      exact ⟨by simp, rfl⟩
  | succ width ih =>
      cases bytes with
      | nil => cases read
      | cons byte bytes =>
          simp only [readNumber, Option.bind_eq_bind, Option.bind_eq_some_iff, Prod.exists,
            Option.pure_def, Option.some.injEq, Prod.mk.injEq] at read
          obtain ⟨high, behind, found, rfl, rfl⟩ := read
          obtain ⟨bound, rfl⟩ := ih found
          have small : byte.toNat < 256 := byte.toNat_lt
          have low : (byte.toNat + 256 * high) % 256 = byte.toNat := by omega
          have rest_ : (byte.toNat + 256 * high) / 256 = high := by omega
          refine ⟨by rw [Nat.pow_succ']; omega, ?_⟩
          simp only [lowBytes, low, rest_, List.cons_append, Nat.toUInt8, UInt8.ofNat_toNat]

theorem lawful_number (width : Nat) : (number width).Lawful (· < 256 ^ width) where
  read_write _ rest bound := readNumber_lowBytes bound rest
  eq_write _ _ _ read := eq_lowBytes_of_readNumber read

/-- What has a length of 64 bits in storage. -/
abbrev Measurable (length : Nat) : Prop :=
  length < UInt64.size

theorem lawful_length : (number 8).Lawful Measurable :=
  (lawful_number 8).congr fun _ => Iff.rfl

theorem lawful_word16 : word16.Lawful fun _ => True :=
  ((lawful_number 2).via (fun _ => UInt16.ofNat_toNat)
    fun _ bound => UInt16.toNat_ofNat_of_lt' bound).congr fun value => iff_true_intro value.toNat_lt

theorem lawful_word32 : word32.Lawful fun _ => True :=
  ((lawful_number 4).via (fun _ => UInt32.ofNat_toNat)
    fun _ bound => UInt32.toNat_ofNat_of_lt' bound).congr fun value => iff_true_intro value.toNat_lt

theorem lawful_word64 : word64.Lawful fun _ => True :=
  ((lawful_number 8).via (fun _ => UInt64.ofNat_toNat)
    fun _ bound => UInt64.toNat_ofNat_of_lt' bound).congr fun value => iff_true_intro value.toNat_lt

theorem lawful_signed32 : signed32.Lawful fun _ => True :=
  lawful_word32.via Int32.toInt32_toUInt32 fun _ _ => UInt32.toUInt32_toInt32 _

theorem lawful_bool : bool.Lawful fun _ => True where
  read_write value rest _ := by cases value <;> rfl
  eq_write bytes value rest read := by
    refine ⟨trivial, ?_⟩
    simp only [bool] at read
    split at read
    case h_1 =>
        cases read
        rfl
    case h_2 =>
        cases read
        rfl
    case h_3 => cases read

/-! ## Lists and texts -/

theorem Lawful.list {codec : Codec α} {storable : α → Prop} (lawful : codec.Lawful storable) :
    codec.list.Lawful fun values =>
      Measurable values.length ∧ ∀ value ∈ values, storable value where
  read_write values rest fits := by
    simp only [Codec.list, List.append_assoc, lawful_length.read_write _ _ fits.1,
      Option.bind_eq_bind, Option.bind_some, lawful.readMany_write fits.2, List.reverse_nil,
      List.nil_append]
  eq_write bytes values rest read := by
    simp only [Codec.list, Option.bind_eq_bind, Option.bind_eq_some_iff, Prod.exists] at read
    obtain ⟨count, behind, counted, items⟩ := read
    obtain ⟨bound, rfl⟩ := lawful_length.eq_write bytes count behind counted
    obtain ⟨_, rfl, rfl, fits, rfl⟩ := lawful.eq_write_of_readMany items
    exact ⟨⟨bound, fits⟩, by simp only [Codec.list, List.append_assoc]⟩

theorem Lawful.array {codec : Codec α} {storable : α → Prop} (lawful : codec.Lawful storable) :
    codec.array.Lawful fun values =>
      Measurable values.size ∧ ∀ value ∈ values, storable value :=
  (lawful.list.via (fun _ => rfl) fun _ _ => rfl).congr fun values => by
    rw [Array.length_toList]
    exact and_congr_right fun _ => forall_congr' fun value => by rw [Array.mem_toList_iff]

theorem takeBytes_append (content before rest : List UInt8) :
    takeBytes before content.length (content ++ rest) = some (before.reverse ++ content, rest) := by
  induction content generalizing before with
  | nil => simp [takeBytes]
  | cons byte content ih => simp [takeBytes, ih]

theorem eq_append_of_takeBytes {count : Nat} {before taken bytes rest : List UInt8}
    (cut : takeBytes before count bytes = some (taken, rest)) :
    ∃ content, taken = before.reverse ++ content ∧ content.length = count ∧
      bytes = content ++ rest := by
  induction count generalizing before bytes with
  | zero =>
      rw [takeBytes] at cut
      obtain ⟨rfl, rfl⟩ := Prod.mk.inj (Option.some.inj cut)
      exact ⟨[], by simp, rfl, rfl⟩
  | succ count ih =>
      cases bytes with
      | nil => cases cut
      | cons byte bytes =>
          obtain ⟨content, rfl, rfl, rfl⟩ := ih cut
          exact ⟨byte :: content, by simp, rfl, rfl⟩

theorem lawful_text : text.Lawful fun value => Measurable value.utf8ByteSize where
  read_write value rest bound := by
    have valid : (⟨value.toUTF8.data.toList.toArray⟩ : ByteArray).IsValidUTF8 := value.isValidUTF8
    have taken : takeBytes [] value.utf8ByteSize (value.toUTF8.data.toList ++ rest) =
        some (value.toUTF8.data.toList, rest) := takeBytes_append _ [] rest
    simp only [text, List.append_assoc, lawful_length.read_write _ _ bound, Option.bind_eq_bind,
      Option.bind_some, taken, String.fromUTF8?, dif_pos valid]
    rfl
  eq_write bytes value rest read := by
    simp only [text, Option.bind_eq_bind, Option.bind_eq_some_iff, Prod.exists, Option.pure_def,
      Option.some.injEq, Prod.mk.injEq, String.fromUTF8?, Option.dite_none_right_eq_some] at read
    obtain ⟨count, behind, counted, _, last, cut, _, ⟨valid, rfl⟩, rfl, rfl⟩ := read
    obtain ⟨bound, rfl⟩ := lawful_length.eq_write bytes count behind counted
    obtain ⟨content, rfl, rfl, rfl⟩ := eq_append_of_takeBytes cut
    exact ⟨bound, by simp only [text, List.append_assoc]; rfl⟩

end Codec

end Lalr
