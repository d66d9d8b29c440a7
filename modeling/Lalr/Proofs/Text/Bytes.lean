import Lalr.Text.Encoding
import Lalr.Text.Utf8

set_option autoImplicit false

/-!
Texts and their bytes. No character's UTF-8 form starts another one's, so texts whose first bytes
are the same share every character that lies within these bytes.

What was encoded is read back, in UTF-8 and in UTF-16, and the byte order mark in front of it is
dropped. In UTF-16 the mark only selects the order of the bytes, so a further one at the start of
the text itself is dropped as well.
-/

namespace Lalr.Text

/-! ## Characters -/

theorem encodeUtf8Char_cases (c : Char) :
    (c.toNat < 0x80 ∧ c.utf8Size = 1 ∧ encodeUtf8Char c = [c.toNat.toUInt8]) ∨
    (0x80 ≤ c.toNat ∧ c.toNat < 0x800 ∧ c.utf8Size = 2 ∧
      encodeUtf8Char c = [(0xC0 + c.toNat / 0x40).toUInt8, (0x80 + c.toNat % 0x40).toUInt8]) ∨
    (0x800 ≤ c.toNat ∧ c.toNat < 0x10000 ∧ c.utf8Size = 3 ∧
      encodeUtf8Char c = [(0xE0 + c.toNat / 0x1000).toUInt8,
        (0x80 + c.toNat / 0x40 % 0x40).toUInt8, (0x80 + c.toNat % 0x40).toUInt8]) ∨
    (0x10000 ≤ c.toNat ∧ c.toNat < 0x110000 ∧ c.utf8Size = 4 ∧
      encodeUtf8Char c = [(0xF0 + c.toNat / 0x40000).toUInt8,
        (0x80 + c.toNat / 0x1000 % 0x40).toUInt8, (0x80 + c.toNat / 0x40 % 0x40).toUInt8,
        (0x80 + c.toNat % 0x40).toUInt8]) := by
  have size : c.utf8Size = if c.toNat ≤ 0x7F then 1 else if c.toNat ≤ 0x7FF then 2
      else if c.toNat ≤ 0xFFFF then 3 else 4 := by
    simp only [Char.utf8Size, UInt32.le_iff_toNat_le]
    rfl
  have last : c.toNat < 0x110000 := by
    rcases c.valid with low | ⟨_, high⟩
    · exact Nat.lt_trans low (by decide)
    · exact high
  by_cases one : c.toNat < 0x80
  · refine .inl ⟨one, ?_, if_pos one⟩
    rw [size, if_pos (by omega)]
  · rw [if_neg (by omega)] at size
    by_cases two : c.toNat < 0x800
    · refine .inr (.inl ⟨by omega, two, ?_, ?_⟩)
      · rw [size, if_pos (by omega)]
      · exact (if_neg one).trans (if_pos two)
    · rw [if_neg (by omega)] at size
      by_cases three : c.toNat < 0x10000
      · refine .inr (.inr (.inl ⟨by omega, three, ?_, ?_⟩))
        · rw [size, if_pos (by omega)]
        · exact (if_neg one).trans ((if_neg two).trans (if_pos three))
      · refine .inr (.inr (.inr ⟨by omega, last, ?_, ?_⟩))
        · rw [size, if_neg (by omega)]
        · exact (if_neg one).trans ((if_neg two).trans (if_neg three))

theorem length_encodeUtf8Char (c : Char) : (encodeUtf8Char c).length = c.utf8Size := by
  rcases encodeUtf8Char_cases c with ⟨_, size, form⟩ | ⟨_, _, size, form⟩ | ⟨_, _, size, form⟩ |
    ⟨_, _, size, form⟩
  all_goals rw [size, form]; rfl

/-- The form of a character does not start that of another one. -/
theorem encodeUtf8Char_append_inj {c d : Char} {rest rest' : List UInt8}
    (same : encodeUtf8Char c ++ rest = encodeUtf8Char d ++ rest') : c = d ∧ rest = rest' := by
  have codes : c.toNat = d.toNat ∧ rest = rest' := by
    rcases encodeUtf8Char_cases c with ⟨upper, _, form⟩ | ⟨lower, upper, _, form⟩ |
        ⟨lower, upper, _, form⟩ | ⟨lower, upper, _, form⟩ <;>
      rcases encodeUtf8Char_cases d with ⟨upper', _, form'⟩ | ⟨lower', upper', _, form'⟩ |
        ⟨lower', upper', _, form'⟩ | ⟨lower', upper', _, form'⟩ <;>
      simp only [form, form', List.cons_append, List.nil_append, List.cons.injEq,
        ← UInt8.toNat_inj, UInt8.toNat_ofNat', Nat.toUInt8] at same
    -- characters of different lengths differ in their first bytes
    all_goals try (exfalso; omega)
    · exact ⟨by omega, same.2⟩
    · exact ⟨by omega, same.2.2⟩
    · exact ⟨by omega, same.2.2.2⟩
    · exact ⟨by omega, same.2.2.2.2⟩
  exact ⟨Char.toNat_inj.mp codes.1, codes.2⟩

/-- The first byte tells a character of one byte from all others. -/
theorem eq_of_head_encodeUtf8Char {c d : Char} (single : c.utf8Size = 1)
    (same : (encodeUtf8Char d).head? = (encodeUtf8Char c).head?) : d = c := by
  have codes : d.toNat = c.toNat := by
    rcases encodeUtf8Char_cases c with ⟨upper, _, form⟩ | ⟨_, _, size, _⟩ | ⟨_, _, size, _⟩ |
      ⟨_, _, size, _⟩
    · rcases encodeUtf8Char_cases d with ⟨upper', _, form'⟩ | ⟨lower', upper', _, form'⟩ |
          ⟨lower', upper', _, form'⟩ | ⟨lower', upper', _, form'⟩ <;>
        simp only [form, form', List.head?_cons, Option.some.injEq, ← UInt8.toNat_inj,
          UInt8.toNat_ofNat', Nat.toUInt8] at same <;>
        omega
    all_goals omega
  exact Char.toNat_inj.mp codes

/-! ## Texts -/

@[simp] theorem encodeUtf8_nil : encodeUtf8 [] = [] := rfl

@[simp] theorem encodeUtf8_cons (c : Char) (text : List Char) :
    encodeUtf8 (c :: text) = encodeUtf8Char c ++ encodeUtf8 text := rfl

theorem head?_encodeUtf8_cons (c : Char) (text : List Char) :
    (encodeUtf8 (c :: text)).head? = (encodeUtf8Char c).head? := by
  rw [encodeUtf8_cons]
  rcases encodeUtf8Char_cases c with ⟨_, _, form⟩ | ⟨_, _, _, form⟩ | ⟨_, _, _, form⟩ |
    ⟨_, _, _, form⟩
  all_goals rw [form]; rfl

@[simp] theorem encodeUtf8_append (first rest : List Char) :
    encodeUtf8 (first ++ rest) = encodeUtf8 first ++ encodeUtf8 rest := by
  simp [encodeUtf8]

@[simp] theorem length_encodeUtf8 (text : List Char) :
    (encodeUtf8 text).length = utf8Length text := by
  induction text with
  | nil => rfl
  | cons c text ih => rw [encodeUtf8_cons, List.length_append, length_encodeUtf8Char, ih,
      utf8Length_cons]

/-- A text whose bytes start with those of another one starts with it. -/
theorem prefix_of_encodeUtf8_prefix {first text : List Char}
    (starts : encodeUtf8 first <+: encodeUtf8 text) : first <+: text := by
  induction first generalizing text with
  | nil => exact List.nil_prefix
  | cons c first ih =>
      obtain ⟨rest, same⟩ := starts
      cases text with
      | nil =>
          have lengths := congrArg List.length same
          have := c.utf8Size_pos
          rw [List.length_append, length_encodeUtf8, utf8Length_cons] at lengths
          simp only [encodeUtf8_nil, List.length_nil] at lengths
          omega
      | cons d text =>
          rw [encodeUtf8_cons, encodeUtf8_cons, List.append_assoc] at same
          obtain ⟨rfl, behind⟩ := encodeUtf8Char_append_inj same
          exact List.cons_prefix_cons.mpr ⟨rfl, ih ⟨rest, behind⟩⟩

/-- The first byte of a character is told apart from all that follow it. -/
theorem exists_encodeUtf8Char_cons (c : Char) : ∃ first rest, encodeUtf8Char c = first :: rest ∧
    (first.toNat < 0x80 ∨ 0xC0 ≤ first.toNat) ∧
      ∀ byte ∈ rest, 0x80 ≤ byte.toNat ∧ byte.toNat < 0xC0 := by
  rcases encodeUtf8Char_cases c with ⟨upper, _, form⟩ | ⟨lower, upper, _, form⟩ |
    ⟨lower, upper, _, form⟩ | ⟨lower, upper, _, form⟩
  all_goals
    refine ⟨_, _, form, ?_, ?_⟩
    · simp only [UInt8.toNat_ofNat', Nat.toUInt8]
      omega
    · simp only [List.mem_cons, List.not_mem_nil, or_false, false_implies, implies_true,
        forall_eq_or_imp, forall_eq, UInt8.toNat_ofNat', Nat.toUInt8]
      try omega

/-- Where the bytes of a character begin within those of a text, the text can be cut. -/
theorem exists_front_of_encodeUtf8 {c : Char} {text : List Char} {before behind : List UInt8}
    (same : encodeUtf8 text = before ++ (encodeUtf8Char c ++ behind)) :
    ∃ front rest, text = front ++ rest ∧ encodeUtf8 front = before := by
  obtain ⟨first, later, shape, isFirst, _⟩ := exists_encodeUtf8Char_cons c
  induction text generalizing before with
  | nil => simp [shape] at same
  | cons d text ih =>
      by_cases cut : before = []
      · exact ⟨[], d :: text, rfl, cut.symm⟩
      obtain ⟨opening, tail, shape', _, areLater⟩ := exists_encodeUtf8Char_cons d
      rw [encodeUtf8_cons] at same
      rcases List.append_eq_append_iff.mp same with
        ⟨between, rfl, onward⟩ | ⟨between, whole, onward⟩
      · obtain ⟨front, rest, rfl, rfl⟩ := ih onward
        exact ⟨d :: front, rest, rfl, encodeUtf8_cons d front⟩
      · cases between with
        | nil =>
            exact ⟨[d], text, rfl, by simpa using whole⟩
        | cons byte between =>
            -- the byte would be the first one of a character and a later one of another
            obtain ⟨known, before, rfl⟩ := List.exists_cons_of_ne_nil cut
            rw [shape, List.cons_append, List.cons_append] at onward
            rw [shape', List.cons_append] at whole
            have listed := areLater byte ((List.cons.inj whole).2 ▸ by simp)
            rw [← (List.cons.inj onward).1] at listed
            omega

/-- Where the bytes of a text stand among those of another one, it stands there itself. -/
theorem exists_split_of_encodeUtf8 {text piece : List Char} {before behind : List UInt8}
    (more : piece ≠ []) (same : encodeUtf8 text = before ++ encodeUtf8 piece ++ behind) :
    ∃ front rest, text = front ++ piece ++ rest ∧ utf8Length front = before.length := by
  obtain ⟨c, piece, rfl⟩ := List.exists_cons_of_ne_nil more
  obtain ⟨front, rest, rfl, rfl⟩ := exists_front_of_encodeUtf8
    (show encodeUtf8 text = before ++ (encodeUtf8Char c ++ (encodeUtf8 piece ++ behind)) by
      rw [same, encodeUtf8_cons, List.append_assoc, List.append_assoc])
  rw [encodeUtf8_append, List.append_assoc] at same
  obtain ⟨behind', rfl⟩ := prefix_of_encodeUtf8_prefix
    ⟨behind, (List.append_cancel_left same).symm⟩
  exact ⟨front, behind', (List.append_assoc ..).symm, (length_encodeUtf8 front).symm⟩

/-! ## Texts with the same first bytes -/

/-- Two texts have the same first bytes, and both have more than these. -/
structure AgreeOn (count : Nat) (text other : List Char) : Prop where
  bytes : (encodeUtf8 text).take count = (encodeUtf8 other).take count
  more : count < utf8Length text
  more' : count < utf8Length other

namespace AgreeOn

variable {count : Nat} {text other : List Char}

theorem mono {less : Nat} (agree : AgreeOn count text other) (le : less ≤ count) :
    AgreeOn less text other := by
  refine ⟨?_, Nat.lt_of_le_of_lt le agree.more, Nat.lt_of_le_of_lt le agree.more'⟩
  have bytes := congrArg (List.take less) agree.bytes
  rwa [List.take_take, List.take_take, Nat.min_eq_left le] at bytes

/-- Texts share the characters that lie within the bytes on which they agree. -/
theorem split {front behind : List Char}
    (agree : AgreeOn (utf8Length front + count) (front ++ behind) other) :
    ∃ behind', other = front ++ behind' ∧ AgreeOn count behind behind' := by
  obtain ⟨bytes, more, more'⟩ := agree
  have starts : encodeUtf8 front <+: encodeUtf8 other := by
    have front_taken : (encodeUtf8 other).take (utf8Length front) = encodeUtf8 front := by
      have first := congrArg (List.take (utf8Length front)) bytes
      rw [List.take_take, List.take_take, Nat.min_eq_left (Nat.le_add_right _ _)] at first
      rw [← first, encodeUtf8_append, ← length_encodeUtf8, List.take_left]
    exact front_taken ▸ List.take_prefix _ _
  obtain ⟨behind', rfl⟩ := prefix_of_encodeUtf8_prefix starts
  refine ⟨behind', rfl, ?_, ?_, ?_⟩
  · rw [encodeUtf8_append, encodeUtf8_append, ← length_encodeUtf8 front, List.take_length_add_append,
      List.take_length_add_append] at bytes
    exact List.append_cancel_left bytes
  · rw [utf8Length_append] at more
    omega
  · rw [utf8Length_append] at more'
    omega

theorem cons {c : Char} (agree : AgreeOn (c.utf8Size + count) (c :: text) other) :
    ∃ rest, other = c :: rest ∧ AgreeOn count text rest := by
  have whole : AgreeOn (utf8Length [c] + count) ([c] ++ text) other := by simpa using agree
  exact whole.split

theorem symm (agree : AgreeOn count text other) : AgreeOn count other text :=
  ⟨agree.bytes.symm, agree.more', agree.more⟩

/-- The first byte tells whether a text starts with a given character of one byte. -/
theorem head_iff {d : Char} (agree : AgreeOn (count + 1) text other) (single : d.utf8Size = 1) :
    text.head? = some d ↔ other.head? = some d := by
  have heads {text other : List Char} (agree : AgreeOn (count + 1) text other)
      (first : text.head? = some d) : other.head? = some d := by
    cases text with
    | nil => cases first
    | cons c text =>
        obtain rfl : c = d := Option.some.inj first
        cases other with
        | nil => exact absurd agree.more' (Nat.not_lt_zero _)
        | cons e other =>
            have bytes := congrArg List.head? agree.bytes
            simp only [List.head?_take, if_neg (Nat.succ_ne_zero count),
              head?_encodeUtf8_cons] at bytes
            exact congrArg some (eq_of_head_encodeUtf8Char single bytes.symm)
  exact ⟨heads agree, heads agree.symm⟩

end AgreeOn

/-! ## UTF-16 -/

/-- A code unit is read back from its two bytes. -/
theorem ByteOrder.exists_bytes (order : ByteOrder) {unit : Nat} (fits : unit < 0x10000) :
    ∃ first second, order.bytes unit = [first, second] ∧ order.unit first second = unit := by
  cases order with
  | littleEndian =>
      refine ⟨_, _, rfl, ?_⟩
      simp only [ByteOrder.unit, Nat.toUInt8, UInt8.toNat_ofNat']
      omega
  | bigEndian =>
      refine ⟨_, _, rfl, ?_⟩
      simp only [ByteOrder.unit, Nat.toUInt8, UInt8.toNat_ofNat']
      omega

section

variable (order : ByteOrder) (lead : Option Nat) {unit : Nat} (rest : List UInt8)

/-- A unit that is no surrogate stands for itself. -/
theorem decodeUtf16_single (fits : unit < 0x10000) (notLead : isLeadSurrogate unit = false)
    (notTrail : isTrailSurrogate unit = false) :
    decodeUtf16 order none (order.bytes unit ++ rest) =
      Char.ofNat unit :: decodeUtf16 order none rest := by
  obtain ⟨first, second, bytes, back⟩ := order.exists_bytes fits
  rw [bytes, List.cons_append, List.cons_append, List.nil_append, decodeUtf16]
  simp only [back, notLead, notTrail, Bool.false_eq_true, if_false]

/-- A lead surrogate waits for its partner. -/
theorem decodeUtf16_lead (fits : unit < 0x10000) (isLead : isLeadSurrogate unit = true) :
    decodeUtf16 order none (order.bytes unit ++ rest) = decodeUtf16 order (some unit) rest := by
  obtain ⟨first, second, bytes, back⟩ := order.exists_bytes fits
  rw [bytes, List.cons_append, List.cons_append, List.nil_append, decodeUtf16]
  simp only [back, isLead, if_true]

theorem decodeUtf16_trail (high : Nat) (fits : unit < 0x10000)
    (isTrail : isTrailSurrogate unit = true) :
    decodeUtf16 order (some high) (order.bytes unit ++ rest) =
      Char.ofNat (0x10000 + (high - 0xD800) * 0x400 + (unit - 0xDC00)) ::
        decodeUtf16 order none rest := by
  obtain ⟨first, second, bytes, back⟩ := order.exists_bytes fits
  rw [bytes, List.cons_append, List.cons_append, List.nil_append, decodeUtf16]
  simp only [back, isTrail, if_true]

end

/-- A text is read back from its UTF-16 form. -/
theorem decodeUtf16_encodeUtf16 (order : ByteOrder) (text : List Char) :
    decodeUtf16 order none (encodeUtf16 order text) = text := by
  induction text with
  | nil => rfl
  | cons c text ih =>
      have back : Char.ofNat c.toNat = c := Char.ofNat_toNat c
      have valid : c.toNat < 0xD800 ∨ 0xDFFF < c.toNat ∧ c.toNat < 0x110000 := c.valid
      rw [encodeUtf16]
      split
      case isTrue single =>
          rw [decodeUtf16_single order _ single (by simp [isLeadSurrogate]; omega)
            (by simp [isTrailSurrogate]; omega), back, ih]
      case isFalse pair =>
          have whole : 0x10000 + (0xD800 + (c.toNat - 0x10000) / 0x400 - 0xD800) * 0x400 +
              (0xDC00 + (c.toNat - 0x10000) % 0x400 - 0xDC00) = c.toNat := by omega
          rw [List.append_assoc, decodeUtf16_lead order _ (by omega)
            (by simp [isLeadSurrogate]; omega), decodeUtf16_trail order _ _ (by omega)
            (by simp [isTrailSurrogate]; omega), whole, back, ih]

/-! ## UTF-8 -/

section

variable {bits left low high : Nat} (rest : List UInt8)

/-- A byte that is a whole character stands for itself. -/
theorem decodeUtf8_single {byte : UInt8} (single : byte.toNat < 0x80) :
    decodeUtf8 none (byte :: rest) = some (Char.ofNat byte.toNat) :: decodeUtf8 none rest := by
  simp only [decodeUtf8, Utf8Lead.ofByte?, if_pos single]

/-- A lead byte waits for the bytes that follow it. -/
theorem decodeUtf8_lead {byte : UInt8}
    (lead : Utf8Lead.ofByte? byte.toNat = some ⟨bits, left + 1, low, high⟩) :
    decodeUtf8 none (byte :: rest) = decodeUtf8 (some ⟨bits, left, low, high⟩) rest := by
  simp only [decodeUtf8, lead]

theorem decodeUtf8_next {byte : UInt8} (inside : low ≤ byte.toNat ∧ byte.toNat ≤ high) :
    decodeUtf8 (some ⟨bits, left + 1, low, high⟩) (byte :: rest) =
      decodeUtf8 (some ⟨bits * 0x40 + (byte.toNat - 0x80), left, 0x80, 0xBF⟩) rest := by
  rw [decodeUtf8]
  simp only [if_pos inside]

theorem decodeUtf8_last {byte : UInt8} (inside : low ≤ byte.toNat ∧ byte.toNat ≤ high) :
    decodeUtf8 (some ⟨bits, 0, low, high⟩) (byte :: rest) =
      some (Char.ofNat (bits * 0x40 + (byte.toNat - 0x80))) :: decodeUtf8 none rest := by
  rw [decodeUtf8]
  simp only [if_pos inside]

end

/-- The bounds behind the lead byte of a character of three bytes leave out the overlong forms and
the surrogates, none of which is a character. -/
theorem Utf8Lead.ofByte?_three {code : Nat} (lower : 0x800 ≤ code) (upper : code < 0x10000)
    (valid : code < 0xD800 ∨ 0xDFFF < code) :
    ∃ low high, Utf8Lead.ofByte? (0xE0 + code / 0x1000) = some ⟨code / 0x1000, 2, low, high⟩ ∧
      low ≤ 0x80 + code / 0x40 % 0x40 ∧ 0x80 + code / 0x40 % 0x40 ≤ high := by
  unfold Utf8Lead.ofByte?
  rw [if_neg (by omega), if_neg (by omega), if_neg (by omega)]
  by_cases first : 0xE0 + code / 0x1000 = 0xE0
  · exact ⟨0xA0, 0xBF, by rw [if_pos first, show code / 0x1000 = 0 by omega], by omega, by omega⟩
  by_cases surrogates : 0xE0 + code / 0x1000 = 0xED
  · exact ⟨0x80, 0x9F, by rw [if_neg first, if_pos surrogates,
      show code / 0x1000 = 0xD by omega], by omega, by omega⟩
  · exact ⟨0x80, 0xBF, by rw [if_neg first, if_neg surrogates, if_pos (by omega),
      Nat.add_sub_cancel_left], by omega, by omega⟩

/-- The bounds behind the lead byte of a character of four bytes leave out the overlong forms and
what lies past the last character. -/
theorem Utf8Lead.ofByte?_four {code : Nat} (lower : 0x10000 ≤ code) (upper : code < 0x110000) :
    ∃ low high, Utf8Lead.ofByte? (0xF0 + code / 0x40000) = some ⟨code / 0x40000, 3, low, high⟩ ∧
      low ≤ 0x80 + code / 0x1000 % 0x40 ∧ 0x80 + code / 0x1000 % 0x40 ≤ high := by
  unfold Utf8Lead.ofByte?
  rw [if_neg (by omega), if_neg (by omega), if_neg (by omega), if_neg (by omega),
    if_neg (by omega), if_neg (by omega)]
  by_cases first : 0xF0 + code / 0x40000 = 0xF0
  · exact ⟨0x90, 0xBF, by rw [if_pos first, show code / 0x40000 = 0 by omega], by omega, by omega⟩
  by_cases middle : 0xF0 + code / 0x40000 < 0xF4
  · exact ⟨0x80, 0xBF, by rw [if_neg first, if_pos middle, Nat.add_sub_cancel_left], by omega,
      by omega⟩
  · exact ⟨0x80, 0x8F, by rw [if_neg first, if_neg middle, if_pos (by omega),
      show code / 0x40000 = 4 by omega], by omega, by omega⟩

/-- A character is read back from its UTF-8 form. -/
theorem decodeUtf8_encodeUtf8Char (c : Char) (rest : List UInt8) :
    decodeUtf8 none (encodeUtf8Char c ++ rest) = some c :: decodeUtf8 none rest := by
  have back : Char.ofNat c.toNat = c := Char.ofNat_toNat c
  have byte (value : Nat) (fits : value < 0x100) : value.toUInt8.toNat = value := by
    simp only [Nat.toUInt8, UInt8.toNat_ofNat']
    omega
  rcases encodeUtf8Char_cases c with ⟨upper, _, form⟩ | ⟨lower, upper, _, form⟩ |
    ⟨lower, upper, _, form⟩ | ⟨lower, upper, _, form⟩ <;>
    rw [form] <;> simp only [List.cons_append, List.nil_append]
  case inl =>
      have whole := byte c.toNat (by omega)
      rw [decodeUtf8_single rest (whole.symm ▸ upper), whole, back]
  case inr.inl =>
      have first := byte (0xC0 + c.toNat / 0x40) (by omega)
      have last := byte (0x80 + c.toNat % 0x40) (by omega)
      have lead : Utf8Lead.ofByte? (0xC0 + c.toNat / 0x40) =
          some ⟨c.toNat / 0x40, 1, 0x80, 0xBF⟩ := by
        unfold Utf8Lead.ofByte?
        rw [if_neg (by omega), if_neg (by omega), if_pos (by omega), Nat.add_sub_cancel_left]
      have whole : c.toNat / 0x40 * 0x40 + (0x80 + c.toNat % 0x40 - 0x80) = c.toNat := by omega
      rw [decodeUtf8_lead _ (first.symm ▸ lead), decodeUtf8_last rest (by omega), last, whole, back]
  case inr.inr.inl =>
      have first := byte (0xE0 + c.toNat / 0x1000) (by omega)
      have second := byte (0x80 + c.toNat / 0x40 % 0x40) (by omega)
      have last := byte (0x80 + c.toNat % 0x40) (by omega)
      obtain ⟨low, high, lead, above, below⟩ := Utf8Lead.ofByte?_three lower upper
        (c.valid.imp_right And.left)
      have whole : (c.toNat / 0x1000 * 0x40 + (0x80 + c.toNat / 0x40 % 0x40 - 0x80)) * 0x40 +
          (0x80 + c.toNat % 0x40 - 0x80) = c.toNat := by omega
      rw [decodeUtf8_lead _ (first.symm ▸ lead), decodeUtf8_next _ (by omega), second,
        decodeUtf8_last rest (by omega), last, whole, back]
  case inr.inr.inr =>
      have first := byte (0xF0 + c.toNat / 0x40000) (by omega)
      have second := byte (0x80 + c.toNat / 0x1000 % 0x40) (by omega)
      have third := byte (0x80 + c.toNat / 0x40 % 0x40) (by omega)
      have last := byte (0x80 + c.toNat % 0x40) (by omega)
      obtain ⟨low, high, lead, above, below⟩ := Utf8Lead.ofByte?_four lower upper
      have whole : ((c.toNat / 0x40000 * 0x40 + (0x80 + c.toNat / 0x1000 % 0x40 - 0x80)) * 0x40 +
          (0x80 + c.toNat / 0x40 % 0x40 - 0x80)) * 0x40 + (0x80 + c.toNat % 0x40 - 0x80) =
            c.toNat := by omega
      rw [decodeUtf8_lead _ (first.symm ▸ lead), decodeUtf8_next _ (by omega), second,
        decodeUtf8_next _ (by omega), third, decodeUtf8_last rest (by omega), last, whole, back]

theorem decodeUtf8_encodeUtf8 (text : List Char) :
    decodeUtf8 none (encodeUtf8 text) = text.map some := by
  induction text with
  | nil => rfl
  | cons c text ih => rw [encodeUtf8_cons, decodeUtf8_encodeUtf8Char, ih, List.map_cons]

/-- A text is read back from its UTF-8 form. -/
theorem utf8?_encodeUtf8 (text : List Char) : utf8? (encodeUtf8 text) = some text := by
  rw [utf8?, decodeUtf8_encodeUtf8, List.mapM_map]
  induction text with
  | nil => rfl
  | cons c text ih => rw [List.mapM_cons, ih]; rfl

/-! ## Marked texts -/

/-- No text starts with a byte that starts no character. -/
theorem utf8?_eq_none_of_head {byte : UInt8} (rest : List UInt8)
    (noLead : Utf8Lead.ofByte? byte.toNat = none) : utf8? (byte :: rest) = none := by
  simp [utf8?, decodeUtf8, noLead]

/-- UTF-8 is never taken for UTF-16. -/
theorem decodeSource_encodeUtf8 (text : List Char) :
    decodeSource (encodeUtf8 text) = dropByteOrderMark text := by
  have read := utf8?_encodeUtf8 text
  unfold decodeSource
  split
  case h_1 same => rw [same, utf8?_eq_none_of_head _ (by decide)] at read; cases read
  case h_2 same => rw [same, utf8?_eq_none_of_head _ (by decide)] at read; cases read
  case h_3 => rw [read]

theorem encodeUtf8Char_byteOrderMark : encodeUtf8Char byteOrderMark = [0xEF, 0xBB, 0xBF] := rfl

@[simp] theorem dropByteOrderMark_marked (text : List Char) :
    dropByteOrderMark (byteOrderMark :: text) = text := by
  simp [dropByteOrderMark]

theorem dropByteOrderMark_eq_self_iff {text : List Char} :
    dropByteOrderMark text = text ↔ text.head? ≠ some byteOrderMark := by
  cases text with
  | nil => simp [dropByteOrderMark]
  | cons c text =>
      by_cases marked : c = byteOrderMark
      · simp [dropByteOrderMark, marked]
      · simp [dropByteOrderMark, marked]

/-- In UTF-8 exactly the mark in front is dropped. In UTF-16 that mark only tells the order of the
bytes, and one more is dropped from a text that starts with it; every other text is read back. -/
theorem decodeSource_behind_mark (text : List Char) :
    decodeSource (0xEF :: 0xBB :: 0xBF :: encodeUtf8 text) = text ∧
    decodeSource (0xFF :: 0xFE :: encodeUtf16 .littleEndian text) = dropByteOrderMark text ∧
    decodeSource (0xFE :: 0xFF :: encodeUtf16 .bigEndian text) = dropByteOrderMark text ∧
    (dropByteOrderMark text = text ↔ text.head? ≠ some byteOrderMark) := by
  have marked : 0xEF :: 0xBB :: 0xBF :: encodeUtf8 text = encodeUtf8 (byteOrderMark :: text) := by
    rw [encodeUtf8_cons, encodeUtf8Char_byteOrderMark]
    rfl
  refine ⟨?utf8, ?little, ?big, dropByteOrderMark_eq_self_iff⟩
  case utf8 =>
      rw [marked, decodeSource_encodeUtf8, dropByteOrderMark_marked]
  case little => rw [decodeSource, decodeUtf16_encodeUtf16]
  case big => rw [decodeSource, decodeUtf16_encodeUtf16]

/-- The mark of UTF-16 and a further one are both dropped, the second mark of UTF-8 stays. -/
example :
    decodeSource [0xFF, 0xFE, 0xFF, 0xFE, 0x41, 0x00] = ['A'] ∧
    decodeSource [0xEF, 0xBB, 0xBF, 0xEF, 0xBB, 0xBF, 0x41] = [byteOrderMark, 'A'] := by
  decide

end Lalr.Text
