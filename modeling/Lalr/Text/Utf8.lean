set_option autoImplicit false

/-!
Measuring and cutting text by the bytes of its UTF-8 form. A cut exists exactly
where a character ends; it never splits one.
-/

namespace Lalr.Text

/-- The number of bytes of a text in UTF-8. -/
def utf8Length : List Char → Nat
  | [] => 0
  | c :: rest => c.utf8Size + utf8Length rest

@[simp] theorem utf8Length_nil : utf8Length [] = 0 := rfl

@[simp] theorem utf8Length_cons (c : Char) (rest : List Char) :
    utf8Length (c :: rest) = c.utf8Size + utf8Length rest := rfl

@[simp] theorem utf8Length_append (left right : List Char) :
    utf8Length (left ++ right) = utf8Length left + utf8Length right := by
  induction left with
  | nil => simp
  | cons c left ih => simp [ih, Nat.add_assoc]

theorem length_le_utf8Length (text : List Char) : text.length ≤ utf8Length text := by
  induction text with
  | nil => simp
  | cons c rest ih =>
      have := c.utf8Size_pos
      simp only [List.length_cons, utf8Length_cons]
      omega

/-- Cuts a text after `count` bytes; there is no cut inside a character or past
the end. -/
def splitBytes? (count : Nat) : List Char → Option (List Char × List Char)
  | [] => if count = 0 then some ([], []) else none
  | c :: rest =>
      if count = 0 then some ([], c :: rest)
      else if c.utf8Size ≤ count then
        (splitBytes? (count - c.utf8Size) rest).map fun parts => (c :: parts.1, parts.2)
      else none

/-- The characters from byte `offset` on. -/
def dropBytes? (offset : Nat) (text : List Char) : Option (List Char) :=
  (splitBytes? offset text).map Prod.snd

/-- The characters of the bytes from `start` up to `finish`. -/
def sliceBytes? (start finish : Nat) (text : List Char) : Option (List Char) := do
  let rest ← dropBytes? start text
  if finish < start then none
  else (splitBytes? (finish - start) rest).map Prod.fst

/-- The parts of a cut make up the text, and the first has the asked length. -/
theorem splitBytes?_eq_some_iff {count : Nat} {text first rest : List Char} :
    splitBytes? count text = some (first, rest) ↔
      text = first ++ rest ∧ utf8Length first = count := by
  induction text generalizing count first with
  | nil =>
      cases first with
      | nil => simp [splitBytes?, eq_comm, and_comm]
      | cons d first => simp [splitBytes?]
  | cons c text ih =>
      have positive := c.utf8Size_pos
      cases first with
      | nil =>
          simp only [splitBytes?, List.nil_append, utf8Length_nil]
          split <;> rename_i zero
          · simp [zero]
          · split <;> simp <;> omega
      | cons d first =>
          simp only [splitBytes?, List.cons_append, List.cons.injEq, utf8Length_cons]
          split <;> rename_i zero
          · simp only [Option.some.injEq, Prod.mk.injEq, reduceCtorEq, false_and, false_iff]
            rintro ⟨⟨rfl, _⟩, length⟩
            omega
          · split <;> rename_i fits
            · simp only [Option.map_eq_some_iff, Prod.exists, Prod.mk.injEq, List.cons.injEq]
              constructor
              · rintro ⟨a, b, cut, ⟨rfl, rfl⟩, rfl⟩
                have := ih.mp cut
                exact ⟨⟨rfl, this.1⟩, by omega⟩
              · rintro ⟨⟨rfl, whole⟩, length⟩
                exact ⟨first, rest, ih.mpr ⟨whole, by omega⟩, ⟨rfl, rfl⟩, rfl⟩
            · simp only [reduceCtorEq, false_iff, not_and, and_imp]
              rintro rfl _
              omega

/-- A place in a text: its byte offset and the characters from there on. -/
structure Cursor where
  offset : Nat
  rest : List Char
deriving DecidableEq, Repr, Inhabited

namespace Cursor

/-- The start of a text. -/
def start (text : List Char) : Cursor :=
  ⟨0, text⟩

/-- The place `count` bytes further, if a character ends there. -/
def advance? (cursor : Cursor) (count : Nat) : Option Cursor :=
  (dropBytes? count cursor.rest).map fun rest => ⟨cursor.offset + count, rest⟩

/-- The place at byte `offset` of a text. -/
def at? (text : List Char) (offset : Nat) : Option Cursor :=
  (start text).advance? offset

/-- The place behind the longest run of characters with a property. -/
def skipWhile (cursor : Cursor) (p : Char → Bool) : Cursor :=
  ⟨cursor.offset + utf8Length (cursor.rest.takeWhile p), cursor.rest.dropWhile p⟩

end Cursor

end Lalr.Text
