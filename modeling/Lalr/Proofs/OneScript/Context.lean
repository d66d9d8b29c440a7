import Lalr.Proofs.OneScript.Spelling
import Lalr.Proofs.Text.Runs

set_option autoImplicit false

/-!
What follows a token. A token that ends before some place is found again when the text from that
place on is replaced by one that starts with a character of the same kind; only a comment or a
directive may then go on.
-/

namespace Lalr

open Lalr.Text

namespace OneScript

/-! ## Forms -/

/-- A text that starts with no sign, no digit and no quote. -/
def PlainStart (text : List Char) : Prop :=
  ∀ c, text.head? = some c → c ∉ signs ++ ['#', '"', '\'', '|'] ∧
    Property.asciiDigit.contains c = false

/-- A text may stand in the place of another one: no word goes on with it that did not go on
before. -/
structure Replaces (other behind : List Char) : Prop where
  plain : PlainStart behind
  plain' : PlainStart other
  start : other.head?.any wordStart.contains = true → behind.head?.any wordStart.contains = true
  part : other.head?.any wordPart.contains = true → behind.head?.any wordPart.contains = true
  goesOn : other.head?.any continuesWord = true → behind.head?.any continuesWord = true

/-- No comment or directive that reaches up to a text goes on in one in its place. -/
def KeepsLine (forms : List (TokenForm × SymbolId)) (front behind other : List Char) : Prop :=
  ∀ mark id, (.line mark, id) ∈ forms → mark <+: front ++ behind →
    front.takeWhile lineRest.contains = front →
      behind.head?.any lineRest.contains = false → other.head?.any lineRest.contains = false

theorem PlainStart.not_digit {text : List Char} (plain : PlainStart text) :
    text.head?.any Property.asciiDigit.contains = false := by
  cases text with
  | nil => rfl
  | cons c text => simpa using (plain c rfl).2

theorem number?_append {front behind : List Char} (plain : PlainStart behind) :
    TokenForm.number? (front ++ behind) = TokenForm.number? front := by
  have stops := plain.not_digit
  simp only [TokenForm.number?, takeWhile_append_of_stops stops,
    dropWhile_append_of_stops stops]
  cases rest : front.dropWhile Property.asciiDigit.contains with
  | nil =>
      cases behind with
      | nil => rfl
      | cons c behind =>
          have point : c ≠ '.' := by
            rintro rfl
            exact (plain '.' rfl).1 (by decide)
          simp [point]
  | cons c rest =>
      by_cases point : c = '.'
      · subst point
        simp only [List.cons_append, takeWhile_append_of_stops stops]
      · simp [point]

theorem prefix_of_content? {form : TokenForm} {text content : List Char}
    (found : form.content? text = some content) : content <+: text := by
  cases form with
  | literal sign =>
      simp only [TokenForm.content?, Option.ite_none_right_eq_some, Option.some.injEq] at found
      exact found.2 ▸ found.1
  | identifier =>
      simp only [TokenForm.content?, Option.ite_none_right_eq_some, Option.some.injEq] at found
      exact found.2 ▸ List.takeWhile_prefix _
  | line mark =>
      simp only [TokenForm.content?, Option.ite_none_right_eq_some, Option.some.injEq] at found
      exact found.2 ▸ List.takeWhile_prefix _
  | number =>
      simp only [TokenForm.content?, TokenForm.number?, Option.ite_none_left_eq_some] at found
      obtain ⟨_, found⟩ := found
      split at found
      case h_1 rest behind =>
          obtain rfl := Option.some.inj found
          split
          · exact List.takeWhile_prefix _
          · conv_rhs => rw [← List.takeWhile_append_dropWhile
              (p := Property.asciiDigit.contains) (l := text), behind]
            rw [List.prefix_append_right_inj, List.prefix_cons_inj]
            exact List.takeWhile_prefix _
      case h_2 =>
          obtain rfl := Option.some.inj found
          exact List.takeWhile_prefix _

/-- The forms that a language with the tokens of OneScript has. -/
def TokenForm.IsKnown : TokenForm → Prop
  | .literal sign => sign ≠ [] ∧ sign ⊆ signs
  | .line mark => mark = ['/', '/'] ∨ mark = ['#']
  | _ => True

theorem lineRest_of_mark {mark : List Char} (known : (TokenForm.line mark).IsKnown) :
    ∀ c ∈ mark, lineRest.contains c = true := by
  have slash : lineRest.contains '/' = true := rfl
  have hash : lineRest.contains '#' = true := rfl
  rcases known with rfl | rfl
  · simp [slash]
  · simp [hash]

section forms

variable {form : TokenForm} {front behind other : List Char}

/-- A sign is found in front of a text if and only if it is found in front of one in its place. -/
theorem prefix_replace {sign : List Char} (made : sign ⊆ signs ++ ['#', '"', '\'', '|'])
    (plain : PlainStart other) (inside : sign <+: front ++ behind → sign <+: front) :
    sign <+: front ++ other ↔ sign <+: front ++ behind := by
  constructor
  · intro found
    have short := prefix_of_prefix_append made (fun c first => (plain c first).1) found
    exact short.trans (List.prefix_append _ _)
  · intro found
    exact (inside found).trans (List.prefix_append _ _)

/-- A run that ends within the first part does so in front of a text in which it cannot go on. -/
theorem takeWhile_replace {p : Char → Bool}
    (inside : (front ++ behind).takeWhile p <+: front)
    (stops : front.takeWhile p = front → behind.head?.any p = false → other.head?.any p = false) :
    (front ++ other).takeWhile p = (front ++ behind).takeWhile p := by
  obtain ⟨same, stopped⟩ := takeWhile_of_inside inside
  rw [same]
  by_cases whole : front.takeWhile p = front
  · exact takeWhile_append_of_stops (stops whole (stopped whole))
  · exact takeWhile_append_of_open whole

/-- A token that ends in front of a text is found in front of a text in its place, unless it goes
on over the rest of a line. -/
theorem content?_replace (known : form.IsKnown) (replaces : Replaces other behind)
    (inside : ∀ content, form.content? (front ++ behind) = some content → content <+: front)
    (line : ∀ mark, form = .line mark → mark <+: front ++ behind →
      front.takeWhile lineRest.contains = front →
      behind.head?.any lineRest.contains = false → other.head?.any lineRest.contains = false) :
    form.content? (front ++ other) = form.content? (front ++ behind) := by
  cases form with
  | literal sign =>
      have made : sign ⊆ signs ++ ['#', '"', '\'', '|'] :=
        fun c member => List.mem_append_left _ (known.2 member)
      simp only [TokenForm.content?, Option.ite_none_right_eq_some, Option.some.injEq] at inside
      simp only [TokenForm.content?,
        prefix_replace made replaces.plain' fun found => inside sign ⟨found, rfl⟩]
  | identifier =>
      simp only [TokenForm.content?, Option.ite_none_right_eq_some, Option.some.injEq] at inside
      cases front with
      | nil =>
          have none_there : behind.head?.any wordStart.contains = false := by
            cases starts : behind.head?.any wordStart.contains with
            | false => rfl
            | true =>
                have empty := List.prefix_nil.mp (inside _ ⟨starts, rfl⟩)
                cases behind with
                | nil => cases starts
                | cons c behind =>
                    have part := wordPart_of_wordStart starts
                    simp [part] at empty
          have none_here : other.head?.any wordStart.contains = false := by
            cases starts : other.head?.any wordStart.contains with
            | false => rfl
            | true => exact none_there ▸ (replaces.start starts).symm
          simp [TokenForm.content?, none_there, none_here]
      | cons c front =>
          by_cases starts : wordStart.contains c = true
          · simp only [TokenForm.content?, List.cons_append, List.head?_cons, Option.any_some,
              starts, if_true]
            refine congrArg some (takeWhile_replace (inside _ ⟨starts, rfl⟩) fun _ stopped => ?_)
            cases part : other.head?.any wordPart.contains with
            | false => rfl
            | true => exact stopped ▸ (replaces.part part).symm
          · simp [TokenForm.content?, starts]
  | number => exact (number?_append replaces.plain').trans (number?_append replaces.plain).symm
  | line mark =>
      have made : mark ⊆ signs ++ ['#', '"', '\'', '|'] := by
        rcases known with rfl | rfl
        · decide
        · decide
      simp only [TokenForm.content?, Option.ite_none_right_eq_some, Option.some.injEq] at inside
      have marked : mark <+: front ++ behind → mark <+: front := by
        intro found
        have run := inside _ ⟨found, rfl⟩
        obtain ⟨rest, whole⟩ := found
        rw [← whole, List.takeWhile_append_of_pos (lineRest_of_mark known)] at run
        exact (List.prefix_append _ _).trans run
      simp only [TokenForm.content?, prefix_replace made replaces.plain' marked]
      split
      case isTrue found =>
          exact congrArg some (takeWhile_replace (inside _ ⟨found, rfl⟩) (line mark rfl found))
      case isFalse => rfl

end forms

/-! ## The longest token -/

theorem exists_of_foldl_longer {matches_ : List TokenMatch} {best : Option TokenMatch}
    {known : TokenMatch} (listed : known ∈ matches_ ∨ best = some known) :
    ∃ found, matches_.foldl TokenMatch.longer best = some found ∧ known.length ≤ found.length := by
  induction matches_ generalizing best known with
  | nil =>
      rcases listed with none_listed | rfl
      · cases none_listed
      · exact ⟨known, rfl, Nat.le_refl _⟩
  | cons first others ih =>
      have longer : ∃ next, TokenMatch.longer best first = some next ∧
          first.length ≤ next.length ∧ ∀ old, best = some old → old.length ≤ next.length := by
        cases best with
        | none => exact ⟨first, rfl, Nat.le_refl _, fun _ same => by cases same⟩
        | some old =>
            rw [TokenMatch.longer]
            by_cases more : old.length < first.length
            · exact ⟨first, if_pos more, Nat.le_refl _, fun _ same =>
                Option.some.inj same ▸ Nat.le_of_lt more⟩
            · exact ⟨old, if_neg more, Nat.le_of_not_lt more, fun _ same =>
                Option.some.inj same ▸ Nat.le_refl _⟩
      obtain ⟨next, chosen, first_le, old_le⟩ := longer
      obtain ⟨found, last, next_le⟩ := ih (.inr chosen)
      rcases listed with member | same
      · cases List.mem_cons.mp member with
        | inl same => exact ⟨found, last, Nat.le_trans (same ▸ first_le) next_le⟩
        | inr later => exact ih (.inl later)
      · exact ⟨found, last, Nat.le_trans (old_le known same) next_le⟩

section find

variable {forms : List (TokenForm × SymbolId)} {text other : List Char}

/-- No token at the start of a text is longer than the one that is found there. -/
theorem exists_longest {entry : TokenForm × SymbolId} (listed : entry ∈ forms)
    {content : List Char} (here : entry.1.content? text = some content) :
    ∃ found, findForm? forms text = some found ∧ utf8Length content ≤ found.length := by
  have member : (⟨entry.2, utf8Length content, text.drop content.length⟩ : TokenMatch) ∈
      forms.filterMap (formMatch? text) :=
    List.mem_filterMap.mpr ⟨entry, listed, by simp [formMatch?, here]⟩
  exact exists_of_foldl_longer (.inl member)

/-- Tokens found while looking through two texts. -/
def FoundIn (forms : List (TokenForm × SymbolId)) (text other : List Char)
    (change : List Char → List Char) : Option TokenMatch → Option TokenMatch → Prop
  | none, none => True
  | some found, some found' => ∃ entry ∈ forms, ∃ content, entry.1.content? text = some content ∧
      found = ⟨entry.2, utf8Length content, text.drop content.length⟩ ∧
      found' = ⟨entry.2, utf8Length (change content), other.drop (change content).length⟩
  | _, _ => False

theorem FoundIn.exists {change : List Char → List Char} {found : TokenMatch}
    {chosen : Option TokenMatch} (both : FoundIn forms text other change (some found) chosen) :
    ∃ entry ∈ forms, ∃ content, entry.1.content? text = some content ∧
      found = ⟨entry.2, utf8Length content, text.drop content.length⟩ ∧
      chosen = some ⟨entry.2, utf8Length (change content),
        other.drop (change content).length⟩ := by
  cases chosen with
  | none => exact both.elim
  | some found' =>
      obtain ⟨entry, listed, content, here, same, same'⟩ := both
      exact ⟨entry, listed, content, here, same, congrArg some same'⟩

theorem FoundIn.eq_none {change : List Char → List Char} {chosen : Option TokenMatch}
    (both : FoundIn forms text other change none chosen) : chosen = none := by
  cases chosen with
  | none => rfl
  | some => exact both.elim

/-- Where one text has the tokens of another one, with other contents but in the same order of
lengths, the same token is found in both. -/
theorem findForm?_change {change : List Char → List Char}
    (contents : ∀ entry ∈ forms,
      entry.1.content? other = (entry.1.content? text).map change)
    (grows : ∀ first ∈ forms, ∀ second ∈ forms, ∀ content content',
      first.1.content? text = some content → second.1.content? text = some content' →
        (utf8Length content < utf8Length content' ↔
          utf8Length (change content) < utf8Length (change content'))) :
    FoundIn forms text other change (findForm? forms text) (findForm? forms other) := by
  have step : ∀ part : List (TokenForm × SymbolId), part ⊆ forms → ∀ best best',
      FoundIn forms text other change best best' →
        FoundIn forms text other change
          ((part.filterMap (formMatch? text)).foldl TokenMatch.longer best)
          ((part.filterMap (formMatch? other)).foldl TokenMatch.longer best') := by
    intro part
    induction part with
    | nil => exact fun _ _ _ same => same
    | cons entry part ih =>
        intro listed best best' same
        have member := listed List.mem_cons_self
        have rest : part ⊆ forms := fun _ later => listed (List.mem_cons_of_mem _ later)
        have changed := contents entry member
        cases here : entry.1.content? text with
        | none =>
            rw [here] at changed
            have none_there : formMatch? text entry = none := by simp [formMatch?, here]
            have none_here : formMatch? other entry = none := by simp [formMatch?, changed]
            rw [List.filterMap_cons_none none_there, List.filterMap_cons_none none_here]
            exact ih rest best best' same
        | some content =>
            rw [here] at changed
            have there : formMatch? text entry =
                some ⟨entry.2, utf8Length content, text.drop content.length⟩ := by
              simp [formMatch?, here]
            have there' : formMatch? other entry = some ⟨entry.2, utf8Length (change content),
                other.drop (change content).length⟩ := by
              simp [formMatch?, changed]
            rw [List.filterMap_cons_some there, List.filterMap_cons_some there', List.foldl_cons,
              List.foldl_cons]
            refine ih rest _ _ ?_
            cases best with
            | none =>
                rw [same.eq_none]
                exact ⟨entry, member, content, here, rfl, rfl⟩
            | some found =>
                obtain ⟨known, knownListed, content', knownHere, rfl, rfl⟩ := same.exists
                have order := grows known knownListed entry member content' content knownHere here
                simp only [TokenMatch.longer]
                by_cases longer : utf8Length content' < utf8Length content
                · rw [if_pos longer, if_pos (order.mp longer)]
                  exact ⟨entry, member, content, here, rfl, rfl⟩
                · rw [if_neg longer, if_neg fun more => longer (order.mpr more)]
                  exact ⟨known, knownListed, content', knownHere, rfl, rfl⟩
  exact step forms (List.Subset.refl _) none none trivial

/-- What is found has a form. -/
theorem exists_form_of_found {found : TokenMatch} (chosen : findForm? forms text = some found) :
    ∃ entry ∈ forms, ∃ content, entry.1.content? text = some content ∧
      found = ⟨entry.2, utf8Length content, text.drop content.length⟩ := by
  rcases Lexer.mem_of_foldl_longer chosen with listed | none_before
  · obtain ⟨entry, member, same⟩ := List.mem_filterMap.mp listed
    obtain ⟨content, here, rfl⟩ := Option.map_eq_some_iff.mp same
    exact ⟨entry, member, content, here, rfl⟩
  · cases none_before

end find

theorem Spells.isKnown {lexer : Lexer} {forms : List (TokenForm × SymbolId)}
    (spells : Spells lexer forms) {entry : TokenForm × SymbolId} (listed : entry ∈ forms) :
    entry.1.IsKnown := by
  obtain ⟨form, id⟩ := entry
  cases form with
  | literal sign =>
      have written := spells.sign sign id listed
      have known : ∀ text ∈ signTexts, text.toList ≠ [] ∧ text.toList ⊆ signs := by decide
      have here := known _ written
      rwa [String.toList_ofList] at here
  | line mark => exact spells.mark mark id listed
  | identifier => trivial
  | number => trivial

/-- Tokens of OneScript are not empty. -/
theorem Spells.progresses {lexer : Lexer} {forms : List (TokenForm × SymbolId)}
    (spells : Spells lexer forms) : lexer.Progresses := by
  intro text found _ matched
  rw [spells.matchToken?] at matched
  obtain ⟨entry, listed, content, here, rfl⟩ := exists_form_of_found matched
  have isKnown := spells.isKnown listed
  have filled : content ≠ [] := by
    obtain ⟨form, id⟩ := entry
    cases form with
    | literal sign =>
        simp only [TokenForm.content?, Option.ite_none_right_eq_some, Option.some.injEq] at here
        exact here.2 ▸ isKnown.1
    | identifier => exact content_ne_nil (.inl rfl) here
    | number => exact content_ne_nil (.inr (.inl rfl)) here
    | line mark =>
        rcases isKnown with rfl | rfl
        · exact content_ne_nil (.inr (.inr (.inl rfl))) here
        · exact content_ne_nil (.inr (.inr (.inr rfl))) here
  exact (List.length_pos_of_ne_nil filled).trans_le (length_le_utf8Length content)

section replace

variable {lexer : Lexer} {forms : List (TokenForm × SymbolId)} {front behind other content rest :
  List Char} {symbol : SymbolId}

/-- A token that ends in front of a text is the longest one in front of every text in its place,
unless a comment or a directive goes on. -/
theorem Spells.matchToken?_replace (spells : Spells lexer forms) (replaces : Replaces other behind)
    (found : lexer.matchToken? (front ++ behind) = some ⟨symbol, utf8Length content, rest⟩)
    (inside : content <+: front)
    (line : KeepsLine forms front behind other) :
    ∃ rest', front ++ other = content ++ rest' ∧
      lexer.matchToken? (front ++ other) = some ⟨symbol, utf8Length content, rest'⟩ := by
  rw [spells.matchToken?] at found ⊢
  have contents : ∀ entry ∈ forms, entry.1.content? (front ++ other) =
      (entry.1.content? (front ++ behind)).map id := by
    intro entry listed
    rw [Option.map_id]
    refine content?_replace (spells.isKnown listed) replaces (fun text here => ?_)
      fun mark isLine => line mark entry.2 (isLine ▸ listed)
    obtain ⟨longest, chosen, le⟩ := exists_longest listed here
    obtain rfl := Option.some.inj (found.symm.trans chosen)
    exact (prefix_of_utf8Length_le (prefix_of_content? here)
      (inside.trans (List.prefix_append _ _)) le).trans inside
  have both := findForm?_change contents fun _ _ _ _ _ _ _ _ => Iff.rfl
  rw [found] at both
  obtain ⟨entry, listed, text, here, same, chosen⟩ := both.exists
  obtain ⟨rfl, length, _⟩ := TokenMatch.mk.inj same
  have whole : content <+: front ++ behind := inside.trans (List.prefix_append _ _)
  obtain rfl : content = text := eq_of_prefix_of_utf8Length_le
    (prefix_of_utf8Length_le whole (prefix_of_content? here) (Nat.le_of_eq length))
    (Nat.le_of_eq length.symm)
  refine ⟨(front ++ other).drop content.length, ?_, chosen⟩
  exact (List.prefix_iff_eq_append.mp (inside.trans (List.prefix_append _ _))).symm

/-- Where no token is found in front of a text, none is found in front of one in its place. -/
theorem Spells.matchToken?_replace_none (spells : Spells lexer forms)
    (replaces : Replaces other behind) (nothing : lexer.matchToken? (front ++ behind) = none) :
    lexer.matchToken? (front ++ other) = none := by
  rw [spells.matchToken?] at nothing ⊢
  have empty : ∀ entry ∈ forms, entry.1.content? (front ++ behind) = none := by
    intro entry listed
    cases here : entry.1.content? (front ++ behind) with
    | none => rfl
    | some content =>
        obtain ⟨_, chosen, _⟩ := exists_longest listed here
        rw [nothing] at chosen
        cases chosen
  have contents : ∀ entry ∈ forms, entry.1.content? (front ++ other) =
      (entry.1.content? (front ++ behind)).map id := by
    intro entry listed
    rw [Option.map_id]
    refine content?_replace (spells.isKnown listed) replaces (fun text here => ?_) ?_
    · rw [empty entry listed] at here
      cases here
    · intro mark isLine found
      have here := empty entry listed
      rw [isLine, TokenForm.content?, if_pos found] at here
      cases here
  have both := findForm?_change contents fun _ _ _ _ _ _ _ _ => Iff.rfl
  rw [nothing] at both
  exact both.eq_none

end replace

end OneScript

end Lalr
