import Lalr.Proofs.Parser.Composition
import Lalr.Proofs.Parser.Session
import Lalr.Proofs.Parser.Takeover
import Lalr.Proofs.Tree.Shift

set_option autoImplicit false

/-!
Trees that are renewed after every edit of their text. Each reusable node of such a tree is built
from its text and knows the character behind it; what the edits leave untouched is therefore built
in the new text too, and the next tree is the one that a parse without the old tree makes.
-/

namespace Lalr

open Lalr.Text

/-! ## What edits leave untouched -/

/-- A node knows the character behind it in any text that has the same characters up to there. -/
theorem Subtree.SeesBehind.moved {front front' shared rest rest' : List Char} {offset : Nat}
    {part : Subtree}
    (sees : SeesBehind (front ++ (shared ++ rest)) (utf8Length front + offset) part)
    (inside : ∀ head children lookahead, part = .node head children →
      head.lookahead = some lookahead → lookahead.raw ≠ endSymbol →
        offset + part.length < utf8Length shared) :
    SeesBehind (front' ++ (shared ++ rest')) (utf8Length front' + offset) part := by
  intro head children lookahead shape known other
  obtain ⟨passed, c, behind, text, length, seen⟩ := sees head children lookahead shape known other
  have within := inside head children lookahead shape known other
  obtain ⟨between, rfl, onward⟩ := exists_between text (by omega)
  rw [utf8Length_append] at length
  obtain ⟨later, rfl, same⟩ := exists_between onward.symm (by omega)
  cases later with
  | nil =>
      rw [List.append_nil] at within
      omega
  | cons d later =>
      obtain ⟨rfl, rfl⟩ := List.cons.inj same
      refine ⟨front' ++ between, c, later ++ rest', by simp, ?_, seen⟩
      rw [utf8Length_append]
      omega

section untouched

variable {language : Language} {here last : Juncture} {next : StateId} {subtree : Subtree}
  {piece : List Char} (knowsNoEnd : language.lexer.KnowsNoEnd)
  (progresses : language.lexer.Progresses)

theorem Language.Builds.utf8Length_piece (builds : language.Builds here [(next, subtree.bare)] last)
    (text : here.text = piece ++ last.text) : utf8Length piece = subtree.length := by
  rw [(builds.cutInto_leaves text).sum_eq, Subtree.length_eq_sum]

/-- A reusable subtree was completed before the token behind it. -/
theorem Language.Builds.exists_lookahead (builds : language.Builds here [(next, subtree.bare)] last)
    (reusable : subtree.isReusable = true) : ∃ head children lookahead following farther,
      subtree = .node head children ∧ head.lookahead = some lookahead ∧
        language.Reads last.mode last.text last.scanner following farther ∧
          lookahead.raw = following.raw := by
  cases subtree with
  | leaf => cases reusable
  | node head children =>
      rw [Subtree.bare] at builds
      obtain ⟨_, _, following, farther, _, _, _, _, _, reads, _, _, _, _, _, shape, _, rfl⟩ :=
        builds.exists_children
      have known := congrArg NodeHead.lookahead shape
      exact ⟨head, children, _, following, farther, rfl, known, reads, rfl⟩

include progresses

/-- The text behind a reusable subtree begins with what the subtree knows of it: with its first
character, unless the subtree was completed at the end of the text. -/
theorem Language.Builds.exists_seam (builds : language.Builds here [(next, subtree.bare)] last)
    (reusable : subtree.isReusable = true) (text : here.text = piece ++ last.text)
    {front : List Char} (sees : subtree.SeesBehind (front ++ here.text) (utf8Length front)) :
    ∃ seam rest, last.text = seam ++ rest ∧ utf8Length seam ≤ subtree.lookaheadBytes ∧
      ∀ following farther, language.Reads last.mode last.text last.scanner following farther →
        following.raw = endSymbol ∨ 0 < utf8Length seam := by
  have width := builds.utf8Length_piece text
  obtain ⟨head, children, lookahead, following, farther, rfl, known, reads, same⟩ :=
    builds.exists_lookahead reusable
  by_cases atEnd : lookahead.raw = endSymbol
  · refine ⟨[], last.text, rfl, Nat.zero_le _, fun other _ again => .inl ?_⟩
    obtain ⟨rfl, _⟩ := reads.unique progresses again
    exact same.symm.trans atEnd
  · obtain ⟨passed, c, rest, shape, length, seen⟩ := sees head children lookahead rfl known atEnd
    rw [text, ← List.append_assoc] at shape
    rw [← width, ← utf8Length_append] at length
    obtain ⟨_, behind⟩ := eq_of_utf8Length_eq shape length.symm
    have some_ : utf8Length [c] = c.utf8Size := rfl
    exact ⟨[c], rest, behind, some_ ▸ seen, fun _ _ _ => .inr (some_ ▸ c.utf8Size_pos)⟩

include knowsNoEnd

/-- The parts of a subtree that stands in another text know the characters behind them there. -/
theorem Language.Builds.located_moved (builds : language.Builds here [(next, subtree.bare)] last)
    (text : here.text = piece ++ last.text) {front front' seam rest rest' : List Char}
    (behind : last.text = seam ++ rest)
    (seamed : ∀ following farther,
      language.Reads last.mode last.text last.scanner following farther →
        following.raw = endSymbol ∨ 0 < utf8Length seam)
    (reusable : subtree.isReusable = true)
    (sees : subtree.Located (Subtree.SeesBehind (front ++ here.text)) (utf8Length front)) :
    subtree.Located (Subtree.SeesBehind (front' ++ (piece ++ (seam ++ rest')))) (utf8Length front') := by
  have width := builds.utf8Length_piece text
  obtain ⟨_, _, _, following, farther, _, _, reads, _⟩ := builds.exists_lookahead reusable
  refine Subtree.located_of_forall subtree fun part offset lies again => ?_
  have known := (sees.part lies).here again
  rw [text, behind, ← List.append_assoc piece] at known
  rw [← List.append_assoc piece]
  refine known.moved fun head children lookahead shape here' other => ?_
  subst shape
  have bound := lies.length_le
  have lies := lies.bare
  rw [Subtree.bare] at lies
  rw [utf8Length_append]
  rcases builds.ends knowsNoEnd progresses (List.nil_append _).symm lies here' with short | same
  · simp only [List.map_nil, Subtree.lengths, List.map_cons, Subtree.length_bare,
      Subtree.lengths_bares] at short
    rw [Subtree.length] at bound ⊢
    omega
  · have later := (seamed following farther reads).resolve_left
      fun atEnd => other ((same following farther reads).trans atEnd)
    omega

end untouched

/-! ## Trees -/

/-- What holds of the trees that are renewed: each reusable node is built from the text and knows
the character behind it. -/
structure Tree.Renewable (tree : Tree) (instance_ : LanguageInstance) (text : List Char) : Prop where
  kept : tree.Kept instance_ text
  built : tree.root.Located (instance_.language.BuildsAt text) 0
  sees : tree.root.Located (Subtree.SeesBehind text) 0

/-- What the edits leave untouched is built from the new text. -/
theorem Tree.Renewable.offered {tree : Tree} {instance_ : LanguageInstance}
    {former text : List Char} {edits : List TextEdit} (renewable : tree.Renewable instance_ former)
    (knowsNoEnd : instance_.language.lexer.KnowsNoEnd)
    (progresses : instance_.language.lexer.Progresses)
    (revises : TextEdit.Revises edits (encodeUtf8 former) (encodeUtf8 text)) :
    ∀ candidate ∈ ReuseIndex.ofTree tree.root edits,
      candidate.Offered instance_.language text := by
  intro candidate listed
  rw [ReuseIndex.ofTree_eq] at listed
  obtain ⟨place, lies, found⟩ := Subtree.exists_of_mem_candidates tree.root listed
  obtain ⟨_, reusable, range, mapped, offset⟩ := Subtree.asCandidate?_eq_some found
  rw [Nat.zero_add] at mapped
  have margin := (renewable.kept.reliable _ _ lies).margin
  have sees := renewable.sees.part lies
  obtain ⟨front, here, last, next, whole, start, builds⟩ :=
    (renewable.built.part lies).here reusable
  rw [Nat.zero_add] at start sees
  obtain ⟨piece, split, length⟩ := builds.utf8Length_eq
  have width := builds.utf8Length_piece split
  subst start
  rw [whole] at sees
  obtain ⟨seam, rest, behind, seen, seamed⟩ :=
    builds.exists_seam progresses reusable split (sees.here reusable)
  -- the subtree and the seam behind it lie in the range that the edits move
  have taken : piece ++ seam ≠ [] := by
    obtain ⟨c, tail, filled⟩ :=
      builds.exists_front knowsNoEnd progresses (List.cons_ne_nil _ _)
    obtain rfl := List.append_cancel_right (split.symm.trans filled)
    simp
  have reach : utf8Length front + candidate.subtree.length + candidate.subtree.lookaheadBytes =
      utf8Length front + utf8Length (piece ++ seam) +
        (candidate.subtree.lookaheadBytes - utf8Length seam) := by
    rw [utf8Length_append, width]
    omega
  rw [reach] at mapped
  have holds : HoldsAt former (utf8Length front) (piece ++ seam) :=
    ⟨front, rest, by rw [whole, split, behind]; simp, rfl⟩
  obtain ⟨front', rest', shape, begins⟩ :=
    revises.holdsAt renewable.kept.fits holds taken (by omega) mapped
  have small := revises.inMemory (by rw [length_encodeUtf8]; exact renewable.kept.fits)
  have blank := Subtree.padding_lt_of_isReusable reusable
  rw [length_encodeUtf8, shape, utf8Length_append, utf8Length_append] at small
  have total := utf8Length_append piece seam
  refine ⟨reusable, front', piece, seam ++ rest', here, last, next, ?_, ?_, split, builds, ?_, ?_⟩
  · rw [shape]
    simp
  · rw [offset, begins]
    exact toNat_add_of_lt (by omega)
  · intro following farther reads
    refine (seamed following farther reads).imp_right fun more => ?_
    cases seam with
    | nil => cases more
    | cons c seam => exact ⟨c, seam ++ rest, seam ++ rest', behind, rfl⟩
  · rw [shape, List.append_assoc, List.append_assoc]
    exact builds.located_moved knowsNoEnd progresses split behind seamed reusable sees

/-! ## Parses -/

/-- The trees that parses of a language return, each with the text it was parsed from: first a
parse without an old tree, then parses with the tree before and edits that lead from the bytes of
its text to those of the next one. Every parse has a configuration of its own. -/
inductive Parser.Renews (instance_ : LanguageInstance) : Tree → String → Prop where
  | first {config : ParseConfig} {text : String} {tree : Tree} {stats : ParseStats} :
      InMemory text.toList →
      (Parser.mk config (some instance_)).parse text none = .ok (tree, stats) →
      Renews instance_ tree text
  | next {config : ParseConfig} {former text : String} {old tree : Tree} {stats : ParseStats}
      {edits : List TextEdit} :
      Renews instance_ old former →
      TextEdit.Revises edits (encodeUtf8 former.toList) (encodeUtf8 text.toList) →
      (Parser.mk config (some instance_)).parse text (some (edits.foldl Tree.edit old)) =
        .ok (tree, stats) →
      Renews instance_ tree text

namespace Parser

variable {instance_ : LanguageInstance} {grammar : FlatGrammar} {config : ParseConfig}
  {old : Tree} {former text : String} {edits : List TextEdit}

/-- What a language guarantees of the parses that take subtrees over. -/
structure Composes (instance_ : LanguageInstance) (grammar : FlatGrammar) : Prop where
  represents : instance_.language.tables.Represents grammar
  filled : grammar.Filled
  knowsNoEnd : instance_.language.lexer.KnowsNoEnd
  progresses : instance_.language.lexer.Progresses
  fits : instance_.language.scanner.Fits
  inside : instance_.language.scanner.StaysInside
  carries : instance_.language.Carries

theorem reuseIndex_of_kept {text : List Char} (kept : old.Kept instance_ text) :
    reuseIndex instance_ (some (edits.foldl Tree.edit old)) = ReuseIndex.ofTree old.root edits := by
  simp [reuseIndex, Tree.foldl_edit, kept.language, kept.edits]

/-- A parse that is offered what is built from its text returns a renewable tree. -/
theorem Composes.renewable (composes : Composes instance_ grammar) {text : List Char}
    {reuse : ReuseIndex} {root : Subtree} {stats : ParseStats}
    (ran : runParse ⟨instance_.language, text, config, reuse⟩ = .ok (root, stats))
    (fits : InMemory text)
    (offered : ∀ candidate ∈ reuse, candidate.Offered instance_.language text)
    (reliable : ∀ candidate ∈ reuse,
      candidate.subtree.Everywhere (Subtree.Reliable instance_.language)) :
    Tree.Renewable ⟨root, instance_, []⟩ instance_ text := by
  obtain ⟨represents, filled, knowsNoEnd, progresses, _, inside, carries⟩ := composes
  obtain ⟨sound, covers⟩ := reliable_of_runParse represents knowsNoEnd inside fits
    ⟨fun _ listed => (offered _ listed).reusable, fun _ listed => (offered _ listed).standsIn,
      reliable⟩ ran
  obtain ⟨_, root', _, ran', alike, sees⟩ := (ParseState.mirrors_initial _).exists_run_anew
    represents knowsNoEnd progresses inside carries offered ran
  obtain ⟨last, reaches, stepped⟩ := ParseState.exists_last_of_runSteps .initial ran'
  have built := ParseState.Reaches.located represents knowsNoEnd progresses inside rfl filled reaches
    stepped
  refine ⟨⟨rfl, rfl, fits, covers, sound⟩, ?_, sees⟩
  rw [← Subtree.located_bare Language.buildsAt_bare] at built ⊢
  rw [alike]
  exact built

theorem Composes.reliable_of_kept {text : List Char} (kept : old.Kept instance_ text) :
    ∀ candidate ∈ ReuseIndex.ofTree old.root edits,
      candidate.subtree.Everywhere (Subtree.Reliable instance_.language) := by
  intro candidate listed
  rw [ReuseIndex.ofTree_eq] at listed
  obtain ⟨_, lies, _⟩ := Subtree.exists_of_mem_candidates old.root listed
  exact kept.reliable.part lies

/-- Every tree of a session is renewable. -/
theorem Renews.renewable (composes : Composes instance_ grammar) (renews : Renews instance_ old former) :
    old.Renewable instance_ former.toList := by
  induction renews with
  | first fits parsed =>
      obtain ⟨root, ran, rfl⟩ := exists_run_of_parse parsed
      exact composes.renewable ran fits (fun _ listed => absurd listed List.not_mem_nil)
        fun _ listed => absurd listed List.not_mem_nil
  | next _ revises parsed ih =>
      obtain ⟨root, ran, rfl⟩ := exists_run_of_parse parsed
      rw [reuseIndex_of_kept ih.kept] at ran
      have small := revises.inMemory (by rw [length_encodeUtf8]; exact ih.kept.fits)
      rw [length_encodeUtf8] at small
      exact composes.renewable ran small
        (ih.offered composes.knowsNoEnd composes.progresses revises)
        (Composes.reliable_of_kept ih.kept)

section parse

variable (composes : Composes instance_ grammar) (renews : Renews instance_ old former)
  (revises : TextEdit.Revises edits (encodeUtf8 former.toList) (encodeUtf8 text.toList))

include composes renews revises

theorem Renews.offered : ∀ candidate ∈ reuseIndex instance_ (some (edits.foldl Tree.edit old)),
    candidate.Offered instance_.language text.toList := by
  have renewable := renews.renewable composes
  rw [reuseIndex_of_kept renewable.kept]
  exact renewable.offered composes.knowsNoEnd composes.progresses revises

/-- Where a parse without the old tree returns a tree, so does one with it. -/
theorem Renews.exists_parse {tree : Tree} {stats : ParseStats}
    (parsed : (Parser.mk config (some instance_)).parse text none = .ok (tree, stats)) :
    ∃ tree' stats', (Parser.mk config (some instance_)).parse text
        (some (edits.foldl Tree.edit old)) = .ok (tree', stats') ∧
      tree'.language = tree.language ∧ tree'.root.bare = tree.root.bare := by
  obtain ⟨root, ran, rfl⟩ := parse_ok parsed
  obtain ⟨represents, _, knowsNoEnd, progresses, fits, inside, carries⟩ := id composes
  obtain ⟨root', stats', ran', same⟩ := (ParseState.mirrors_initial ⟨instance_.language,
    text.toList, config, reuseIndex instance_ (some (edits.foldl Tree.edit old))⟩).exists_run
      represents knowsNoEnd progresses inside carries fits
      (renews.offered composes revises) ran
  refine ⟨⟨root', instance_, []⟩, stats', ?_, rfl, same⟩
  simp only [Parser.parse, runParse, ran']

/-- Where a parse with the old tree returns a tree, one without it would come to the same one,
given enough steps. -/
theorem Renews.exists_fresh_run {tree : Tree} {stats : ParseStats}
    (parsed : (Parser.mk config (some instance_)).parse text
      (some (edits.foldl Tree.edit old)) = .ok (tree, stats)) :
    ∃ limit root stats', runSteps ⟨instance_.language, text.toList, config, []⟩ limit
        (.initial text.toList) = .ok (root, stats') ∧
      tree.language = instance_ ∧ tree.root.bare = root.bare := by
  obtain ⟨root, ran, rfl⟩ := exists_run_of_parse parsed
  obtain ⟨represents, _, knowsNoEnd, progresses, _, inside, carries⟩ := id composes
  obtain ⟨limit, root', stats', ran', same, _⟩ := (ParseState.mirrors_initial ⟨instance_.language,
    text.toList, config, reuseIndex instance_ (some (edits.foldl Tree.edit old))⟩).exists_run_anew
      represents knowsNoEnd progresses inside carries (renews.offered composes revises) ran
  exact ⟨limit, root', stats', ran', rfl, same⟩

end parse

end Parser

end Lalr
