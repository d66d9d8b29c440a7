import Lalr.Proofs.Parser.Parts
import Lalr.Proofs.Parser.Result
import Lalr.Proofs.Parser.Reuse

set_option autoImplicit false

/-!
Parses one after the other, each with the tree of the one before it and the edits made since. The
leaves of a tree cut the text it was parsed from, nothing in it looked far ahead, and what may be
taken over in it is a derivation, also where parts of it were taken over themselves. Where the edits
describe what became of the text, no parse of a session cuts its text outside of it; where they do
not, the only cuts to fear are those behind subtrees of the old tree.
-/

namespace Lalr

open Lalr.Text

/-! ## What a tree has to offer -/

namespace Subtree

variable {language : Language} {children : List Subtree}

/-- The leaves of a tree cut the start of a text, behind which nothing but blank space and the
end of the input was found. -/
def Covers (root : Subtree) (text : List Char) : Prop :=
  ∃ piece rest, text = piece ++ rest ∧ CutInto piece (widths root.leaves)

/-- What a later parse relies on in a subtree. -/
structure Reliable (language : Language) (subtree : Subtree) : Prop where
  margin : subtree.lookaheadBytes ≤ 2 ^ 63
  derivation : subtree.isReusable = true →
    subtree.IsDerivation language ∧ subtree.FollowsProductions language

theorem lenient_reliable : Lenient (Reliable language) where
  ofError children := by
    refine ⟨Nat.zero_le _, fun reusable => ?_⟩
    have noExtra := isExtra_of_isReusable reusable
    cases noExtra
  root symbol production children := by
    refine ⟨Nat.zero_le _, fun reusable => ?_⟩
    simp [root, isReusable, isReusableWith] at reusable

end Subtree

/-- Tokens in their places look no further ahead than the text goes. -/
theorem Lexeme.InPlace.yields {language : Language} {lexeme : Lexeme} {place length : Nat}
    (inPlace : lexeme.InPlace place length) (small : length ≤ 2 ^ 63) (symbol : SymbolId) :
    lexeme.Yields (Subtree.Reliable language) symbol := by
  intro top leaf member
  refine ⟨?_, nofun⟩
  rcases List.mem_append.mp member with extra | own
  · rw [Subtree.lookaheadBytes, inPlace.extras leaf extra]
    exact Nat.zero_le _
  · obtain rfl := List.mem_singleton.mp own
    exact (Nat.sub_le _ _).trans (inPlace.examined.trans small)

theorem InOrder.exists_inPlace {length place : Nat} {lexemes : List Lexeme}
    (inOrder : InOrder length place lexemes) :
    ∀ lexeme ∈ lexemes, ∃ start, lexeme.InPlace start length := by
  induction lexemes generalizing place with
  | nil => exact fun lexeme member => absurd member List.not_mem_nil
  | cons first lexemes ih =>
      intro lexeme member
      rcases List.mem_cons.mp member with rfl | later
      · exact ⟨place, inOrder.1⟩
      · exact ih inOrder.2 lexeme later

theorem foldl_max_le {α : Type} {measure : α → Nat} {bound : Nat} {items : List α} {first : Nat}
    (start : first ≤ bound) (all : ∀ item ∈ items, measure item ≤ bound) :
    items.foldl (fun last item => max last (measure item)) first ≤ bound := by
  induction items generalizing first with
  | nil => exact start
  | cons item items ih =>
      exact ih (Nat.max_le.mpr ⟨start, all item List.mem_cons_self⟩)
        fun other member => all other (List.mem_cons_of_mem _ member)

namespace ParseState

open Subtree StackEntry

variable {language : Language} {grammar : FlatGrammar} {input : ParseInput} {state : ParseState}
  {token : Lexeme}

/-- The node of a production ends where its children end, so it looks ahead no further than
they or the token behind them do. -/
theorem Holds.reduce_reliable (reliable : state.Holds (Reliable language))
    (contiguous : Contiguous state.stack) (id : ProductionId) (production : ProductionInfo)
    (examined : token.examinedEnd ≤ 2 ^ 63)
    (sound : StackSound language grammar (state.reduce input id production token).stack) :
    (state.reduce input id production token).Holds (Reliable language) := by
  obtain ⟨trailing, taken, below, next, head, shape, reduced, noExtra, margin⟩ :=
    reduce_spec input state id production token
  rw [shape] at contiguous
  have inner := contiguous.suffix
  rw [@Contiguous.stackEnd_eq { state with stack := below } inner.suffix, inner.start_eq,
    totalLength_reverse] at margin
  refine reliable.reduce shape reduced ⟨?_, fun _ => ?_⟩
  · dsimp only [lookaheadBytes]
    rw [margin]
    refine Nat.sub_le_of_le_add (foldl_max_le (examined.trans (Nat.le_add_right _ _)) ?_)
    intro entry listed
    have member := List.mem_append_left below (List.mem_reverse.mp listed)
    have finish := inner.finish_le member
    have small := (reliable entry (shape ▸ List.mem_append_right _ member)).here.margin
    rw [totalLength_append] at finish
    omega
  · rw [reduced] at sound
    exact derivation_of_pushAll sound noExtra

/-! ## Steps -/

/-- What holds of the state of a parse to which only such subtrees are on offer as can be
relied on. -/
structure Steady (grammar : FlatGrammar) (input : ParseInput) (state : ParseState) : Prop where
  sound : state.Sound input.language grammar
  placed : state.Placed input
  reliable : state.Holds (Reliable input.language)

end ParseState

/-- The subtrees on offer stand in the text and can be relied on. -/
structure ParseInput.OffersReliable (input : ParseInput) : Prop where
  reusable : ∀ candidate ∈ input.reuse, candidate.subtree.isReusable = true
  stand : ∀ candidate ∈ input.reuse, candidate.StandsIn input.text
  reliable : ∀ candidate ∈ input.reuse,
    candidate.subtree.Everywhere (Subtree.Reliable input.language)

theorem ParseInput.OffersReliable.derive {input : ParseInput} (offers : input.OffersReliable) :
    input.reuse.Derive input.language := by
  intro candidate listed
  have reusable := offers.reusable candidate listed
  exact ⟨Subtree.isExtra_of_isReusable reusable,
    (offers.reliable candidate listed).here.derivation reusable⟩

namespace ParseState

open Subtree StackEntry

variable {grammar : FlatGrammar} {input : ParseInput} {state : ParseState} {token : Lexeme}

theorem Placed.yields
    (placed : ({ state with lookahead := some token } : ParseState).Placed input)
    (small : InMemory input.text) :
    ∀ lexeme ∈ token :: state.pending, ∀ symbol,
      lexeme.Yields (Reliable input.language) symbol := by
  intro lexeme member symbol
  obtain ⟨start, inPlace⟩ := placed.inOrder.exists_inPlace lexeme member
  exact inPlace.yields small.le symbol

theorem Placed.covers {root : Subtree}
    (placed : ({ state with lookahead := some token } : ParseState).Placed input)
    (leaves : root.leaves = stackLeaves state.stack ++ token.extras) :
    root.Covers input.text := by
  obtain ⟨front, rest, shape, _, cut⟩ := placed.exists_front
  exact ⟨front, rest, shape, leaves ▸ cut⟩

namespace Steady

variable (represents : input.language.tables.Represents grammar)
  (knowsNoEnd : input.language.lexer.KnowsNoEnd)
  (inside : input.language.scanner.StaysInside) (small : InMemory input.text)

include represents knowsNoEnd inside small

theorem step (offers : input.OffersReliable) (steady : Steady grammar input state)
    {after : ParseState} (stepped : state.step input = .ok (.next after)) :
    Steady grammar input after := by
  have sound := steady.sound.step_of_derive represents rfl offers.derive stepped
  refine ⟨sound, steady.placed.step knowsNoEnd inside offers.stand stepped, ?_⟩
  obtain ⟨token, middle, taken, outcome⟩ := effect_or_takesOver_of_step stepped
  obtain ⟨stack, _⟩ := current_ok taken
  have reliable := steady.reliable.of_stack stack
  have held := steady.placed.current knowsNoEnd inside taken (some (state.symbolOf input token))
  have yields := held.yields small _ List.mem_cons_self
  rcases outcome with effect | ⟨_, _, _, takes, same⟩
  case inr =>
      obtain rfl := ParseStep.next.inj same
      cases takes with
      | behind tries =>
          exact (reliable.push_token middle.topState _ (yields 0).extras
            (offers.reliable _ tries.listed)).of_stack rfl
  refine reliable.effect (admits_of_lenient lenient_reliable) (yields 0).extras
    (fun _ _ => yields _) (fun _ => yields _) ?_ ?_ effect
  · intro read later ahead lexeme member
    exact (held.searched knowsNoEnd inside ahead).yields small lexeme
      (List.mem_cons_of_mem _ (List.mem_of_mem_dropLast member)) _
  · intro id production action found
    have middleSound := (steady.sound.current taken).2.1
    have top : middle.topState = state.topState := by simp only [topState, stack]
    rw [← top] at action
    exact reliable.reduce_reliable held.stack id production (held.atHand.examined.trans small.le)
      (middleSound.reduce represents _ rfl action found).stack

/-- The tree at the end of a parse covers the text, and a later parse can rely on it. -/
theorem done (steady : Steady grammar input state) {root : Subtree} {stats : ParseStats}
    (stepped : state.step input = .ok (.done root stats)) :
    root.Everywhere (Reliable input.language) ∧ root.Covers input.text := by
  obtain ⟨token, middle, taken, ended⟩ := done_cases stepped
  obtain ⟨_, middleSound, stack⟩ := steady.sound.current taken
  have reliable := steady.reliable.of_stack stack
  have held := steady.placed.current knowsNoEnd inside taken (some (state.symbolOf input token))
  have extras : ∀ leaf ∈ token.extras, Reliable input.language (.leaf leaf) :=
    (held.yields small _ List.mem_cons_self 0).extras
  rcases ended with ⟨action, rfl⟩ | ⟨_, _, _, rfl⟩
  · have top : middle.topState = state.topState := by simp only [topState, stack]
    rw [← top] at action
    exact ⟨reliable.accept lenient_reliable extras,
      held.covers (middleSound.leaves_accept input represents _ action)⟩
  · exact ⟨reliable.wrapAll lenient_reliable extras, held.covers (leaves_wrapAll input _)⟩

theorem of_reaches (offers : input.OffersReliable) (reaches : Reaches input state) :
    Steady grammar input state := by
  induction reaches with
  | initial => exact ⟨sound_initial _, placed_initial input, by simp [Holds, initial]⟩
  | step _ stepped ih => exact ih.step represents knowsNoEnd inside small offers stepped

end Steady

end ParseState

open ParseState in
/-- A parse to which a reliable tree is offered makes a reliable tree again. -/
theorem reliable_of_runParse {grammar : FlatGrammar} {input : ParseInput}
    (represents : input.language.tables.Represents grammar)
    (knowsNoEnd : input.language.lexer.KnowsNoEnd)
    (inside : input.language.scanner.StaysInside) (small : InMemory input.text)
    (offers : input.OffersReliable) {root : Subtree} {stats : ParseStats}
    (ran : runParse input = .ok (root, stats)) :
    root.Everywhere (Subtree.Reliable input.language) ∧ root.Covers input.text := by
  obtain ⟨last, reaches, stepped⟩ := exists_last_of_runParse ran
  have steady := Steady.of_reaches represents knowsNoEnd inside small offers reaches
  exact steady.done represents knowsNoEnd inside small stepped

/-! ## The index of an old tree -/

theorem ReuseIndex.isReusable_of_ofTree {root : Subtree} {edits : List TextEdit} :
    ∀ candidate ∈ ReuseIndex.ofTree root edits, candidate.subtree.isReusable = true := by
  intro candidate member
  rw [ReuseIndex.ofTree_eq] at member
  obtain ⟨offset, _, found⟩ := Subtree.exists_of_mem_candidates root member
  exact (Subtree.asCandidate?_eq_some found).2.1

theorem toNat_add_of_lt {first second : Nat} (small : first + second < 2 ^ 64) :
    (first.toUInt64 + second.toUInt64).toNat = first + second := by
  rw [UInt64.toNat_add]
  simp only [Nat.toUInt64_eq, UInt64.toNat_ofNat']
  omega

/-- The subtrees that edits leave untouched stand in the new text, with their first tokens where
they are looked for. -/
theorem ReuseIndex.standsIn_of_ofTree {root : Subtree} {edits : List TextEdit}
    {former text : List Char} (covers : root.Covers former)
    (margins : root.Everywhere fun part => part.lookaheadBytes ≤ 2 ^ 63)
    (fits : InMemory former) (turns : TextEdit.Turns edits former text) :
    ∀ candidate ∈ ReuseIndex.ofTree root edits, candidate.StandsIn text := by
  intro candidate member
  have reusable := isReusable_of_ofTree candidate member
  rw [ReuseIndex.ofTree_eq] at member
  obtain ⟨place, lies, found⟩ := Subtree.exists_of_mem_candidates root member
  obtain ⟨_, _, range, mapped, offset⟩ := Subtree.asCandidate?_eq_some found
  obtain ⟨whole, rest, rfl, cut⟩ := covers
  obtain ⟨piece, holds, pieceCut⟩ := lies.holdsAt cut
  have length : utf8Length piece = candidate.subtree.length := by
    rw [pieceCut.sum_eq, Subtree.length_eq_sum]
  rw [← length, Nat.zero_add] at mapped
  obtain ⟨_, moved⟩ := turns.mapRangeAll? fits (margins _ _ lies) (holds.append rest) mapped
  refine ⟨⟨range.1, piece, ?_, moved, pieceCut⟩,
    fun first isFirst => Subtree.padding_of_isReusable reusable isFirst⟩
  -- the offset lies in the new text, so it did not start again from zero
  have inside := moved.le_length
  have small := turns.inMemory fits
  have blank := Subtree.padding_lt_of_isReusable reusable
  rw [offset]
  refine toNat_add_of_lt ?_
  unfold InMemory at small
  omega

/-! ## Sessions -/

/-- The trees that parses of a language return, each with the text it was parsed from: first a
parse without an old tree, then parses with the tree before and edits that lead from its text to
the next one. -/
inductive Parser.Session (instance_ : LanguageInstance) : Tree → String → Prop where
  | first {config : ParseConfig} {text : String} {tree : Tree} {stats : ParseStats} :
      InMemory text.toList →
      (Parser.mk config (some instance_)).parse text none = .ok (tree, stats) →
      Session instance_ tree text
  | next {config : ParseConfig} {former text : String} {old tree : Tree} {stats : ParseStats}
      {edits : List TextEdit} :
      Session instance_ old former → TextEdit.Turns edits former.toList text.toList →
      (Parser.mk config (some instance_)).parse text (some (edits.foldl Tree.edit old)) =
        .ok (tree, stats) →
      Session instance_ tree text

theorem Tree.foldl_edit (tree : Tree) (edits : List TextEdit) :
    edits.foldl Tree.edit tree = { tree with edits := tree.edits ++ edits } := by
  induction edits generalizing tree with
  | nil => rw [List.append_nil]; rfl
  | cons edit edits ih =>
      rw [List.foldl_cons, ih, Tree.edit, List.append_assoc]
      rfl

/-- What holds of every tree of a session. -/
structure Tree.Kept (tree : Tree) (instance_ : LanguageInstance) (text : List Char) : Prop where
  language : tree.language = instance_
  edits : tree.edits = []
  fits : InMemory text
  covers : tree.root.Covers text
  reliable : tree.root.Everywhere (Subtree.Reliable instance_.language)

namespace Parser

variable {instance_ : LanguageInstance} {config : ParseConfig} {text : List Char}

theorem offersReliable_none :
    (ParseInput.mk instance_.language text config (reuseIndex instance_ none)).OffersReliable :=
  ⟨nofun, nofun, nofun⟩

theorem offersReliable_of_kept {old : Tree} {former : List Char} {edits : List TextEdit}
    (kept : old.Kept instance_ former) (turns : TextEdit.Turns edits former text) :
    (ParseInput.mk instance_.language text config
      (reuseIndex instance_ (some (edits.foldl Tree.edit old)))).OffersReliable := by
  have index : reuseIndex instance_ (some (edits.foldl Tree.edit old)) =
      ReuseIndex.ofTree old.root edits := by
    simp [reuseIndex, Tree.foldl_edit, kept.language, kept.edits]
  rw [index]
  refine ⟨ReuseIndex.isReusable_of_ofTree, ?_, fun candidate member => ?_⟩
  · exact ReuseIndex.standsIn_of_ofTree kept.covers
      (fun part offset lies => (kept.reliable part offset lies).margin) kept.fits turns
  · rw [ReuseIndex.ofTree_eq] at member
    obtain ⟨_, lies, _⟩ := Subtree.exists_of_mem_candidates old.root member
    exact kept.reliable.part lies

theorem Session.kept {grammar : FlatGrammar}
    (represents : instance_.language.tables.Represents grammar)
    (knowsNoEnd : instance_.language.lexer.KnowsNoEnd)
    (inside : instance_.language.scanner.StaysInside) {tree : Tree} {text : String}
    (session : Session instance_ tree text) : tree.Kept instance_ text.toList := by
  induction session with
  | first fits parsed =>
      obtain ⟨root, ran, rfl⟩ := exists_run_of_parse parsed
      obtain ⟨reliable, covers⟩ :=
        reliable_of_runParse represents knowsNoEnd inside fits offersReliable_none ran
      exact ⟨rfl, rfl, fits, covers, reliable⟩
  | next _ turns parsed ih =>
      obtain ⟨root, ran, rfl⟩ := exists_run_of_parse parsed
      have fits := turns.inMemory ih.fits
      obtain ⟨reliable, covers⟩ := reliable_of_runParse represents knowsNoEnd inside fits
        (offersReliable_of_kept ih turns) ran
      exact ⟨rfl, rfl, fits, covers, reliable⟩

/-! ## Cuts -/

theorem runParse_of_fault {text : String} {old : Option Tree} {fault : Fault}
    (failed : (Parser.mk config (some instance_)).parse text old = .error (.fault fault)) :
    runParse ⟨instance_.language, text.toList, config, reuseIndex instance_ old⟩ =
      .error fault := by
  simp only [Parser.parse] at failed
  split at failed
  case h_1 other ran =>
      obtain rfl := ParseError.fault.inj (Except.error.inj failed)
      exact ran
  case h_2 => cases failed

theorem reuseIndex_cases {old : Option Tree} {candidate : ReuseCandidate}
    (listed : candidate ∈ reuseIndex instance_ old) :
    ∃ tree, old = some tree ∧ tree.language.number = instance_.number ∧
      candidate ∈ ReuseIndex.ofTree tree.root tree.edits := by
  unfold reuseIndex at listed
  split at listed
  case h_1 => exact absurd listed List.not_mem_nil
  case h_2 tree =>
      split at listed
      case isTrue same => exact ⟨tree, rfl, same, listed⟩
      case isFalse => exact absurd listed List.not_mem_nil

theorem isReusable_of_reuseIndex {old : Option Tree} :
    ∀ candidate ∈ reuseIndex instance_ old, candidate.subtree.isReusable = true := by
  intro candidate listed
  obtain ⟨tree, _, _, indexed⟩ := reuseIndex_cases listed
  exact ReuseIndex.isReusable_of_ofTree candidate indexed

open ParseState in
theorem exists_candidate_of_outsideText {text : String} {old : Option Tree} {offset : Nat}
    (fits : instance_.language.scanner.Fits)
    (failed : (Parser.mk config (some instance_)).parse text old =
      .error (.fault (.outsideText offset))) :
    Cursor.at? text.toList offset = none ∧ ∃ tree, old = some tree ∧
      tree.language.number = instance_.number ∧
      ∃ candidate ∈ ReuseIndex.ofTree tree.root tree.edits,
        offset + candidate.subtree.padding = candidate.offset + candidate.subtree.length := by
  have steps : OnlyFaults (fun fault => fault.isOutside = true → CutsBehind
      ⟨instance_.language, text.toList, config, reuseIndex instance_ old⟩ fault)
      (runParse ⟨instance_.language, text.toList, config, reuseIndex instance_ old⟩) := by
    refine onlyFaults_runSteps nofun (fun state _ => ?_) .initial
    exact cutsBehind_of_step fits isReusable_of_reuseIndex
  obtain ⟨_, same, missing, candidate, listed, finish⟩ := steps _ (runParse_of_fault failed) rfl
  obtain rfl := Fault.outsideText.inj same
  obtain ⟨tree, given, number, indexed⟩ := reuseIndex_cases listed
  exact ⟨missing, tree, given, number, candidate, indexed, finish⟩

open ParseState in
theorem inside_of_stand {text : String} {old : Option Tree} {offset : Nat}
    (knowsNoEnd : instance_.language.lexer.KnowsNoEnd)
    (fits : instance_.language.scanner.Fits)
    (inside : instance_.language.scanner.StaysInside)
    (stand : ∀ candidate ∈ reuseIndex instance_ old, candidate.StandsIn text.toList) :
    (Parser.mk config (some instance_)).parse text old ≠
      .error (.fault (.outsideText offset)) := by
  intro failed
  have steps : OnlyFaults (fun fault => fault.isOutside = false)
      (runParse ⟨instance_.language, text.toList, config, reuseIndex instance_ old⟩) := by
    refine onlyFaults_runSteps ?_ (fun state reaches => ?_) .initial
    · rfl
    · exact (reaches.placed knowsNoEnd inside stand).inside_of_step knowsNoEnd fits inside stand
  cases steps _ (runParse_of_fault failed)

/-- Parses of a session cut their texts at places in them. -/
theorem Session.inside {grammar : FlatGrammar}
    (represents : instance_.language.tables.Represents grammar)
    (knowsNoEnd : instance_.language.lexer.KnowsNoEnd)
    (fits : instance_.language.scanner.Fits)
    (inside : instance_.language.scanner.StaysInside) {tree : Tree} {former text : String}
    (session : Session instance_ tree former) {edits : List TextEdit}
    (turns : TextEdit.Turns edits former.toList text.toList) (offset : Nat) :
    (Parser.mk config (some instance_)).parse text (some (edits.foldl Tree.edit tree)) ≠
      .error (.fault (.outsideText offset)) := by
  have kept := session.kept represents knowsNoEnd inside
  exact inside_of_stand knowsNoEnd fits inside (@offersReliable_of_kept _ config _ _ _ _ kept
    turns).stand

end Parser

/-- A parse cuts its text outside of it only at the end of a subtree of the old tree, moved to
where the edits put it; and it never does so where the old tree covers its text and the edits
say what became of this text, as in every session of a generated language. -/
theorem parse_cuts_within_text {tables : LanguageTables} {scanner : Scanner}
    {language : Language} (loaded : Language.ofTables tables scanner = .ok language)
    (known : scanner = .noExternals ∨ scanner = OneScript.scanner) (config : ParseConfig)
    (number : Nat) (text : String) :
    let parser := Parser.mk config (some ⟨number, language⟩)
    (∀ old offset, parser.parse text old = .error (.fault (.outsideText offset)) →
      Cursor.at? text.toList offset = none ∧
      ∃ tree, old = some tree ∧ tree.language.number = number ∧
        ∃ candidate ∈ ReuseIndex.ofTree tree.root tree.edits,
          offset + candidate.subtree.padding = candidate.offset + candidate.subtree.length) ∧
    (∀ tree former, InMemory former → tree.root.Covers former →
      (tree.root.Everywhere fun part => part.lookaheadBytes ≤ 2 ^ 63) →
      TextEdit.Turns tree.edits former text.toList →
      ∀ offset, parser.parse text (some tree) ≠ .error (.fault (.outsideText offset))) ∧
    ∀ source grammar, FlatGrammar.ofGrammar source = .ok grammar →
      Language.ofGrammar source scanner = .ok language → language.tables.Numbered →
      ∀ tree former edits, Parser.Session ⟨number, language⟩ tree former →
        TextEdit.Turns edits former.toList text.toList →
        ∀ offset, parser.parse text (some (edits.foldl Tree.edit tree)) ≠
          .error (.fault (.outsideText offset)) := by
  have knowsNoEnd := Language.knowsNoEnd_of_ofTables loaded
  obtain ⟨fits, inside⟩ : language.scanner.Fits ∧ language.scanner.StaysInside := by
    rw [(Language.ofTables_ok loaded).2.2.2.2]
    rcases known with rfl | rfl
    · exact ⟨Scanner.fits_noExternals, Scanner.staysInside_noExternals⟩
    · exact ⟨OneScript.fits_scanner, OneScript.staysInside_scanner⟩
  refine ⟨?_, ?_, ?_⟩
  · intro old offset failed
    exact Parser.exists_candidate_of_outsideText fits failed
  · intro tree former fitsMemory covers margins turns offset
    refine Parser.inside_of_stand knowsNoEnd fits inside fun candidate listed => ?_
    obtain ⟨_, given, _, indexed⟩ := Parser.reuseIndex_cases listed
    obtain rfl := Option.some.inj given
    exact ReuseIndex.standsIn_of_ofTree covers margins fitsMemory turns candidate indexed
  · intro source grammar flattened generated numbered tree former edits session turns offset
    have represents := Language.represents_of_ofGrammar generated flattened numbered
    exact session.inside represents knowsNoEnd fits inside turns offset

/-- The grammar of an `a` with a `b` behind it, as a rule below the start. -/
def nestedPairGrammar : Grammar :=
  ⟨{ name := "nested", rules := [("start", .symbol "pair"),
    ("pair", .seq [.literal "a", .literal "b"])] }, by decide⟩

set_option maxRecDepth 10000 in
/-- With the tree of `ab` the text `a` is cut behind its end, unless the edit is recorded. -/
theorem parse_cuts_behind_nested_pair :
    ∃ grammar language tree stats, FlatGrammar.ofGrammar nestedPairGrammar = .ok grammar ∧
      Language.ofGrammar nestedPairGrammar .noExternals = .ok language ∧
      language.tables.Numbered ∧
      let parser := Parser.mk {} (some ⟨0, language⟩)
      parser.parse "ab" none = .ok (tree, stats) ∧
      parser.parse "a" (some tree) = .error (.fault (.outsideText 2)) ∧
      (∃ candidate ∈ ReuseIndex.ofTree tree.root tree.edits,
        2 + candidate.subtree.padding = candidate.offset + candidate.subtree.length) ∧
      ∀ offset, parser.parse "a" (some (tree.edit ⟨1, 2, 1⟩)) ≠
        .error (.fault (.outsideText offset)) := by
  have shown : ((Language.ofGrammar nestedPairGrammar .noExternals).toOption.bind fun language =>
      ((Parser.mk {} (some ⟨0, language⟩)).parse "ab" none).toOption.map fun result =>
        (match (Parser.mk {} (some ⟨0, language⟩)).parse "a" (some result.1) with
          | .error failure => some failure
          | .ok _ => none, language.tables.lexModes.size, language.tables.productions.size)) =
        some (some (.fault (.outsideText 2)), 5, 2) := by cbv
  cases loaded : Language.ofGrammar nestedPairGrammar .noExternals with
  | error failure => simp [loaded, Except.toOption] at shown
  | ok language =>
      simp only [loaded, Except.toOption, Option.bind_some] at shown
      cases parsed : (Parser.mk {} (some ⟨0, language⟩)).parse "ab" none with
      | error failure => simp [parsed] at shown
      | ok result =>
          obtain ⟨tree, stats⟩ := result
          simp only [parsed, Option.map_some, Option.some.injEq, Prod.mk.injEq] at shown
          obtain ⟨failed, modes, productions⟩ := shown
          split at failed
          case h_2 => cases failed
          case h_1 failure again =>
              obtain rfl := Option.some.inj failed
              obtain ⟨generated, made⟩ := Language.ofGrammar_ok loaded
              obtain ⟨grammar, flattened, _⟩ := LanguageTables.generate_ok generated
              have numbered : language.tables.Numbered :=
                ⟨by simp [modes, UInt32.size], by simp [productions, UInt32.size]⟩
              obtain ⟨behind, _, sessions⟩ :=
                parse_cuts_within_text made (.inl rfl) {} 0 "a"
              obtain ⟨_, _, given, _, candidate⟩ := behind _ _ again
              obtain rfl := Option.some.inj given
              have small : InMemory "ab".toList ∧ InMemory "a".toList := by
                unfold InMemory
                decide
              have turns : TextEdit.Turns [⟨1, 2, 1⟩] "ab".toList "a".toList :=
                .cons ⟨['a'], ['b'], [], [], rfl, rfl, rfl, rfl, rfl⟩ small.2 (.nil _)
              have session : Parser.Session ⟨0, language⟩ tree "ab" := .first small.1 parsed
              have recorded := sessions _ grammar flattened loaded numbered tree "ab"
                [⟨1, 2, 1⟩] session turns
              exact ⟨grammar, language, tree, stats, flattened, rfl, numbered, parsed, again,
                candidate, recorded⟩

end Lalr
