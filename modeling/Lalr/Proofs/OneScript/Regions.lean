import Lalr.OneScript.Language
import Lalr.Proofs.Parser.Threading

set_option autoImplicit false

/-!
Regions nest. In every tree the markers that were read match from the left, and each token was
read with as many open regions in mind as its place in the tree has.
-/

namespace Lalr

namespace OneScript

/-! ## The number of open regions -/

/-- A bit of a byte that was moved back to its place. -/
theorem testBit_byte (number place bit : Nat) :
    ((number >>> place % 2 ^ 8) <<< place).testBit bit =
      (decide (place ≤ bit) && decide (bit < place + 8) && number.testBit bit) := by
  simp only [Nat.testBit_shiftLeft, Nat.testBit_mod_two_pow, Nat.testBit_shiftRight]
  by_cases behind : place ≤ bit
  · have within : bit - place < 8 ↔ bit < place + 8 := by omega
    simp only [behind, within, decide_true, Bool.true_and, Nat.add_sub_of_le behind]
  · simp [behind]

theorem regionDepth_ofRegionDepth (depth : UInt32) : regionDepth (ofRegionDepth depth) = depth := by
  unfold ofRegionDepth
  split
  case isTrue none => rw [none]; rfl
  case isFalse =>
      have bytes : depth.toUInt8.toUInt32 ||| ((depth >>> 8).toUInt8.toUInt32 <<< 8) |||
          ((depth >>> 16).toUInt8.toUInt32 <<< 16) ||| ((depth >>> 24).toUInt8.toUInt32 <<< 24) =
            depth := by
        rw [← UInt32.toNat_inj]
        apply Nat.eq_of_testBit_eq
        intro bit
        simp only [UInt32.toNat_or, UInt32.toNat_shiftLeft, UInt8.toNat_toUInt32,
          UInt32.toNat_toUInt8, UInt32.toNat_shiftRight, Nat.testBit_lor, Nat.testBit_mod_two_pow,
          UInt32.reduceToNat, Nat.reduceMod, testBit_byte]
        cases known : depth.toNat.testBit bit with
        | false => simp
        | true =>
            have small : bit < 32 := by
              by_contra large
              have bound : depth.toNat < 2 ^ bit := Nat.lt_of_lt_of_le depth.toNat_lt
                (Nat.pow_le_pow_right (by decide) (Nat.le_of_not_lt large))
              rw [Nat.testBit_eq_false_of_lt bound] at known
              cases known
            simp
            omega
      exact bytes

theorem toNat_deeper_le (depth : UInt32) : (deeper depth).toNat ≤ depth.toNat + 1 := by
  unfold deeper
  split
  · omega
  · rw [UInt32.toNat_add]
    exact Nat.mod_le _ _

theorem toNat_deeper (depth : UInt32) (small : depth.toNat + 1 < 2 ^ 32) :
    (deeper depth).toNat = depth.toNat + 1 := by
  have below : depth ≠ 0xFFFFFFFF := by
    rintro rfl
    exact absurd small (by decide)
  rw [deeper, if_neg below, UInt32.toNat_add]
  exact Nat.mod_eq_of_lt small

theorem toNat_pred {depth : UInt32} (some_open : depth ≠ 0) :
    (depth - 1).toNat + 1 = depth.toNat := by
  have positive : 0 < depth.toNat :=
    Nat.pos_of_ne_zero fun none => some_open (UInt32.toNat_inj.mp none)
  rw [UInt32.toNat_sub_of_le depth 1 positive]
  exact Nat.sub_add_cancel positive

/-! ## What the scanner does -/

theorem turns_scanRegion {text : List Char} {valid : ValidExternals} {index length examined : Nat}
    {before after : ScannerState}
    (scanned : scanRegion text valid before = .token index length after examined) :
    (index = 0 ∧ after = ofRegionDepth (deeper (regionDepth before))) ∨
      (index = 1 ∧ regionDepth before ≠ 0 ∧ after = ofRegionDepth (regionDepth before - 1)) := by
  unfold scanRegion at scanned
  dsimp only at scanned
  split at scanned
  case h_1 => cases scanned
  case h_2 marker rest _ =>
      split at scanned
      case isTrue => cases scanned
      case isFalse =>
          cases marker with
          | opening =>
              dsimp only at scanned
              split at scanned
              case isTrue =>
                  obtain ⟨rfl, _, rfl, _⟩ := ScanOutcome.token.inj scanned
                  exact .inl ⟨rfl, rfl⟩
              case isFalse => cases scanned
          | closing =>
              dsimp only at scanned
              split at scanned
              case isTrue inside =>
                  obtain ⟨rfl, _, rfl, _⟩ := ScanOutcome.token.inj scanned
                  simp only [Bool.and_eq_true, bne_iff_ne, ne_eq] at inside
                  exact .inr ⟨rfl, inside.2, rfl⟩
              case isFalse => cases scanned

theorem turns_outcome {scan : LiteralScan} {known index length examined : Nat}
    {before after : ScannerState}
    (scanned : scan.outcome known before = .token index length after examined) :
    index = known ∧ after = before := by
  unfold LiteralScan.outcome at scanned
  split at scanned
  case h_1 =>
      obtain ⟨rfl, _, rfl, _⟩ := ScanOutcome.token.inj scanned
      exact ⟨rfl, rfl⟩
  case h_2 => cases scanned

/-- The first marker opens a region, the second closes one that is open, and literals leave the
open regions as they are. -/
theorem turns_cases {index : Nat} {before after : ScannerState}
    (turns : scanner.Turns index before after) :
    (index = 0 ∧ after = ofRegionDepth (deeper (regionDepth before))) ∨
      (index = 1 ∧ regionDepth before ≠ 0 ∧ after = ofRegionDepth (regionDepth before - 1)) ∨
      (2 ≤ index ∧ after = before) := by
  obtain ⟨text, valid, length, examined, scanned⟩ := turns
  change scan text valid before = _ at scanned
  unfold scan at scanned
  split at scanned
  case h_1 => cases scanned
  case h_2 =>
      split at scanned
      case isTrue =>
          rcases turns_scanRegion scanned with opens | closes
          · exact .inl opens
          · exact .inr (.inl closes)
      split at scanned
      case isTrue =>
          obtain ⟨rfl, same⟩ := turns_outcome scanned
          exact .inr (.inr ⟨Nat.le_refl 2, same⟩)
      split at scanned
      case isTrue =>
          obtain ⟨rfl, same⟩ := turns_outcome scanned
          exact .inr (.inr ⟨Nat.le_succ 2, same⟩)
      case isFalse => cases scanned

/-! ## Counting markers -/

/-- How many tokens with an external name were read. -/
def countRead (source : Grammar) (name : String) (leaves : List Leaf) : Nat :=
  leaves.countP fun leaf =>
    !leaf.missing && source.terminalNumber? (.external name) == some leaf.symbol.toNat

/-- How many regions are open behind some leaves. -/
def openRegions (source : Grammar) (leaves : List Leaf) : Nat :=
  countRead source "region_start" leaves - countRead source "region_end" leaves

section counting

variable {source : Grammar} {language : Language}

theorem countRead_of_missing {name : String} {front : List Leaf} {leaf : Leaf}
    (missing : leaf.missing = true) :
    countRead source name (front ++ [leaf]) = countRead source name front := by
  simp [countRead, missing]

/-- A token that was read counts for its own name only. -/
theorem countRead_snoc (loaded : Language.ofGrammar source scanner = .ok language) {index : Nat}
    {name : String} (declared : source.externals[index]? = some name) (front : List Leaf)
    {leaf : Leaf} (present : leaf.missing = false) :
    countRead source name (front ++ [leaf]) =
      countRead source name front +
        if language.lexer.externals[index]? = some leaf.symbol then 1 else 0 := by
  simp only [countRead, List.countP_append, List.countP_singleton, present, Bool.not_false,
    Bool.true_and, beq_iff_eq, Language.external_iff loaded declared]

/-- What is known of the scanner behind some leaves: it counts the open regions, as far as they
can be counted. -/
structure Counts (source : Grammar) (leaves : List Leaf) (depth : UInt32) : Prop where
  le : countRead source "region_end" leaves + depth.toNat ≤ countRead source "region_start" leaves
  eq : (∀ front, front <+: leaves → openRegions source front < 2 ^ 32) →
    depth.toNat = openRegions source leaves

/-- No region is open where nothing was read. -/
theorem counts_nil (source : Grammar) : Counts source [] 0 :=
  ⟨Nat.le_refl 0, fun _ => rfl⟩

/-- Leaves that are not markers leave the open regions as they are. -/
theorem Counts.of_same {front leaves : List Leaf} {depth : UInt32}
    (counts : Counts source front depth) (before : front <+: leaves)
    (opened : countRead source "region_start" leaves = countRead source "region_start" front)
    (closed : countRead source "region_end" leaves = countRead source "region_end" front) :
    Counts source leaves depth := by
  refine ⟨opened ▸ closed ▸ counts.le, fun small => ?_⟩
  rw [counts.eq fun first shorter => small first (shorter.trans before), openRegions, openRegions,
    opened, closed]

/-- One leaf more, which was read as the scanner says, and what the scanner then knows. -/
theorem Counts.snoc (loaded : Language.ofGrammar source scanner = .ok language)
    (declared : source.externals = externals) {front : List Leaf} {depth : UInt32}
    (counts : Counts source front depth) {leaf : Leaf} (lawful : leaf.Lawful language)
    (present : leaf.missing = false) (before : leaf.scannerBefore = ofRegionDepth depth) :
    ∃ next, leaf.scannerAfter = ofRegionDepth next ∧ Counts source (front ++ [leaf]) next := by
  have distinct := (Language.externals_of_ofGrammar loaded (by rw [declared]; decide)).2
  have first : source.externals[0]? = some "region_start" := by rw [declared]; rfl
  have second : source.externals[1]? = some "region_end" := by rw [declared]; rfl
  have shorter : front <+: front ++ [leaf] := List.prefix_append front [leaf]
  have opened := countRead_snoc loaded first front present
  have closed := countRead_snoc loaded second front present
  have others : ∀ {index : Nat}, language.lexer.externals[index]? = some leaf.symbol →
      ∀ other, language.lexer.externals[other]? = some leaf.symbol → other = index := by
    intro index found other same
    exact (List.getElem?_inj (List.getElem?_eq_some_iff.mp same).1 distinct).mp
      (same.trans found.symm)
  rcases lawful.advances present with ⟨ordinary, same⟩ | ⟨index, found, turns⟩
  case inl =>
      have unlisted : leaf.symbol ∉ language.lexer.externals := by
        rcases lawful.agrees with same | ⟨_, unlisted⟩
        · exact same ▸ ordinary
        · exact unlisted
      have none_of (index : Nat) : language.lexer.externals[index]? ≠ some leaf.symbol :=
        fun found => unlisted (List.mem_of_getElem? found)
      rw [if_neg (none_of _)] at opened closed
      exact ⟨depth, same.trans before, counts.of_same shorter opened closed⟩
  have own : language.lexer.externals[index]? = some leaf.symbol := by
    rcases lawful.agrees with same | ⟨unlisted, _⟩
    · rw [same, found]
    · exact absurd (List.mem_of_getElem? found) unlisted
  have scans : language.scanner = scanner :=
    (Language.ofTables_ok (Language.ofGrammar_ok loaded).2).2.2.2.2
  rw [before, scans] at turns
  rcases turns_cases turns with ⟨rfl, after⟩ | ⟨rfl, inside, after⟩ | ⟨later, after⟩
  · rw [regionDepth_ofRegionDepth] at after
    rw [if_pos own] at opened
    rw [if_neg fun same => absurd (others own 1 same) (by decide)] at closed
    have le := counts.le
    have step := toNat_deeper_le depth
    refine ⟨_, after, ⟨by omega, fun small => ?_⟩⟩
    have eq := counts.eq fun first shortest => small first (shortest.trans shorter)
    have bound := small _ (List.prefix_refl _)
    simp only [openRegions] at eq bound ⊢
    rw [toNat_deeper depth (by omega)]
    omega
  · rw [regionDepth_ofRegionDepth] at inside after
    rw [if_neg fun same => absurd (others own 0 same) (by decide)] at opened
    rw [if_pos own] at closed
    have le := counts.le
    have step := toNat_pred inside
    refine ⟨_, after, ⟨by omega, fun small => ?_⟩⟩
    have eq := counts.eq fun first shortest => small first (shortest.trans shorter)
    simp only [openRegions] at eq ⊢
    omega
  · rw [if_neg fun same => absurd (others own 0 same) (by omega)] at opened
    rw [if_neg fun same => absurd (others own 1 same) (by omega)] at closed
    exact ⟨depth, after, counts.of_same shorter opened closed⟩

/-- Behind any leaves of a tree the scanner has counted the open regions. -/
theorem counts_of_handsOn (loaded : Language.ofGrammar source scanner = .ok language)
    (declared : source.externals = externals) {front : List Leaf} {state : ScannerState}
    (lawful : ∀ leaf ∈ front, leaf.Lawful language)
    (handsOn : HandsOn .empty (solid front) state) :
    ∃ depth, state = ofRegionDepth depth ∧ Counts source front depth := by
  induction front using List.reverseRecOn generalizing state with
  | nil => exact ⟨0, handsOn.symm, counts_nil source⟩
  | append_singleton front leaf ih =>
      rw [solid_append] at handsOn
      obtain ⟨middle, front, last⟩ := handsOn_append_iff.mp handsOn
      obtain ⟨depth, rfl, counts⟩ :=
        ih (fun other member => lawful other (List.mem_append_left _ member)) front
      cases missing : leaf.missing with
      | true =>
          rw [solid_of_missing missing] at last
          exact ⟨depth, last.symm, counts.of_same (List.prefix_append _ _)
            (countRead_of_missing missing) (countRead_of_missing missing)⟩
      | false =>
          rw [solid_cons missing] at last
          obtain ⟨before, rfl⟩ := last
          exact counts.snoc loaded declared
            (lawful leaf (List.mem_append_right _ List.mem_cons_self)) missing before

end counting

end OneScript

open OneScript in
/-- Regions nest in every tree that a parser returns for a language with the scanner of OneScript
and its external tokens: no marker closes a region that is not open, and every token was read
with the number of regions in mind that are open in front of it. -/
theorem regions_nest {source : Grammar} {grammar : FlatGrammar} {language : Language}
    (declared : source.externals = OneScript.externals)
    (flattened : FlatGrammar.ofGrammar source = .ok grammar)
    (loaded : Language.ofGrammar source OneScript.scanner = .ok language)
    (numbered : language.tables.Numbered) {number : Nat} {tree : Tree}
    (returned : Parser.Returned ⟨number, language⟩ tree) {front behind : List Leaf}
    (leaves : tree.root.leaves = front ++ behind) :
    countRead source "region_end" front ≤ countRead source "region_start" front ∧
      ∀ leaf, behind.head? = some leaf → leaf.missing = false →
        (∀ first, first <+: front → openRegions source first < 2 ^ 32) →
        leaf.scannerBefore = ofRegionDepth (openRegions source front).toUInt32 := by
  have represents := Language.represents_of_ofGrammar loaded flattened numbered
  have threaded := returned.threaded represents (Language.setsApart_of_ofGrammar loaded)
  obtain ⟨final, handsOn⟩ := threaded.handsOn
  have lawful := threaded.lawful.leaves
  rw [leaves] at handsOn lawful
  rw [solid_append] at handsOn
  obtain ⟨state, before, after⟩ := handsOn_append_iff.mp handsOn
  obtain ⟨depth, rfl, counts⟩ := counts_of_handsOn loaded declared
    (fun leaf member => lawful leaf (List.mem_append_left _ member)) before
  refine ⟨Nat.le_of_add_right_le counts.le, fun leaf first present small => ?_⟩
  cases behind with
  | nil => cases first
  | cons next behind =>
      obtain rfl := Option.some.inj first
      rw [solid_cons present] at after
      rw [← counts.eq small, Nat.toUInt32, UInt32.ofNat_toNat]
      exact after.1

/-- The grammar of one region around an `x`. -/
def regionGrammar : Grammar :=
  ⟨{ name := "regions"
     externals := OneScript.externals
     rules := [("start", .symbol "region"),
      ("region", .seq [.symbol "region_start", .literal "x", .symbol "region_end"])] }, by decide⟩

open OneScript in
set_option maxRecDepth 10000 in
/-- The end of a region that was taken over from an older tree was read with one region open. -/
theorem regions_nest_of_region :
    ∃ grammar language tree, FlatGrammar.ofGrammar regionGrammar = .ok grammar ∧
      Language.ofGrammar regionGrammar OneScript.scanner = .ok language ∧
      language.tables.Numbered ∧ Parser.Returned ⟨0, language⟩ tree ∧
      ∃ front closing, tree.root.leaves = front ++ [closing] ∧ closing.missing = false ∧
        countRead regionGrammar "region_end" front ≤ countRead regionGrammar "region_start" front ∧
        closing.scannerBefore = ofRegionDepth 1 := by
  have shown : ((Language.ofGrammar regionGrammar OneScript.scanner).toOption.bind fun language =>
      ((Parser.mk {} (some ⟨0, language⟩)).parse "#Region x #EndRegion" none).toOption.bind
        fun fresh => ((Parser.mk {} (some ⟨0, language⟩)).parse "#Region x #EndRegion"
          (some fresh.1)).toOption.map fun again =>
            (again.2.reusedNodes, again.1.root.leaves.map Leaf.missing,
              openRegions regionGrammar [], openRegions regionGrammar (again.1.root.leaves.take 1),
              openRegions regionGrammar (again.1.root.leaves.take 2),
              language.tables.lexModes.size, language.tables.productions.size)) =
        some (1, [false, false, false], 0, 1, 1, 6, 2) := by cbv
  cases loaded : Language.ofGrammar regionGrammar OneScript.scanner with
  | error failure => simp [loaded, Except.toOption] at shown
  | ok language =>
      simp only [loaded, Except.toOption, Option.bind_some] at shown
      cases parsed : (Parser.mk {} (some ⟨0, language⟩)).parse "#Region x #EndRegion" none with
      | error failure => simp [parsed] at shown
      | ok fresh =>
          simp only [parsed, Option.bind_some] at shown
          cases reparsed : (Parser.mk {} (some ⟨0, language⟩)).parse "#Region x #EndRegion"
              (some fresh.1) with
          | error failure => simp [reparsed] at shown
          | ok again =>
              obtain ⟨tree, stats⟩ := again
              simp only [reparsed, Option.map_some, Option.some.injEq, Prod.mk.injEq] at shown
              obtain ⟨_, missing, none_open, one_open, still_open, modes, productions⟩ := shown
              obtain ⟨opening, within, closing, leaves⟩ :=
                List.length_eq_three.mp (by simpa using congrArg List.length missing)
              obtain ⟨generated, _⟩ := Language.ofGrammar_ok loaded
              obtain ⟨grammar, flattened, _⟩ := LanguageTables.generate_ok generated
              have numbered : language.tables.Numbered :=
                ⟨by simp [modes, UInt32.size], by simp [productions, UInt32.size]⟩
              have unchanged : (Parser.mk {} (some ⟨0, language⟩)).parse "#Region x #EndRegion"
                  (some (([] : List TextEdit).foldl Tree.edit fresh.1)) = .ok (tree, stats) :=
                reparsed
              have returned : Parser.Returned ⟨0, language⟩ tree := .again (.fresh parsed) unchanged
              simp only [leaves, List.map_cons, List.map_nil, List.cons.injEq] at missing
              simp only [leaves, List.take_succ_cons, List.take_zero] at one_open still_open
              have small : ∀ first, first <+: [opening, within] →
                  openRegions regionGrammar first < 2 ^ 32 := by
                intro first shorter
                simp only [List.prefix_cons_iff, List.prefix_nil] at shorter
                rcases shorter with rfl | ⟨_, rfl, rfl | ⟨_, rfl, rfl⟩⟩
                · omega
                · omega
                · omega
              have split : tree.root.leaves = [opening, within] ++ [closing] := leaves
              have nested := regions_nest rfl flattened loaded numbered returned split
              have depth := nested.2 closing rfl missing.2.2.1 small
              rw [still_open] at depth
              exact ⟨grammar, language, tree, flattened, rfl, numbered, returned,
                [opening, within], closing, leaves, missing.2.2.1, nested.1, depth⟩

end Lalr
