import Lalr.Tables.Artifact
import Lalr.Proofs.Except
import Lalr.Proofs.Tables.Codec

set_option autoImplicit false

/-!
Artifacts are a code of tables without prefixes. Tables whose texts and lists are short enough
to be measured by 64 bits are read back from their artifact; an artifact that is cut short is
refused; and whatever bytes are read as tables start with the artifact of these tables.
-/

namespace Lalr

open Codec

/-- Entries of a lexical table that can be stored: all lengths have 64 bits. -/
def TextsFitStorage (entries : List (String × SymbolId)) : Prop :=
  Measurable entries.length ∧ ∀ entry ∈ entries, Measurable entry.1.utf8ByteSize

/-- A lexical table that can be stored. -/
structure LexicalTable.FitsStorage (table : LexicalTable) : Prop where
  literals : TextsFitStorage table.literals
  patterns : TextsFitStorage table.patterns
  keywords : TextsFitStorage table.keywords
  extras : Measurable table.extras.length
  immediateTwins : Measurable table.immediateTwins.length
  externals : Measurable table.externals.length

/-- Tables that can be stored. All lengths have 64 bits, as those of whatever is in memory. -/
structure LanguageTables.FitsStorage (tables : LanguageTables) : Prop where
  name : Measurable tables.name.utf8ByteSize
  symbols : Measurable tables.symbols.size ∧
    ∀ info ∈ tables.symbols, Measurable info.name.utf8ByteSize
  fields : Measurable tables.fields.size ∧
    ∀ field ∈ tables.fields, Measurable field.utf8ByteSize
  productions : Measurable tables.productions.size ∧
    ∀ production ∈ tables.productions,
      Measurable production.rhs.length ∧ Measurable production.fields.length
  aliasSequences : Measurable tables.aliasSequences.size ∧
    ∀ aliases ∈ tables.aliasSequences, Measurable aliases.length
  actions : Measurable tables.actions.size
  lexModes : Measurable tables.lexModes.size
  lexical : tables.lexical.FitsStorage

namespace Codec

/-! ## The parts of tables -/

theorem lawful_symbolKind : symbolKind.Lawful fun _ => True where
  read_write kind rest _ := by cases kind <;> rfl
  eq_write bytes kind rest read := by
    simp only [symbolKind, Option.bind_eq_bind, Option.bind_eq_some_iff, Prod.exists,
      Option.pure_def, Option.some.injEq, Prod.mk.injEq] at read
    obtain ⟨index, behind, numbered, _, found, rfl, rfl⟩ := read
    obtain ⟨_, rfl⟩ := (lawful_number 4).eq_write bytes index behind numbered
    -- the kinds are distinct, so the place of a kind is the one it was found in
    have distinct : symbolKinds.Nodup := by decide
    obtain ⟨inside, rfl⟩ := List.getElem?_eq_some_iff.mp found
    exact ⟨trivial, by simp only [symbolKind, distinct.idxOf_getElem]⟩

theorem lawful_symbolInfo :
    symbolInfo.Lawful fun info => Measurable info.name.utf8ByteSize := by
  have parts := lawful_text.pair (lawful_symbolKind.pair (lawful_bool.pair (lawful_bool.pair
    (lawful_bool.pair (lawful_bool.pair lawful_word16)))))
  exact (parts.via (fun _ => rfl) fun _ _ => rfl).congr fun info => by simp

theorem lawful_action : action.Lawful fun _ => True where
  read_write value rest _ := by
    cases value with
    | error | accept => rfl
    | shift target | reduce target | goto target =>
        simp (disch := decide) only [action, List.append_assoc, (lawful_number 4).read_write,
          Option.bind_eq_bind, Option.bind_some, lawful_word32.read_write target rest trivial,
          Option.map_some]
  eq_write bytes value rest read := by
    simp only [action, Option.bind_eq_bind, Option.bind_eq_some_iff, Prod.exists] at read
    obtain ⟨index, behind, numbered, read⟩ := read
    obtain ⟨_, rfl⟩ := (lawful_number 4).eq_write bytes index behind numbered
    refine ⟨trivial, ?_⟩
    split at read
    case h_1 =>
        cases read
        rfl
    case h_5 =>
        cases read
        rfl
    case h_6 => cases read
    all_goals
      obtain ⟨⟨target, last⟩, found, same⟩ := Option.map_eq_some_iff.mp read
      obtain ⟨rfl, rfl⟩ := Prod.mk.inj same
      obtain ⟨_, rfl⟩ := lawful_word32.eq_write behind target last found
      rfl

theorem lawful_productionInfo : productionInfo.Lawful fun production =>
    Measurable production.rhs.length ∧ Measurable production.fields.length := by
  have parts := lawful_word16.pair (lawful_word16.list.pair (lawful_word16.option.list.pair
    (lawful_word32.option.pair (lawful_signed32.pair lawful_signed32))))
  exact (parts.via (fun _ => rfl) fun _ _ => rfl).congr fun production => by simp

theorem lawful_validExternals : validExternals.Lawful fun _ => True :=
  lawful_word64.via (fun _ => rfl) fun _ _ => rfl

theorem lawful_symbolTexts : symbolTexts.Lawful TextsFitStorage :=
  (lawful_text.pair lawful_word16).list.congr fun entries => by simp [TextsFitStorage]

theorem lawful_lexicalTable : lexicalTable.Lawful LexicalTable.FitsStorage := by
  have parts := lawful_symbolTexts.pair (lawful_symbolTexts.pair (lawful_symbolTexts.pair
    (lawful_word16.option.pair (lawful_word16.list.pair ((lawful_word16.pair lawful_word16).list.pair
      lawful_word16.list)))))
  refine (parts.via (fun _ => rfl) fun _ _ => rfl).congr fun table => ⟨fun fits => ?_, fun fits => ?_⟩
  · obtain ⟨literals, patterns, keywords, _, extras, twins, externals⟩ := fits
    exact ⟨literals, patterns, keywords, extras.1, twins.1, externals.1⟩
  · exact ⟨fits.literals, fits.patterns, fits.keywords, fun _ _ => trivial,
      ⟨fits.extras, fun _ _ => trivial⟩, ⟨fits.immediateTwins, fun _ _ => ⟨trivial, trivial⟩⟩,
      ⟨fits.externals, fun _ _ => trivial⟩⟩

/-- Tables are read back as they were written. -/
theorem lawful_languageTables : languageTables.Lawful LanguageTables.FitsStorage := by
  have parts := lawful_word32.pair (lawful_text.pair (lawful_symbolInfo.array.pair
    (lawful_word64.pair (lawful_word64.pair (lawful_text.array.pair
      (lawful_productionInfo.array.pair (lawful_word16.option.list.array.pair (lawful_word64.pair
        (lawful_action.array.pair (lawful_validExternals.array.pair lawful_lexicalTable))))))))))
  refine (parts.via (fun _ => rfl) fun _ _ => rfl).congr fun tables =>
    ⟨fun fits => ?_, fun fits => ?_⟩
  · obtain ⟨_, name, symbols, _, _, fields, productions, aliasSequences, _, actions, lexModes,
      lexical⟩ := fits
    exact ⟨name, symbols, fields, productions,
      ⟨aliasSequences.1, fun aliases member => (aliasSequences.2 aliases member).1⟩, actions.1,
      lexModes.1, lexical⟩
  · exact ⟨trivial, fits.name, fits.symbols, trivial, trivial, fits.fields, fits.productions,
      ⟨fits.aliasSequences.1, fun aliases member =>
        ⟨fits.aliasSequences.2 aliases member, fun _ _ _ _ => trivial⟩⟩,
      trivial, ⟨fits.actions, fun _ _ => trivial⟩, ⟨fits.lexModes, fun _ _ => trivial⟩,
      fits.lexical⟩

end Codec

namespace LanguageTables

/-! ## Artifacts -/

theorem ofBytes_mark (bytes : List UInt8) :
    ofBytes (artifactMark ++ bytes) =
      match word32.read bytes with
      | none => .error (.invalidArtifact .missingHeader)
      | some (version, body) =>
          if version ≠ layoutVersion then .error (.versionMismatch version)
          else
            match languageTables.read body with
            | none => .error (.invalidArtifact .malformedBody)
            | some (tables, _) =>
                if tables.version ≠ version then .error (.invalidArtifact .versionsDiffer)
                else .ok tables :=
  rfl

/-- What bytes are that are read as tables. -/
theorem ofBytes_ok {bytes : List UInt8} {tables : LanguageTables}
    (loaded : ofBytes bytes = .ok tables) :
    tables.version = layoutVersion ∧ tables.FitsStorage ∧ ∃ rest, bytes = tables.toBytes ++ rest := by
  unfold ofBytes at loaded
  split at loaded
  case h_2 => cases loaded
  case h_1 behind =>
      split at loaded
      case h_1 => cases loaded
      case h_2 version body header =>
          split at loaded
          case isTrue => cases loaded
          case isFalse known =>
              split at loaded
              case h_1 => cases loaded
              case h_2 found rest stored =>
                  split at loaded
                  case isTrue => cases loaded
                  case isFalse same =>
                      obtain rfl := Except.ok.inj loaded
                      obtain rfl := Decidable.not_not.mp known
                      obtain ⟨_, rfl⟩ := lawful_word32.eq_write _ _ _ header
                      obtain ⟨fits, rfl⟩ := lawful_languageTables.eq_write _ _ _ stored
                      refine ⟨Decidable.not_not.mp same, fits, rest, ?_⟩
                      simp [toBytes, artifactMark, Decidable.not_not.mp same]

theorem ofBytes_toBytes {tables : LanguageTables} (known : tables.version = layoutVersion)
    (fits : tables.FitsStorage) (rest : List UInt8) :
    ofBytes (tables.toBytes ++ rest) = .ok tables := by
  rw [toBytes, List.append_assoc, List.append_assoc, ofBytes_mark,
    lawful_word32.read_write _ _ trivial]
  simp only [known, ne_eq, not_true_eq_false, if_false,
    lawful_languageTables.read_write tables rest fits]

/-- The first bytes of the artifacts that this version reads. -/
def artifactHeader : List UInt8 :=
  artifactMark ++ word32.write layoutVersion

theorem toBytes_eq {tables : LanguageTables} (known : tables.version = layoutVersion) :
    tables.toBytes = artifactHeader ++ languageTables.write tables := by
  rw [toBytes, known]
  rfl

theorem ofBytes_header (body : List UInt8) (malformed : languageTables.read body = none) :
    ofBytes (artifactHeader ++ body) = .error (.invalidArtifact .malformedBody) := by
  rw [artifactHeader, List.append_assoc, ofBytes_mark, lawful_word32.read_write _ _ trivial]
  simp only [ne_eq, not_true_eq_false, if_false, malformed]

theorem ofBytes_of_prefix_header {bytes : List UInt8} (start : bytes <+: artifactHeader)
    (cut : bytes.length < artifactHeader.length) :
    ofBytes bytes = .error (.invalidArtifact .missingHeader) := by
  rw [List.prefix_iff_eq_take.mp start]
  match bytes.length, cut with
  | 0, _ | 1, _ | 2, _ | 3, _ | 4, _ | 5, _ | 6, _ | 7, _ => rfl

/-- An artifact that is cut short is refused: for its header where not even this is complete,
otherwise for its body. -/
theorem ofBytes_of_proper_prefix {tables : LanguageTables} (known : tables.version = layoutVersion)
    (fits : tables.FitsStorage) {bytes : List UInt8} (start : bytes <+: tables.toBytes)
    (cut : bytes ≠ tables.toBytes) :
    ofBytes bytes = .error (.invalidArtifact
      (if bytes.length < artifactHeader.length then .missingHeader else .malformedBody)) := by
  rw [toBytes_eq known] at start cut
  have header : artifactHeader <+: artifactHeader ++ languageTables.write tables :=
    List.prefix_append _ _
  split
  case isTrue short =>
      exact ofBytes_of_prefix_header (List.prefix_of_prefix_length_le start header (Nat.le_of_lt short)) short
  case isFalse long =>
      obtain ⟨body, rfl⟩ := List.prefix_of_prefix_length_le header start (Nat.not_lt.mp long)
      obtain ⟨missing, whole⟩ := (List.prefix_append_right_inj _).mp start
      refine ofBytes_header body (lawful_languageTables.read_of_proper_prefix fits whole.symm ?_)
      rintro rfl
      rw [List.append_nil] at whole
      exact cut (whole ▸ rfl)

/-- Artifacts are a code without prefixes, and the only one of what they hold. -/
theorem artifact_prefix_code :
    (∀ tables : LanguageTables, tables.version = layoutVersion → tables.FitsStorage →
      ofBytes tables.toBytes = .ok tables ∧
      ∀ bytes, bytes <+: tables.toBytes → bytes ≠ tables.toBytes →
        ofBytes bytes = .error (.invalidArtifact
          (if bytes.length < artifactHeader.length then .missingHeader else .malformedBody))) ∧
    ∀ bytes tables, ofBytes bytes = .ok tables → tables.toBytes <+: bytes := by
  refine ⟨fun tables known fits => ⟨?_, ?_⟩, fun bytes tables loaded => ?_⟩
  · simpa using ofBytes_toBytes known fits []
  · exact fun bytes => ofBytes_of_proper_prefix known fits
  · obtain ⟨_, _, rest, same⟩ := ofBytes_ok loaded
    exact ⟨rest, same.symm⟩

/-- Tables with a symbol, a production and an action of the longest form. -/
def smallTables : LanguageTables :=
  { version := layoutVersion
    name := "small"
    symbols := #[⟨"end", .terminal, false, false, false, false, 0⟩,
      ⟨"start", .nonterminal, true, true, false, false, 1⟩]
    terminalCount := 1
    tableSymbolCount := 2
    fields := #["value"]
    productions := #[⟨1, [0], [some 0], none, -1, 2⟩]
    aliasSequences := #[[none, some 1]]
    stateCount := 1
    actions := #[.reduce 0, .goto 0]
    lexModes := #[⟨1⟩]
    lexical := { literals := [("=", 0)], word := some 0, immediateTwins := [(0, 0)] } }

theorem fitsStorage_smallTables : smallTables.FitsStorage where
  name := by decide
  symbols := by decide
  fields := by decide
  productions := by decide
  aliasSequences := by decide
  actions := by decide
  lexModes := by decide
  lexical := by
    constructor <;> first | decide | exact ⟨by decide, by decide⟩

/-- The artifact of small tables is read back, not without its last byte, but with one more. -/
theorem artifact_prefix_code_small :
    ofBytes smallTables.toBytes = .ok smallTables ∧
      ofBytes smallTables.toBytes.dropLast = .error (.invalidArtifact .malformedBody) ∧
      smallTables.toBytes <+: smallTables.toBytes ++ [7] := by
  obtain ⟨whole, cuts⟩ := artifact_prefix_code.1 smallTables rfl fitsStorage_smallTables
  have extended : ofBytes (smallTables.toBytes ++ [7]) = .ok smallTables :=
    ofBytes_toBytes rfl fitsStorage_smallTables [7]
  refine ⟨whole, ?_, artifact_prefix_code.2 _ smallTables extended⟩
  have refused := cuts _ (List.dropLast_prefix _) (by decide +kernel)
  rwa [if_neg (by decide +kernel)] at refused

end LanguageTables

end Lalr
