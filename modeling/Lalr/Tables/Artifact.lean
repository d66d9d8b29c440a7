import Lalr.Tables.Codec
import Lalr.Tables.Error

set_option autoImplicit false

/-!
Artifacts: tables in storage. A header with the version precedes the body, so another
layout is noticed before anything of the body is read. Bytes behind the body do not
matter.
-/

namespace Lalr

namespace Codec

/-- The kinds of symbols by number. -/
def symbolKinds : List SymbolKind :=
  [.terminal, .nonterminal, .auxiliary, .aliasOnly]

/-- The number of a kind of symbol. -/
def symbolKind : Codec SymbolKind :=
  ⟨fun kind => (number 4).write (symbolKinds.idxOf kind),
    fun bytes => do
      let (index, rest) ← (number 4).read bytes
      let kind ← symbolKinds[index]?
      pure (kind, rest)⟩

/-- A symbol. -/
def symbolInfo : Codec SymbolInfo :=
  (text.pair (symbolKind.pair (bool.pair (bool.pair (bool.pair (bool.pair word16)))))).via
    (fun info =>
      (info.name, info.kind, info.named, info.visible, info.extra, info.external, info.canonical))
    (fun (name, kind, named, visible, extra, external, canonical) =>
      ⟨name, kind, named, visible, extra, external, canonical⟩)

/-- An action: its number and what it refers to. -/
def action : Codec Action :=
  ⟨fun action =>
      match action with
      | .error => (number 4).write 0
      | .shift state => (number 4).write 1 ++ word32.write state
      | .reduce production => (number 4).write 2 ++ word32.write production
      | .goto state => (number 4).write 3 ++ word32.write state
      | .accept => (number 4).write 4,
    fun bytes => do
      let (index, rest) ← (number 4).read bytes
      match index with
      | 0 => pure (.error, rest)
      | 1 => (word32.read rest).map fun (state, rest) => (.shift state, rest)
      | 2 => (word32.read rest).map fun (production, rest) => (.reduce production, rest)
      | 3 => (word32.read rest).map fun (state, rest) => (.goto state, rest)
      | 4 => pure (.accept, rest)
      | _ => none⟩

/-- A production. -/
def productionInfo : Codec ProductionInfo :=
  (word16.pair (word16.list.pair (word16.option.list.pair
    (word32.option.pair (signed32.pair signed32))))).via
    (fun production =>
      (production.lhs, production.rhs, production.fields, production.aliasSequence,
        production.precedence, production.dynamicPrecedence))
    (fun (lhs, rhs, fields, aliasSequence, precedence, dynamicPrecedence) =>
      ⟨lhs, rhs, fields, aliasSequence, precedence, dynamicPrecedence⟩)

/-- A set of external tokens. -/
def validExternals : Codec ValidExternals :=
  word64.via ValidExternals.bits ValidExternals.mk

/-- Texts with symbols. -/
def symbolTexts : Codec (List (String × SymbolId)) :=
  (text.pair word16).list

/-- What the lexer needs to know. -/
def lexicalTable : Codec LexicalTable :=
  (symbolTexts.pair (symbolTexts.pair (symbolTexts.pair (word16.option.pair
    (word16.list.pair ((word16.pair word16).list.pair word16.list)))))).via
    (fun table =>
      (table.literals, table.patterns, table.keywords, table.word, table.extras,
        table.immediateTwins, table.externals))
    (fun (literals, patterns, keywords, word, extras, immediateTwins, externals) =>
      ⟨literals, patterns, keywords, word, extras, immediateTwins, externals⟩)

/-- Whole tables. -/
def languageTables : Codec LanguageTables :=
  (word32.pair (text.pair (symbolInfo.array.pair (word64.pair (word64.pair (text.array.pair
    (productionInfo.array.pair (word16.option.list.array.pair (word64.pair (action.array.pair
      (validExternals.array.pair lexicalTable))))))))))).via
    (fun tables =>
      (tables.version, tables.name, tables.symbols, tables.terminalCount,
        tables.tableSymbolCount, tables.fields, tables.productions, tables.aliasSequences,
        tables.stateCount, tables.actions, tables.lexModes, tables.lexical))
    (fun (version, name, symbols, terminalCount, tableSymbolCount, fields, productions,
        aliasSequences, stateCount, actions, lexModes, lexical) =>
      ⟨version, name, symbols, terminalCount, tableSymbolCount, fields, productions,
        aliasSequences, stateCount, actions, lexModes, lexical⟩)

end Codec

namespace LanguageTables

/-- The first bytes of every artifact, the letters `OSLT`. -/
def artifactMark : List UInt8 :=
  [0x4F, 0x53, 0x4C, 0x54]

/-- The artifact of tables. -/
def toBytes (tables : LanguageTables) : List UInt8 :=
  artifactMark ++ Codec.word32.write tables.version ++ Codec.languageTables.write tables

/-- The tables of an artifact. -/
def ofBytes (bytes : List UInt8) : Except LanguageError LanguageTables :=
  match bytes with
  | 0x4F :: 0x53 :: 0x4C :: 0x54 :: rest =>
      match Codec.word32.read rest with
      | none => .error (.invalidArtifact .missingHeader)
      | some (version, body) =>
          if version ≠ layoutVersion then .error (.versionMismatch version)
          else
            match Codec.languageTables.read body with
            | none => .error (.invalidArtifact .malformedBody)
            | some (tables, _) =>
                if tables.version ≠ version then .error (.invalidArtifact .versionsDiffer)
                else .ok tables
  | _ => .error (.invalidArtifact .missingHeader)

end LanguageTables

end Lalr
