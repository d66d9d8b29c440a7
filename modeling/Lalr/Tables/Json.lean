import Lalr.Json.Shape
import Lalr.Tables.Basic

set_option autoImplicit false

/-!
Tables as JSON, for inspection by other programs.
-/

namespace Lalr

namespace Shape

/-- The kinds of symbols by name. -/
def symbolKind : Shape SymbolKind :=
  named [("Terminal", .terminal), ("Nonterminal", .nonterminal), ("Auxiliary", .auxiliary),
    ("Alias", .aliasOnly)]

/-- A symbol. -/
def symbolInfo : Shape SymbolInfo :=
  object <|
    ((Members.one "name" text).and <| (Members.one "kind" symbolKind).and <|
      (Members.one "named" truth).and <| (Members.one "visible" truth).and <|
      (Members.one "extra" truth).and <| (Members.one "external" truth).and <|
      Members.one "public" word16).via
      (fun info =>
        (info.name, info.kind, info.named, info.visible, info.extra, info.external, info.canonical))
      (fun (name, kind, named, visible, extra, external, canonical) =>
        ⟨name, kind, named, visible, extra, external, canonical⟩)

/-- An action: a name, or an object with what the action refers to under its name. -/
def action : Shape Action :=
  ⟨fun action =>
      match action with
      | .error => .string "Error"
      | .shift state => .object [("Shift", word32.write state)]
      | .reduce production => .object [("Reduce", word32.write production)]
      | .goto state => .object [("Goto", word32.write state)]
      | .accept => .string "Accept",
    fun json =>
      match json with
      | .string "Error" => some .error
      | .string "Accept" => some .accept
      | .object [("Error", .null)] => some .error
      | .object [("Accept", .null)] => some .accept
      | .object [("Shift", state)] => (word32.read? state).map .shift
      | .object [("Reduce", production)] => (word32.read? production).map .reduce
      | .object [("Goto", state)] => (word32.read? state).map .goto
      | _ => none⟩

/-- A production. -/
def productionInfo : Shape ProductionInfo :=
  object <|
    ((Members.one "lhs" word16).and <| (Members.one "rhs" word16.list).and <|
      (Members.one "fields" word16.option.list).and <|
      (Members.one "alias_sequence" word32.option).and <|
      (Members.one "precedence" signed32).and <| Members.one "dynamic_precedence" signed32).via
      (fun production =>
        (production.lhs, production.rhs, production.fields, production.aliasSequence,
          production.precedence, production.dynamicPrecedence))
      (fun (lhs, rhs, fields, aliasSequence, precedence, dynamicPrecedence) =>
        ⟨lhs, rhs, fields, aliasSequence, precedence, dynamicPrecedence⟩)

/-- A set of external tokens, as the number of its bits. -/
def validExternals : Shape ValidExternals :=
  word64.via ValidExternals.bits ValidExternals.mk

/-- Texts with their symbols. -/
def symbolTexts : Shape (List (String × SymbolId)) :=
  (text.pair word16).list

/-- What the lexer needs to know. -/
def lexicalTable : Shape LexicalTable :=
  object <|
    ((Members.one "literals" symbolTexts).and <| (Members.one "patterns" symbolTexts).and <|
      (Members.one "keywords" symbolTexts).and <| (Members.one "word" word16.option).and <|
      (Members.one "extras" word16.list).and <|
      (Members.one "immediate_twins" (word16.pair word16).list).and <|
      Members.one "externals" word16.list).via
      (fun table =>
        (table.literals, table.patterns, table.keywords, table.word, table.extras,
          table.immediateTwins, table.externals))
      (fun (literals, patterns, keywords, word, extras, immediateTwins, externals) =>
        ⟨literals, patterns, keywords, word, extras, immediateTwins, externals⟩)

/-- An array of values. -/
def values {α : Type} (shape : Shape α) : Shape (Array α) :=
  shape.list.via Array.toList List.toArray

/-- The tables of a language. -/
def languageTables : Shape LanguageTables :=
  object <|
    ((Members.one "version" word32).and <| (Members.one "name" text).and <|
      (Members.one "symbols" symbolInfo.values).and <|
      (Members.one "terminal_count" word64).and <|
      (Members.one "table_symbol_count" word64).and <|
      (Members.one "fields" text.values).and <|
      (Members.one "productions" productionInfo.values).and <|
      (Members.one "alias_sequences" word16.option.list.values).and <|
      (Members.one "state_count" word64).and <| (Members.one "actions" action.values).and <|
      (Members.one "lex_modes" validExternals.values).and <|
      Members.one "lexical" lexicalTable).via
      (fun tables =>
        (tables.version, tables.name, tables.symbols, tables.terminalCount,
          tables.tableSymbolCount, tables.fields, tables.productions, tables.aliasSequences,
          tables.stateCount, tables.actions, tables.lexModes, tables.lexical))
      (fun (version, name, symbols, terminalCount, tableSymbolCount, fields, productions,
          aliasSequences, stateCount, actions, lexModes, lexical) =>
        ⟨version, name, symbols, terminalCount, tableSymbolCount, fields, productions,
          aliasSequences, stateCount, actions, lexModes, lexical⟩)

end Shape

end Lalr
