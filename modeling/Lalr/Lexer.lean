import Lalr.Grammar.Token
import Lalr.Tables.Error
import Lalr.Text.LowerCase

set_option autoImplicit false

/-!
Recognising the tokens that a grammar itself describes. The longest match counts; of
equally long ones a literal wins over a pattern, and an earlier entry over a later one.
-/

namespace Lalr

/-- The literals and patterns of a language, ready for matching. -/
structure Lexer where
  literals : List (List Char × SymbolId)
  patterns : List (Program × SymbolId)
  /-- Lower-case spellings of keywords; the first entry of a spelling counts. -/
  keywords : List (String × SymbolId)
  word : Option SymbolId
  extras : List SymbolId
  immediateTwins : List (SymbolId × SymbolId)
  externals : List SymbolId

/-- A match at the start of a text. -/
structure TokenMatch where
  symbol : SymbolId
  /-- In bytes. -/
  length : Nat
  /-- The text behind the match. -/
  rest : List Char
deriving DecidableEq, Repr

/-- The text behind a literal at the start of a text. -/
def stripLiteral? : List Char → List Char → Option (List Char)
  | [], text => some text
  | _ :: _, [] => none
  | l :: literal, c :: text => if l = c then stripLiteral? literal text else none

/-- Keeps the longer of two matches, the first of equally long ones. -/
def TokenMatch.longer (best : Option TokenMatch) (found : TokenMatch) : Option TokenMatch :=
  match best with
  | none => some found
  | some known => if known.length < found.length then some found else some known

namespace Lexer

/-- Prepares the lexical table of a language; every pattern must be well-formed. Where
the table lists a spelling or a token twice, its last entry counts. -/
def compile (table : LexicalTable) : Except LanguageError Lexer := do
  let patterns ← table.patterns.mapM fun (text, symbol) =>
    match Pattern.compile? text with
    | some program => pure (program, symbol)
    | none => .error (.invalidPattern text)
  pure
    { literals := table.literals.map fun (text, symbol) => (text.toList, symbol)
      patterns := patterns
      keywords := table.keywords.reverse
      word := table.word
      extras := table.extras
      immediateTwins := table.immediateTwins.reverse
      externals := table.externals }

variable (lexer : Lexer)

/-- Tokens that may stand anywhere. -/
def isExtra (symbol : SymbolId) : Bool :=
  lexer.extras.contains symbol

/-- The symbols of the keywords. -/
def keywordSymbols : List SymbolId :=
  lexer.keywords.map Prod.snd

/-- The immediate twin of a token. -/
def twin? (symbol : SymbolId) : Option SymbolId :=
  lexer.immediateTwins.lookup symbol

/-- Whether a symbol is the immediate twin of another. -/
def isTwin (symbol : SymbolId) : Bool :=
  lexer.immediateTwins.any fun pair => lexer.twin? pair.1 == some symbol

/-- The match of a literal. -/
def literalMatch? (text : List Char) (entry : List Char × SymbolId) : Option TokenMatch :=
  (stripLiteral? entry.1 text).map fun rest => ⟨entry.2, Text.utf8Length entry.1, rest⟩

/-- The match of a pattern; an empty match does not count. -/
def patternMatch? (text : List Char) (entry : Program × SymbolId) : Option TokenMatch :=
  match entry.1.match? text with
  | none => none
  | some (length, rest) => if length = 0 then none else some ⟨entry.2, length, rest⟩

/-- The token at the start of a text. -/
def matchToken? (text : List Char) : Option TokenMatch :=
  let found :=
    lexer.literals.filterMap (literalMatch? text) ++ lexer.patterns.filterMap (patternMatch? text)
  found.foldl TokenMatch.longer none

/-- The keyword that a word is a spelling of. -/
def keyword? (word : List Char) : Option SymbolId :=
  lexer.keywords.lookup (String.ofList (Text.lowerFrom [] word))

end Lexer

end Lalr
