import Lalr.Parser.Run

set_option autoImplicit false

/-!
Parsers and the trees they make. Every attached language has a number; trees are only
used again by a parse with the language of the same number.
-/

namespace Lalr

/-- A language with the number that tells it apart from others, however alike. -/
structure LanguageInstance where
  number : Nat
  language : Language

/-- A syntax tree. The edits recorded on it are those made to its text since. -/
structure Tree where
  root : Subtree
  language : LanguageInstance
  edits : List TextEdit

/-- Records an edit of the text; the positions in the tree stay those of the text it was
parsed from. -/
def Tree.edit (tree : Tree) (edit : TextEdit) : Tree :=
  { tree with edits := tree.edits ++ [edit] }

/-- Why a parser returns no tree. -/
inductive ParseError where
  | noLanguage
  | fault (fault : Fault)
deriving DecidableEq, Repr

/-- A parser: a configuration and the language it is for. -/
structure Parser where
  config : ParseConfig := {}
  language : Option LanguageInstance := none

namespace Parser

/-- The subtrees of an old tree that a parse may take over; those of another language
are of no use. -/
def reuseIndex (language : LanguageInstance) (old : Option Tree) : ReuseIndex :=
  match old with
  | none => []
  | some tree =>
      if tree.language.number = language.number then ReuseIndex.ofTree tree.root tree.edits
      else []

/-- Parses a text, taking over what is unchanged in an old tree. -/
def parse (parser : Parser) (text : String) (old : Option Tree) :
    Except ParseError (Tree × ParseStats) :=
  match parser.language with
  | none => .error .noLanguage
  | some language =>
      let input : ParseInput :=
        ⟨language.language, text.toList, parser.config, reuseIndex language old⟩
      match runParse input with
      | .error fault => .error (.fault fault)
      | .ok (root, stats) => .ok (⟨root, language, []⟩, stats)

end Parser

/-- The wording of an error. -/
def ParseError.message : ParseError → String
  | .noLanguage => "no language is attached to the parser"
  | .fault (.outsideText offset) => "offset " ++ toString offset ++ " does not lie in the text"
  | .fault (.endlessExtras offset) =>
      "extras of no length repeat without end at offset " ++ toString offset
  | .fault .stepLimit => "the parse did not end within the limit of steps"

end Lalr
