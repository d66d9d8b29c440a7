import Lalr.Diagnostic
import Lalr.Parser.Basic

set_option autoImplicit false

/-!
Texts under editing: a parser together with the tree of the text it parsed last.
-/

namespace Lalr

namespace Tree

/-- The node at the top of a tree. -/
def rootNode (tree : Tree) : Node :=
  tree.language.language.topNodeByVisit tree.root

end Tree

/-- A parser and what it parsed last. -/
structure Document where
  parser : Parser
  last : Option (Tree × String) := none

/-- What a parse of a document shows. -/
structure ParseReport where
  root : Node
  diagnostics : List Diagnostic
  stats : ParseStats

namespace Document

/-- Parses a text with or without an old tree; the new tree becomes the last one. -/
def advance (document : Document) (text : String) (old : Option Tree) (file : Option String) :
    Except ParseError (ParseReport × Document) := do
  let (tree, stats) ← document.parser.parse text old
  let root := tree.rootNode
  pure (⟨root, Diagnostic.ofTree root text.toList file, stats⟩,
    { document with last := some (tree, text) })

/-- Parses a text from scratch. -/
def parse (document : Document) (text : String) (file : Option String) :
    Except ParseError (ParseReport × Document) :=
  document.advance text none file

/-- Parses a text with the last tree and the edits recorded on it. -/
def parseEdited (document : Document) (text : String) (file : Option String) :
    Except ParseError (ParseReport × Document) :=
  document.advance text (document.last.map Prod.fst) file

/-- The edit that turns the last text into another one. -/
def editTo (document : Document) (text : String) : TextEdit :=
  .between ((document.last.map Prod.snd).getD "").toList text.toList

/-- Records an edit on the last tree. -/
def edit (document : Document) (edit : TextEdit) : Document :=
  { document with last := document.last.map fun (tree, text) => (tree.edit edit, text) }

/-- The edits recorded on the last tree. -/
def edits (document : Document) : List TextEdit :=
  (document.last.map fun (tree, _) => tree.edits).getD []

/-- Parses the text that the last one was changed to. -/
def reparse (document : Document) (text : String) (file : Option String) :
    Except ParseError (ParseReport × Document) :=
  (document.edit (document.editTo text)).parseEdited text file

/-- Goes on with another configuration. -/
def configure (document : Document) (config : ParseConfig) : Document :=
  { document with parser := { document.parser with config := config } }

/-- Goes on with another language. -/
def attach (document : Document) (language : LanguageInstance) : Document :=
  { document with parser := { document.parser with language := some language } }

end Document

end Lalr
