import Lalr.Language
import Lalr.Text.Utf8
import Lalr.Tree.Subtree

set_option autoImplicit false

/-!
The nodes of a syntax tree as its users see them. Hidden subtrees are no nodes: what is
visible below them belongs to the nearest node above and takes over their field.
-/

namespace Lalr

open Lalr.Text

/-- What is known of a node besides its children. -/
structure NodeInfo where
  kindId : SymbolId
  kind : String
  /-- The field of the node in the node above. -/
  field : Option String
  start : Nat
  finish : Nat
  named : Bool
  extra : Bool
  error : Bool
  missing : Bool
  /-- Whether the node is, or has within it, an error or a missing token. -/
  hasError : Bool
deriving DecidableEq, Repr, Inhabited

/-- A node of a syntax tree. -/
inductive Node where
  | mk (info : NodeInfo) (children : List Node)
deriving Repr, Inhabited

/-- Where a subtree stands: the byte at which its blank space starts, and the alias and
the field it has in the production above. -/
structure Placement where
  start : Nat
  shownAs : Option SymbolId
  field : Option FieldId
deriving DecidableEq, Repr, Inhabited

namespace Language

variable (language : Language)

/-- Whether a subtree is shown as a node. Errors and aliased subtrees always are. -/
def shows (shownAs : Option SymbolId) (subtree : Subtree) : Bool :=
  subtree.isError || shownAs.isSome ||
    (language.symbolInfo? subtree.symbol).any SymbolInfo.visible

/-- What is known of the node of a subtree with a given length that contains an error or
not. An error is named if it has children; a single unrecognised character has none. -/
def nodeInfoOf (place : Placement) (subtree : Subtree) (length : Nat) (hasError : Bool) :
    NodeInfo :=
  let symbol := place.shownAs.getD subtree.symbol
  let kindId := if subtree.isError then errorSymbol else language.canonicalSymbol symbol
  let start := place.start + subtree.padding
  { kindId := kindId
    kind := language.symbolName kindId
    field := place.field.bind language.fieldName?
    start := start
    finish := start + (length - subtree.padding)
    named :=
      if subtree.isError then !subtree.children.isEmpty
      else (language.symbolInfo? symbol).any SymbolInfo.named
    extra := subtree.isExtra && !subtree.isError
    error := subtree.isError
    missing := subtree.isMissing
    hasError := hasError }

/-- What is known of the node of a subtree. -/
def nodeInfo (place : Placement) (subtree : Subtree) : NodeInfo :=
  language.nodeInfoOf place subtree subtree.length subtree.containsError

/-- Where a child stands below a production. Extras have neither alias nor field; other
children count as the symbols of the production, and one without a field of its own
has the inherited one. -/
def placement (production : Option ProductionId) (inherited : Option FieldId)
    (start index : Nat) (child : Subtree) : Placement :=
  if child.isExtra then ⟨start, none, none⟩
  else
    let field := do (← (← production.bind language.production?).fields[index]?)
    ⟨start, production.bind fun production => language.aliasAt? production index,
      field.or inherited⟩

mutual

/-- What a subtree contributes to the children of the node above: its own node, or, if
it is hidden, the nodes below it. -/
def visibleNodes (place : Placement) : Subtree → List Node
  | .leaf token =>
      if language.shows place.shownAs (.leaf token) then
        [.mk (language.nodeInfo place (.leaf token)) []]
      else []
  | .node head children =>
      let subtree := Subtree.node head children
      if language.shows place.shownAs subtree then
        [.mk (language.nodeInfo place subtree)
          (visibleChildren head.production none place.start 0 children)]
      else visibleChildren head.production place.field place.start 0 children

/-- What the children of a production contribute, the first of them being the symbol at
`index` and starting at byte `start`. -/
def visibleChildren (production : Option ProductionId) (inherited : Option FieldId)
    (start index : Nat) : List Subtree → List Node
  | [] => []
  | child :: rest =>
      visibleNodes (language.placement production inherited start index child) child ++
        visibleChildren production inherited (start + child.length)
          (if child.isExtra then index else index + 1) rest

end

/-- The node of a subtree at the top of a tree, shown in any case. -/
def topNode (subtree : Subtree) : Node :=
  .mk (language.nodeInfo ⟨0, none, none⟩ subtree)
    (language.visibleChildren subtree.production none 0 0 subtree.children)

/-! ## Nodes in one pass

To make every node on its own measures each subtree once for every node around it. A visit
takes the length of a subtree and whether it contains an error from the visits of its
children. -/

/-- What a visit of a subtree, or of several in a row, finds. -/
structure Visit where
  nodes : List Node
  length : Nat
  containsError : Bool

mutual

/-- Visits a subtree. -/
def visit (place : Placement) : Subtree → Visit
  | .leaf token =>
      let subtree := Subtree.leaf token
      ⟨if language.shows place.shownAs subtree then
          [.mk (language.nodeInfo place subtree) []]
        else [], subtree.length, subtree.containsError⟩
  | .node head children =>
      let subtree := Subtree.node head children
      let shown := language.shows place.shownAs subtree
      let inherited := if shown then none else place.field
      let below := visitChildren head.production inherited place.start 0 children
      let hasError := head.symbol == errorSymbol || below.containsError
      ⟨if shown then
          [.mk (language.nodeInfoOf place subtree below.length hasError) below.nodes]
        else below.nodes, below.length, hasError⟩

/-- Visits the children of a production, the first of them being the symbol at `index` and
starting at byte `start`. -/
def visitChildren (production : Option ProductionId) (inherited : Option FieldId)
    (start index : Nat) : List Subtree → Visit
  | [] => ⟨[], 0, false⟩
  | child :: rest =>
      let first := visit (language.placement production inherited start index child) child
      let others := visitChildren production inherited (start + first.length)
        (if child.isExtra then index else index + 1) rest
      ⟨first.nodes ++ others.nodes, first.length + others.length,
        first.containsError || others.containsError⟩

end

mutual

/-- A visit finds what each subtree contributes on its own. -/
theorem visit_eq (place : Placement) (subtree : Subtree) :
    language.visit place subtree =
      ⟨language.visibleNodes place subtree, subtree.length, subtree.containsError⟩ := by
  cases subtree with
  | leaf token => simp [visit, visibleNodes]
  | node head children =>
      simp only [visit, visibleNodes, visitChildren_eq, Subtree.length, Subtree.containsError,
        nodeInfo]
      split <;> simp_all

/-- Visits of several subtrees find what they contribute on their own. -/
theorem visitChildren_eq (production : Option ProductionId) (inherited : Option FieldId)
    (start index : Nat) (children : List Subtree) :
    language.visitChildren production inherited start index children =
      ⟨language.visibleChildren production inherited start index children,
        Subtree.lengths children, Subtree.anyContainsError children⟩ := by
  cases children with
  | nil => simp [visitChildren, visibleChildren, Subtree.lengths, Subtree.anyContainsError]
  | cons child rest =>
      simp only [visitChildren, visibleChildren, visit_eq, visitChildren_eq, Subtree.lengths,
        Subtree.anyContainsError]

end

/-- The node of a subtree at the top of a tree, made in one pass. -/
def topNodeByVisit (subtree : Subtree) : Node :=
  let below := language.visitChildren subtree.production none 0 0 subtree.children
  .mk (language.nodeInfo ⟨0, none, none⟩ subtree) below.nodes

theorem topNodeByVisit_eq (subtree : Subtree) :
    language.topNodeByVisit subtree = language.topNode subtree := by
  simp only [topNodeByVisit, topNode, visitChildren_eq]

end Language

namespace Node

/-- What is known of a node besides its children. -/
def info : Node → NodeInfo
  | .mk info _ => info

/-- The nodes directly below a node. -/
def children : Node → List Node
  | .mk _ children => children

/-- The named nodes directly below a node. -/
def namedChildren (node : Node) : List Node :=
  node.children.filter fun child => child.info.named

/-- The nodes directly below that have a field. -/
def childrenByField (node : Node) (field : String) : List Node :=
  node.children.filter fun child => child.info.field == some field

/-- The first node directly below that has a field. -/
def childByField? (node : Node) (field : String) : Option Node :=
  (node.childrenByField field).head?

/-- The text of a node; none, if its bytes are no characters of the text. -/
def text (node : Node) (source : List Char) : String :=
  String.ofList ((sliceBytes? node.info.start node.info.finish source).getD [])

/-- A node as it is shown for inspection. -/
def debugText (node : Node) : String :=
  "\x7bNode " ++ node.info.kind ++ " " ++ toString node.info.start ++ ".." ++
    toString node.info.finish ++ "\x7d"

mutual

/-- A node and all below it with their depths, each before what is below it. -/
def preorder (depth : Nat) : Node → List (Nat × Node)
  | .mk info children => (depth, .mk info children) :: preorderOf (depth + 1) children

/-- Several nodes and all below them. -/
def preorderOf (depth : Nat) : List Node → List (Nat × Node)
  | [] => []
  | node :: nodes => node.preorder depth ++ preorderOf depth nodes

end

mutual

/-- The S-expression of a node: its kind and the named, missing and error nodes below it
with their fields. -/
def sexp : Node → String
  | .mk info children =>
      if info.missing then
        if info.named then "(MISSING " ++ info.kind ++ ")"
        else "(MISSING \"" ++ info.kind ++ "\")"
      else "(" ++ info.kind ++ sexpOf children ++ ")"

/-- The S-expressions of several nodes, each after a blank. -/
def sexpOf : List Node → String
  | [] => ""
  | node :: nodes =>
      let shown :=
        if node.info.named || node.info.missing then
          let label := (node.info.field.map fun field => field ++ ": ").getD ""
          " " ++ label ++ node.sexp
        else ""
      shown ++ sexpOf nodes

end

end Node

end Lalr
