import Lalr.Scanner
import Lalr.Tables.Basic

set_option autoImplicit false

/-!
Subtrees of a syntax tree. Positions are relative: a subtree knows the blank space
before it and its own length, so it can be used again at another place of a text.
-/

namespace Lalr

/-- The token behind a node when the node was completed. -/
structure Lookahead where
  raw : SymbolId
  symbol : SymbolId
  mode : ValidExternals
  /-- Whether the token was read in the normal course of the parse, right behind the
  node. -/
  reusable : Bool
deriving DecidableEq, Repr, Inhabited

/-- A token of the text. -/
structure Leaf where
  symbol : SymbolId
  /-- The symbol that was read, before it was adapted to the state of the parser. -/
  raw : SymbolId
  /-- Blank bytes before the token. -/
  padding : Nat
  size : Nat
  /-- The state in which the token was accepted. -/
  state : StateId
  /-- Bytes behind the token that reading it depended on. -/
  lookaheadBytes : Nat
  mode : ValidExternals
  scannerBefore : ScannerState
  scannerAfter : ScannerState
  extra : Bool
  missing : Bool
  /-- Whether the token was read ahead while recovering from an error. -/
  fragile : Bool
deriving DecidableEq, Repr, Inhabited

/-- What a node says besides its children. -/
structure NodeHead where
  symbol : SymbolId
  production : Option ProductionId
  /-- The state in which the first token of the node was accepted. -/
  state : StateId
  lookahead : Option Lookahead
  /-- Bytes behind the node that its tokens and its lookahead depended on. -/
  lookaheadBytes : Nat
  extra : Bool
deriving DecidableEq, Repr, Inhabited

/-- A subtree. -/
inductive Subtree where
  | leaf (token : Leaf)
  | node (head : NodeHead) (children : List Subtree)
deriving Repr, Inhabited

namespace Subtree

/-- The symbol of a subtree. -/
def symbol : Subtree → SymbolId
  | .leaf token => token.symbol
  | .node head _ => head.symbol

/-- The production a subtree was built by. -/
def production : Subtree → Option ProductionId
  | .leaf _ => none
  | .node head _ => head.production

/-- The children of a subtree. -/
def children : Subtree → List Subtree
  | .leaf _ => []
  | .node _ children => children

/-- The state in which the first token was accepted. -/
def state : Subtree → StateId
  | .leaf token => token.state
  | .node head _ => head.state

/-- Bytes behind the subtree that it depended on. -/
def lookaheadBytes : Subtree → Nat
  | .leaf token => token.lookaheadBytes
  | .node head _ => head.lookaheadBytes

/-- Extras do not count as children of a production. -/
def isExtra : Subtree → Bool
  | .leaf token => token.extra
  | .node head _ => head.extra

/-- A token of zero width put in by error recovery. -/
def isMissing : Subtree → Bool
  | .leaf token => token.missing
  | .node _ _ => false

/-- An error node or an unrecognised character. -/
def isError : Subtree → Bool
  | .leaf token => token.raw == errorSymbol
  | .node head _ => head.symbol == errorSymbol

/-- Blank bytes before the first child or token. -/
def padding : Subtree → Nat
  | .leaf token => token.padding
  | .node _ [] => 0
  | .node _ (child :: _) => child.padding

mutual

/-- The bytes of a subtree with the blank ones before it. -/
def length : Subtree → Nat
  | .leaf token => token.padding + token.size
  | .node _ children => lengths children

/-- The bytes of several subtrees in a row. -/
def lengths : List Subtree → Nat
  | [] => 0
  | child :: children => child.length + lengths children

end

mutual

/-- Whether a subtree is, or has within it, an error or a missing token. -/
def containsError : Subtree → Bool
  | .leaf token => token.raw == errorSymbol || token.missing
  | .node head children => head.symbol == errorSymbol || anyContainsError children

/-- Whether one of several subtrees contains an error. -/
def anyContainsError : List Subtree → Bool
  | [] => false
  | child :: children => child.containsError || anyContainsError children

end

mutual

/-- Whether a subtree contains a token that was read ahead during recovery. -/
def isFragile : Subtree → Bool
  | .leaf token => token.fragile
  | .node _ children => anyIsFragile children

/-- Whether one of several subtrees is fragile. -/
def anyIsFragile : List Subtree → Bool
  | [] => false
  | child :: children => child.isFragile || anyIsFragile children

end

mutual

/-- All tokens of a subtree, from left to right. -/
def leaves : Subtree → List Leaf
  | .leaf token => [token]
  | .node _ children => leavesOf children

/-- All tokens of several subtrees. -/
def leavesOf : List Subtree → List Leaf
  | [] => []
  | child :: children => child.leaves ++ leavesOf children

end

mutual

/-- The first token. -/
def firstLeaf? : Subtree → Option Leaf
  | .leaf token => some token
  | .node _ children => firstLeafOf? children

/-- The first token of several subtrees. -/
def firstLeafOf? : List Subtree → Option Leaf
  | [] => none
  | child :: children => child.firstLeaf?.or (firstLeafOf? children)

end

mutual

/-- The last token that is not an extra. -/
def lastLeaf? : Subtree → Option Leaf
  | .leaf token => if token.extra then none else some token
  | .node _ children => lastLeafOf? children

/-- The last token of several subtrees that is not an extra. -/
def lastLeafOf? : List Subtree → Option Leaf
  | [] => none
  | child :: children => (lastLeafOf? children).or child.lastLeaf?

end

/-- A node without a production that holds what could not be parsed. -/
def ofError (children : List Subtree) : Subtree :=
  .node ⟨errorSymbol, none, 0, none, 0, true⟩ children

/-- The node at the top of a tree. -/
def root (symbol : SymbolId) (production : Option ProductionId) (children : List Subtree) :
    Subtree :=
  .node ⟨symbol, production, 0, none, 0, false⟩ children

/-- What is known of a subtree from all of its tokens. -/
structure Summary where
  length : Nat
  containsError : Bool
  isFragile : Bool
deriving DecidableEq, Repr, Inhabited

/-- The summary of a subtree. -/
def summary (subtree : Subtree) : Summary :=
  ⟨subtree.length, subtree.containsError, subtree.isFragile⟩

/-- Whether a later parse may take a node over that has a given summary: it was built by a
production from tokens read in the normal course, holds text and no error, and starts with
its first token. -/
def isReusableWith (subtree : Subtree) (summary : Summary) : Bool :=
  match subtree with
  | .leaf _ => false
  | .node head _ =>
      head.production.isSome && subtree.padding < summary.length && !summary.containsError &&
        !summary.isFragile && !head.extra && head.lookahead.any Lookahead.reusable &&
        subtree.firstLeaf?.any fun token => token.padding == subtree.padding

/-- Whether a later parse may take a subtree over. -/
def isReusable (subtree : Subtree) : Bool :=
  subtree.isReusableWith subtree.summary

end Subtree

end Lalr
