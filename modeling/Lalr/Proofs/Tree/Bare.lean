import Lalr.Proofs.Tree.Outline

set_option autoImplicit false

/-!
Trees without their margins. How far reading looked past the end of a subtree decides whether an
edit touches it, and nothing else: two trees that differ in these margins alone show the same
nodes, and the same subtrees of them may be taken over.
-/

namespace Lalr

/-- A leaf without its margin. -/
def Leaf.bare (leaf : Leaf) : Leaf :=
  { leaf with lookaheadBytes := 0 }

/-- What a node says of itself without its margin. -/
def NodeHead.bare (head : NodeHead) : NodeHead :=
  { head with lookaheadBytes := 0 }

namespace Subtree

mutual

/-- A subtree without the margins in it. -/
def bare : Subtree → Subtree
  | .leaf token => .leaf token.bare
  | .node head children => .node head.bare (bares children)

/-- Several subtrees without the margins in them. -/
def bares : List Subtree → List Subtree
  | [] => []
  | child :: children => child.bare :: bares children

end

theorem bares_eq_map (children : List Subtree) : bares children = children.map bare := by
  induction children with
  | nil => rfl
  | cons child children ih => rw [bares, ih, List.map_cons]

@[simp] theorem bares_append (first second : List Subtree) :
    bares (first ++ second) = bares first ++ bares second := by
  simp [bares_eq_map]

mutual

@[simp] theorem bare_bare (subtree : Subtree) : subtree.bare.bare = subtree.bare := by
  cases subtree with
  | leaf token => rfl
  | node head children =>
      simp only [bare, bares_bares children]
      rfl

@[simp] theorem bares_bares (children : List Subtree) : bares (bares children) = bares children := by
  cases children with
  | nil => rfl
  | cons child children => simp only [bares, bare_bare child, bares_bares children]

end

/-! ## What margins have no part in -/

@[simp] theorem symbol_bare (subtree : Subtree) : subtree.bare.symbol = subtree.symbol := by
  cases subtree <;> rfl

@[simp] theorem production_bare (subtree : Subtree) :
    subtree.bare.production = subtree.production := by
  cases subtree <;> rfl

@[simp] theorem isExtra_bare (subtree : Subtree) : subtree.bare.isExtra = subtree.isExtra := by
  cases subtree <;> rfl

@[simp] theorem children_bare (subtree : Subtree) :
    subtree.bare.children = subtree.children.map bare := by
  cases subtree with
  | leaf token => rfl
  | node head children => exact bares_eq_map children

mutual

@[simp] theorem length_bare (subtree : Subtree) : subtree.bare.length = subtree.length := by
  cases subtree with
  | leaf token => rfl
  | node head children => simp only [bare, length, lengths_bares children]

@[simp] theorem lengths_bares (children : List Subtree) :
    lengths (bares children) = lengths children := by
  cases children with
  | nil => rfl
  | cons child children =>
      simp only [bares, lengths, length_bare child, lengths_bares children]

end

@[simp] theorem padding_bare (subtree : Subtree) : subtree.bare.padding = subtree.padding := by
  match subtree with
  | .leaf token => rfl
  | .node head [] => rfl
  | .node head (child :: children) => exact padding_bare child

mutual

@[simp] theorem containsError_bare (subtree : Subtree) :
    subtree.bare.containsError = subtree.containsError := by
  cases subtree with
  | leaf token => rfl
  | node head children =>
      simp only [bare, containsError, anyContainsError_bares children]
      rfl

@[simp] theorem anyContainsError_bares (children : List Subtree) :
    anyContainsError (bares children) = anyContainsError children := by
  cases children with
  | nil => rfl
  | cons child children =>
      simp only [bares, anyContainsError, containsError_bare child,
        anyContainsError_bares children]

end

mutual

@[simp] theorem isFragile_bare (subtree : Subtree) :
    subtree.bare.isFragile = subtree.isFragile := by
  cases subtree with
  | leaf token => rfl
  | node head children => simp only [bare, isFragile, anyIsFragile_bares children]

@[simp] theorem anyIsFragile_bares (children : List Subtree) :
    anyIsFragile (bares children) = anyIsFragile children := by
  cases children with
  | nil => rfl
  | cons child children =>
      simp only [bares, anyIsFragile, isFragile_bare child, anyIsFragile_bares children]

end

mutual

@[simp] theorem firstLeaf?_bare (subtree : Subtree) :
    subtree.bare.firstLeaf? = subtree.firstLeaf?.map Leaf.bare := by
  cases subtree with
  | leaf token => rfl
  | node head children => exact firstLeafOf?_bares children

@[simp] theorem firstLeafOf?_bares (children : List Subtree) :
    firstLeafOf? (bares children) = (firstLeafOf? children).map Leaf.bare := by
  cases children with
  | nil => rfl
  | cons child children =>
      simp only [bares, firstLeafOf?, firstLeaf?_bare child, firstLeafOf?_bares children]
      cases child.firstLeaf? <;> rfl

end

mutual

@[simp] theorem lastLeaf?_bare (subtree : Subtree) :
    subtree.bare.lastLeaf? = subtree.lastLeaf?.map Leaf.bare := by
  cases subtree with
  | leaf token =>
      simp only [bare, lastLeaf?, Leaf.bare]
      split <;> rfl
  | node head children => exact lastLeafOf?_bares children

@[simp] theorem lastLeafOf?_bares (children : List Subtree) :
    lastLeafOf? (bares children) = (lastLeafOf? children).map Leaf.bare := by
  cases children with
  | nil => rfl
  | cons child children =>
      simp only [bares, lastLeafOf?, lastLeaf?_bare child, lastLeafOf?_bares children]
      cases lastLeafOf? children <;> rfl

end

mutual

theorem leaves_bare (subtree : Subtree) : subtree.bare.leaves = subtree.leaves.map Leaf.bare := by
  cases subtree with
  | leaf token => rfl
  | node head children => exact leavesOf_bares children

theorem leavesOf_bares (children : List Subtree) :
    leavesOf (bares children) = (leavesOf children).map Leaf.bare := by
  cases children with
  | nil => rfl
  | cons child children =>
      rw [bares, leavesOf, leavesOf, leaves_bare child, leavesOf_bares children,
        List.map_append]

end

mutual

@[simp] theorem outline_bare (subtree : Subtree) : subtree.bare.outline = subtree.outline := by
  cases subtree with
  | leaf token => rfl
  | node head children =>
      simp only [bare, outline, outlines_bares children]
      rfl

@[simp] theorem outlines_bares (children : List Subtree) :
    outlines (bares children) = outlines children := by
  cases children with
  | nil => rfl
  | cons child children => simp only [bares, outlines, outline_bare child, outlines_bares children]

end

/-- Margins have no part in whether a subtree may be taken over. -/
@[simp] theorem isReusable_bare (subtree : Subtree) :
    subtree.bare.isReusable = subtree.isReusable := by
  cases subtree with
  | leaf token => rfl
  | node head children =>
      have own (property : Leaf → Bool) (blind : ∀ leaf : Leaf, property leaf.bare = property leaf) :
          (Subtree.node head children).bare.firstLeaf?.any property =
            (Subtree.node head children).firstLeaf?.any property := by
        rw [firstLeaf?_bare, Option.any_map]
        congr 1
        exact funext blind
      unfold isReusable isReusableWith
      simp only [summary, length_bare, containsError_bare, isFragile_bare, padding_bare]
      rw [own _ fun _ => rfl]
      rfl

theorem bare_eq_node {subtree : Subtree} {head : NodeHead} {children : List Subtree}
    (same : subtree.bare = .node head children) :
    ∃ head' children', subtree = .node head' children' ∧ head'.bare = head ∧
      bares children' = children := by
  cases subtree with
  | leaf token => cases same
  | node head' children' =>
      obtain ⟨rfl, rfl⟩ := Subtree.node.inj same
      exact ⟨head', children', rfl, rfl, rfl⟩

end Subtree

/-! ## The nodes of a bare tree -/

theorem Moved.refl (place : Nat) (shapes : List LeafShape) : Moved Eq place place shapes shapes := by
  induction shapes generalizing place with
  | nil => exact .nil rfl
  | cons shape shapes ih => exact .cons rfl rfl (ih _)

/-- Trees that differ in their margins alone show the same nodes. -/
theorem Tree.rootNode_eq_of_bare {first second : Tree} (language : first.language = second.language)
    (same : first.root.bare = second.root.bare) : first.rootNode = second.rootNode := by
  have outline : first.root.outline = second.root.outline := by
    rw [← Subtree.outline_bare first.root, same, Subtree.outline_bare]
  have shapes : first.root.leaves.map Leaf.shape = second.root.leaves.map Leaf.shape := by
    have leaves : first.root.leaves.map Leaf.bare = second.root.leaves.map Leaf.bare := by
      rw [← Subtree.leaves_bare, same, Subtree.leaves_bare]
    have blind : ∀ leaves : List Leaf, (leaves.map Leaf.bare).map Leaf.shape =
        leaves.map Leaf.shape := by
      intro leaves
      rw [List.map_map]
      rfl
    rw [← blind, leaves, blind]
  have moved : first.rootNode.moved id = second.rootNode.moved id :=
    Tree.moved_rootNode language outline (shapes ▸ Moved.refl 0 _)
  rwa [Node.moved_id, Node.moved_id] at moved

end Lalr
