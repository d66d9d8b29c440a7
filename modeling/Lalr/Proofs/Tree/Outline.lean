import Lalr.Parser.Document
import Lalr.Proofs.Parser.Leaves

set_option autoImplicit false

/-!
Trees of one outline. What is left of a tree without its lengths decides its nodes up to their
places, and these follow from where its leaves stand.
-/

namespace Lalr

/-- A leaf without its lengths. -/
def Leaf.outline (leaf : Leaf) : Leaf :=
  { leaf with padding := 0, size := 0, lookaheadBytes := 0 }

/-- What a node says of itself alone, and not of what stands behind it. -/
def NodeHead.outline (head : NodeHead) : NodeHead :=
  { head with lookahead := none, lookaheadBytes := 0 }

namespace Subtree

mutual

/-- A subtree without lengths. -/
def outline : Subtree → Subtree
  | .leaf token => .leaf token.outline
  | .node head children => .node head.outline (outlines children)

/-- Several subtrees without lengths. -/
def outlines : List Subtree → List Subtree
  | [] => []
  | child :: children => child.outline :: outlines children

end

theorem outlines_eq_map (children : List Subtree) : outlines children = children.map outline := by
  induction children with
  | nil => rfl
  | cons child children ih => rw [outlines, ih, List.map_cons]

@[simp] theorem symbol_outline (subtree : Subtree) : subtree.outline.symbol = subtree.symbol := by
  cases subtree <;> rfl

@[simp] theorem production_outline (subtree : Subtree) :
    subtree.outline.production = subtree.production := by
  cases subtree <;> rfl

@[simp] theorem isExtra_outline (subtree : Subtree) : subtree.outline.isExtra = subtree.isExtra := by
  cases subtree <;> rfl

@[simp] theorem isMissing_outline (subtree : Subtree) :
    subtree.outline.isMissing = subtree.isMissing := by
  cases subtree <;> rfl

@[simp] theorem isError_outline (subtree : Subtree) : subtree.outline.isError = subtree.isError := by
  cases subtree <;> rfl

@[simp] theorem children_outline (subtree : Subtree) :
    subtree.outline.children = subtree.children.map outline := by
  cases subtree with
  | leaf token => rfl
  | node head children => exact outlines_eq_map children

mutual

@[simp] theorem containsError_outline (subtree : Subtree) :
    subtree.outline.containsError = subtree.containsError := by
  cases subtree with
  | leaf token => rfl
  | node head children =>
      simp only [outline, containsError, anyContainsError_outlines children]
      rfl

@[simp] theorem anyContainsError_outlines (children : List Subtree) :
    anyContainsError (outlines children) = anyContainsError children := by
  cases children with
  | nil => rfl
  | cons child children =>
      simp only [outlines, anyContainsError, containsError_outline child,
        anyContainsError_outlines children]

end

mutual

theorem leaves_outline (subtree : Subtree) :
    subtree.outline.leaves = subtree.leaves.map Leaf.outline := by
  cases subtree with
  | leaf token => rfl
  | node head children => exact leavesOf_outlines children

theorem leavesOf_outlines (children : List Subtree) :
    leavesOf (outlines children) = (leavesOf children).map Leaf.outline := by
  cases children with
  | nil => rfl
  | cons child children =>
      rw [outlines, leavesOf, leavesOf, leaves_outline child, leavesOf_outlines children,
        List.map_append]

end

end Subtree

/-! ## Places -/

/-- Leaves of the first shapes, one behind the other from one offset on, begin and end at places
that correspond to those of leaves of the second shapes from another offset on. -/
inductive Moved (corresponds : Nat → Nat → Prop) :
    Nat → Nat → List LeafShape → List LeafShape → Prop where
  | nil {place other : Nat} : corresponds place other → Moved corresponds place other [] []
  | cons {place other padding size padding' size' : Nat} {raw raw' : SymbolId}
      {shapes others : List LeafShape} :
      corresponds place other → corresponds (place + padding) (other + padding') →
      Moved corresponds (place + padding + size) (other + padding' + size') shapes others →
        Moved corresponds place other ((padding, size, raw) :: shapes)
          ((padding', size', raw') :: others)

/-- The bytes of leaves of some shapes. -/
def shapesLength : List LeafShape → Nat
  | [] => 0
  | (padding, size, _) :: shapes => padding + size + shapesLength shapes

theorem shapesLength_append (shapes others : List LeafShape) :
    shapesLength (shapes ++ others) = shapesLength shapes + shapesLength others := by
  induction shapes with
  | nil => simp [shapesLength]
  | cons shape shapes ih => simp [shapesLength, ih, Nat.add_assoc]

namespace Subtree

mutual

theorem shapesLength_leaves (subtree : Subtree) :
    shapesLength (subtree.leaves.map Leaf.shape) = subtree.length := by
  cases subtree with
  | leaf token => rfl
  | node head children => exact shapesLength_leavesOf children

theorem shapesLength_leavesOf (children : List Subtree) :
    shapesLength ((leavesOf children).map Leaf.shape) = lengths children := by
  cases children with
  | nil => rfl
  | cons child children =>
      rw [leavesOf, List.map_append, shapesLength_append, shapesLength_leaves child,
        shapesLength_leavesOf children, lengths]

end

end Subtree

namespace Moved

variable {corresponds : Nat → Nat → Prop} {place other : Nat} {shapes others : List LeafShape}

theorem start (moved : Moved corresponds place other shapes others) : corresponds place other := by
  cases moved with
  | nil here => exact here
  | cons here => exact here

theorem finish (moved : Moved corresponds place other shapes others) :
    corresponds (place + shapesLength shapes) (other + shapesLength others) := by
  induction moved with
  | nil here => exact here
  | cons _ _ _ ih =>
      simp only [Nat.add_assoc] at ih
      simpa only [shapesLength, Nat.add_assoc] using ih

theorem mono {also : Nat → Nat → Prop} (more : ∀ {first second}, corresponds first second →
    also first second) (moved : Moved corresponds place other shapes others) :
    Moved also place other shapes others := by
  induction moved with
  | nil here => exact .nil (more here)
  | cons here token _ ih => exact .cons (more here) (more token) ih

theorem append {behind behind' : List LeafShape}
    (front : Moved corresponds place other shapes others)
    (back : Moved corresponds (place + shapesLength shapes) (other + shapesLength others) behind
      behind') : Moved corresponds place other (shapes ++ behind) (others ++ behind') := by
  induction front with
  | nil => exact back
  | cons here token _ ih =>
      refine .cons here token (ih ?_)
      simpa only [shapesLength, ← Nat.add_assoc] using back

theorem split {front back front' back' : List LeafShape}
    (moved : Moved corresponds place other (front ++ back) (front' ++ back'))
    (same : front.length = front'.length) :
    Moved corresponds place other front front' ∧
      Moved corresponds (place + shapesLength front) (other + shapesLength front') back back' := by
  induction front generalizing front' place other with
  | nil =>
      obtain rfl := List.length_eq_zero_iff.mp same.symm
      exact ⟨.nil moved.start, moved⟩
  | cons shape front ih =>
      cases front' with
      | nil => cases same
      | cons shape' front' =>
          cases moved with
          | cons here token rest =>
              obtain ⟨first, second⟩ := ih rest (Nat.succ.inj same)
              refine ⟨.cons here token first, ?_⟩
              simpa only [shapesLength, ← Nat.add_assoc] using second

end Moved

/-- Missing tokens take no text, so they stand where the leaves around them do. -/
theorem Moved.of_solid {corresponds : Nat → Nat → Prop} {place other : Nat} {first second : List Leaf}
    (same : first.map Leaf.outline = second.map Leaf.outline) (empty : MissingAreEmpty first)
    (empty' : MissingAreEmpty second)
    (moved : Moved corresponds place other (solidShapes first) (solidShapes second)) :
    Moved corresponds place other (first.map Leaf.shape) (second.map Leaf.shape) := by
  induction first generalizing second place other with
  | nil =>
      obtain rfl := List.map_eq_nil_iff.mp same.symm
      exact moved
  | cons leaf first ih =>
      cases second with
      | nil => cases same
      | cons leaf' second =>
          obtain ⟨alike, rest⟩ := List.cons.inj same
          have missing : leaf'.missing = leaf.missing := (congrArg Leaf.missing alike).symm
          have behind : ∀ {place other : Nat},
              Moved corresponds place other (solidShapes first) (solidShapes second) →
              Moved corresponds place other (first.map Leaf.shape) (second.map Leaf.shape) :=
            fun rests => ih rest (fun other member => empty other (List.mem_cons_of_mem _ member))
              (fun other member => empty' other (List.mem_cons_of_mem _ member)) rests
          cases isMissing : leaf.missing with
          | true =>
              obtain ⟨padding, size⟩ := empty leaf List.mem_cons_self isMissing
              obtain ⟨padding', size'⟩ :=
                empty' leaf' List.mem_cons_self (missing.trans isMissing)
              simp only [solidShapes, List.filter_cons, missing, isMissing, Bool.not_true,
                Bool.false_eq_true, if_false] at moved
              simp only [List.map_cons, Leaf.shape, padding, size, padding', size']
              exact .cons moved.start moved.start (behind moved)
          | false =>
              simp only [solidShapes, List.filter_cons, missing, isMissing, Bool.not_false,
                if_true, List.map_cons] at moved
              cases moved with
              | cons here token rests => exact .cons here token (behind rests)

/-! ## Nodes -/

namespace Node

mutual

/-- A node and all below it with every offset changed. -/
def moved (change : Nat → Nat) : Node → Node
  | .mk info children =>
      .mk { info with start := change info.start, finish := change info.finish }
        (allMoved change children)

/-- Several nodes with every offset changed. -/
def allMoved (change : Nat → Nat) : List Node → List Node
  | [] => []
  | node :: nodes => node.moved change :: allMoved change nodes

end

variable {change : Nat → Nat}

theorem allMoved_append (nodes others : List Node) :
    allMoved change (nodes ++ others) = allMoved change nodes ++ allMoved change others := by
  induction nodes with
  | nil => rfl
  | cons node nodes ih => rw [List.cons_append, allMoved, ih, allMoved, List.cons_append]

mutual

theorem moved_id (node : Node) : node.moved id = node := by
  cases node with
  | mk info children => rw [moved, allMoved_id children]; rfl

theorem allMoved_id (nodes : List Node) : allMoved id nodes = nodes := by
  cases nodes with
  | nil => rfl
  | cons node nodes => rw [allMoved, moved_id node, allMoved_id nodes]

end

theorem info_moved (node : Node) : (node.moved change).info =
    { node.info with start := change node.info.start, finish := change node.info.finish } := by
  cases node with
  | mk info children => rfl

mutual

theorem sexp_moved (node : Node) : (node.moved change).sexp = node.sexp := by
  cases node with
  | mk info children => simp only [moved, sexp, sexpOf_allMoved children]

theorem sexpOf_allMoved (nodes : List Node) : sexpOf (allMoved change nodes) = sexpOf nodes := by
  cases nodes with
  | nil => rfl
  | cons node nodes =>
      simp only [allMoved, sexpOf, info_moved, sexp_moved node, sexpOf_allMoved nodes]

end

end Node

namespace Subtree

variable {corresponds : Nat → Nat → Prop} {first second : Subtree}

theorem outline_eq_of_leaf {token : Leaf} (same : (Subtree.leaf token).outline = second.outline) :
    ∃ other, second = .leaf other ∧ token.outline = other.outline := by
  cases second with
  | leaf other => exact ⟨other, rfl, Subtree.leaf.inj same⟩
  | node head children => cases same

theorem outline_eq_of_node {head : NodeHead} {children : List Subtree}
    (same : (Subtree.node head children).outline = second.outline) :
    ∃ head' children', second = .node head' children' ∧ head.outline = head'.outline ∧
      outlines children = outlines children' := by
  cases second with
  | leaf other => cases same
  | node head' children' =>
      obtain ⟨heads, below⟩ := Subtree.node.inj same
      exact ⟨head', children', rfl, heads, below⟩

theorem outlines_eq_of_cons {child : Subtree} {children others : List Subtree}
    (same : outlines (child :: children) = outlines others) :
    ∃ other rest, others = other :: rest ∧ child.outline = other.outline ∧
      outlines children = outlines rest := by
  cases others with
  | nil => cases same
  | cons other rest =>
      obtain ⟨alike, below⟩ := List.cons.inj same
      exact ⟨other, rest, rfl, alike, below⟩

theorem length_leaves_eq (same : first.outline = second.outline) :
    (first.leaves.map Leaf.shape).length = (second.leaves.map Leaf.shape).length := by
  have listed := congrArg (fun subtree => subtree.leaves.length) same
  simpa only [leaves_outline, List.length_map] using listed

theorem padding_le_length (subtree : Subtree) : subtree.padding ≤ subtree.length := by
  match subtree with
  | .leaf token => exact Nat.le_add_right _ _
  | .node _ [] => exact Nat.zero_le _
  | .node _ (child :: _) =>
      exact Nat.le_trans child.padding_le_length (Nat.le_add_right _ _)

/-- The first token of a subtree begins at corresponding places. -/
theorem corresponds_padding {first second : Subtree} {place other : Nat} (same : first.outline = second.outline)
    (moved : Moved corresponds place other (first.leaves.map Leaf.shape)
      (second.leaves.map Leaf.shape)) :
    corresponds (place + first.padding) (other + second.padding) := by
  match first with
  | .leaf token =>
      obtain ⟨token', rfl, _⟩ := outline_eq_of_leaf same
      cases moved with
      | cons _ begins _ => exact begins
  | .node head [] =>
      obtain ⟨head', children, rfl, _, below⟩ := outline_eq_of_node same
      cases children with
      | cons child children => cases below
      | nil => exact moved.start
  | .node head (child :: children) =>
      obtain ⟨head', others, rfl, _, below⟩ := outline_eq_of_node same
      obtain ⟨child', rest, rfl, alike, _⟩ := outlines_eq_of_cons below
      simp only [leaves, leavesOf, List.map_append] at moved
      have inside := corresponds_padding alike (moved.split (length_leaves_eq alike)).1
      exact inside

end Subtree

namespace Language

variable (language : Language) {change change' : Nat → Nat}

theorem shows_congr {first second : Subtree} (same : first.outline = second.outline)
    (shownAs : Option SymbolId) : language.shows shownAs first = language.shows shownAs second := by
  have error := congrArg Subtree.isError same
  have symbol := congrArg Subtree.symbol same
  rw [Subtree.isError_outline, Subtree.isError_outline] at error
  rw [Subtree.symbol_outline, Subtree.symbol_outline] at symbol
  rw [shows, shows, error, symbol]

/-- What is known of a node besides its place. -/
theorem nodeInfo_congr {first second : Subtree} (same : first.outline = second.outline)
    {place other : Nat} (shownAs : Option SymbolId) (field : Option FieldId)
    (moved : Moved (fun place other => change place = change' other) place other
      (first.leaves.map Leaf.shape) (second.leaves.map Leaf.shape)) :
    let info := language.nodeInfo ⟨place, shownAs, field⟩ first
    let info' := language.nodeInfo ⟨other, shownAs, field⟩ second
    ({ info with start := change info.start, finish := change info.finish } : NodeInfo) =
      { info' with start := change' info'.start, finish := change' info'.finish } := by
  have error := congrArg Subtree.isError same
  have symbol := congrArg Subtree.symbol same
  have extra := congrArg Subtree.isExtra same
  have missing := congrArg Subtree.isMissing same
  have contains := congrArg Subtree.containsError same
  have children := congrArg (fun subtree => subtree.children.isEmpty) same
  simp only [Subtree.isError_outline, Subtree.symbol_outline, Subtree.isExtra_outline,
    Subtree.isMissing_outline, Subtree.containsError_outline, Subtree.children_outline,
    List.isEmpty_map] at error symbol extra missing contains children
  have start := Subtree.corresponds_padding same moved
  have finish := moved.finish
  rw [Subtree.shapesLength_leaves, Subtree.shapesLength_leaves] at finish
  have short := first.padding_le_length
  have short' := second.padding_le_length
  have ends : place + first.padding + (first.length - first.padding) = place + first.length := by
    omega
  have ends' : other + second.padding + (second.length - second.padding) =
      other + second.length := by
    omega
  simp only [nodeInfo, nodeInfoOf, error, symbol, extra, missing, contains, children, ends, ends',
    start, finish]

theorem placement_congr {first second : Subtree} (same : first.outline = second.outline)
    (production : Option ProductionId) (inherited : Option FieldId) (start other index : Nat) :
    let found := language.placement production inherited start index first
    language.placement production inherited other index second = { found with start := other } ∧
      found.start = start := by
  have extra := congrArg Subtree.isExtra same
  rw [Subtree.isExtra_outline, Subtree.isExtra_outline] at extra
  simp only [placement, ← extra]
  split <;> exact ⟨rfl, rfl⟩

mutual

/-- Subtrees of one outline have the same nodes up to the offsets, which correspond as those of
the leaves do. -/
theorem allMoved_visibleNodes {first second : Subtree} (same : first.outline = second.outline)
    {place other : Nat} (shownAs : Option SymbolId) (field : Option FieldId)
    (moved : Moved (fun place other => change place = change' other) place other
      (first.leaves.map Leaf.shape) (second.leaves.map Leaf.shape)) :
    Node.allMoved change (language.visibleNodes ⟨place, shownAs, field⟩ first) =
      Node.allMoved change' (language.visibleNodes ⟨other, shownAs, field⟩ second) := by
  have shown := language.shows_congr same shownAs
  have info := language.nodeInfo_congr same shownAs field moved
  match first with
  | .leaf token =>
      obtain ⟨token', rfl, _⟩ := Subtree.outline_eq_of_leaf same
      simp only [visibleNodes, shown]
      split
      · simp only [Node.allMoved, Node.moved, info]
      · rfl
  | .node head children =>
      obtain ⟨head', children', rfl, heads, below⟩ := Subtree.outline_eq_of_node same
      have production := congrArg NodeHead.production heads
      change head.production = head'.production at production
      simp only [Subtree.leaves] at moved
      simp only [visibleNodes, shown, production]
      split
      · simp only [Node.allMoved, Node.moved, info,
          allMoved_visibleChildren below head'.production none 0 moved]
      · exact allMoved_visibleChildren below head'.production field 0 moved

/-- The children of a production have the same nodes up to the offsets. -/
theorem allMoved_visibleChildren {first second : List Subtree}
    (same : Subtree.outlines first = Subtree.outlines second) {place other : Nat}
    (production : Option ProductionId) (inherited : Option FieldId) (index : Nat)
    (moved : Moved (fun place other => change place = change' other) place other
      ((Subtree.leavesOf first).map Leaf.shape) ((Subtree.leavesOf second).map Leaf.shape)) :
    Node.allMoved change (language.visibleChildren production inherited place index first) =
      Node.allMoved change' (language.visibleChildren production inherited other index second) := by
  match first with
  | [] =>
      cases second with
      | nil => rfl
      | cons child rest => cases same
  | child :: rest =>
      obtain ⟨child', rest', rfl, alike, below⟩ := Subtree.outlines_eq_of_cons same
      have extra := congrArg Subtree.isExtra alike
      rw [Subtree.isExtra_outline, Subtree.isExtra_outline] at extra
      simp only [Subtree.leavesOf, List.map_append] at moved
      obtain ⟨here, behind⟩ := moved.split (Subtree.length_leaves_eq alike)
      rw [Subtree.shapesLength_leaves, Subtree.shapesLength_leaves] at behind
      obtain ⟨placed, start⟩ := language.placement_congr alike production inherited place other index
      simp only [visibleChildren, Node.allMoved_append, placed, extra]
      generalize language.placement production inherited place index child = found at start
      obtain ⟨_, shownAs, field⟩ := found
      obtain rfl := start
      rw [allMoved_visibleNodes alike shownAs field here,
        allMoved_visibleChildren below production inherited _ behind]

end

theorem moved_topNode {first second : Subtree} (same : first.outline = second.outline)
    (moved : Moved (fun place other => change place = change' other) 0 0
      (first.leaves.map Leaf.shape) (second.leaves.map Leaf.shape)) :
    (language.topNode first).moved change = (language.topNode second).moved change' := by
  have info := language.nodeInfo_congr same none none moved
  have production := congrArg Subtree.production same
  rw [Subtree.production_outline, Subtree.production_outline] at production
  match first with
  | .leaf token =>
      obtain ⟨token', rfl, _⟩ := Subtree.outline_eq_of_leaf same
      simp only [topNode, Node.moved, info]
      rfl
  | .node head children =>
      obtain ⟨head', children', rfl, _, below⟩ := Subtree.outline_eq_of_node same
      simp only [Subtree.leaves] at moved
      simp only [topNode, Node.moved, info, production, Subtree.children,
        language.allMoved_visibleChildren below _ none 0 moved]

end Language

/-- Trees of one outline and language whose leaves stand at corresponding places have the same
nodes up to this correspondence. -/
theorem Tree.moved_rootNode {first second : Tree} {change change' : Nat → Nat}
    (language : first.language = second.language) (same : first.root.outline = second.root.outline)
    (moved : Moved (fun place other => change place = change' other) 0 0
      (first.root.leaves.map Leaf.shape) (second.root.leaves.map Leaf.shape)) :
    first.rootNode.moved change = second.rootNode.moved change' := by
  simp only [rootNode, Language.topNodeByVisit_eq, language]
  exact second.language.language.moved_topNode same moved

end Lalr
