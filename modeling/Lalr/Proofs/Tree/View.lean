import Lalr.Proofs.Parser.Stack
import Lalr.Proofs.Tree.Candidate
import Lalr.Proofs.Tree.Outline

set_option autoImplicit false

/-!
The nodes of a tree against its subtrees. All parts of a subtree are numbered by paths, in the
order of the text; the nodes are those parts that are shown, each with the nearest of them below
it as its children.
-/

namespace Lalr

/-- A subtree with the byte at which its blank space starts, and with the alias and the field of
its own that it has in the production above. -/
structure Sight where
  place : Placement
  subtree : Subtree

/-- A part of a subtree. -/
structure Part where
  /-- The numbers of the children on the way to the part. -/
  path : List Nat
  /-- The subtrees on the way, the outermost first, without the one that is started from. -/
  around : List Sight
  sight : Sight

namespace Part

/-- A part of a child, seen from the subtree above. -/
def within (number : Nat) (sight : Sight) (part : Part) : Part :=
  ⟨number :: part.path, sight :: part.around, part.sight⟩

@[simp] theorem path_within (number : Nat) (sight : Sight) (part : Part) :
    (part.within number sight).path = number :: part.path :=
  rfl

@[simp] theorem around_within (number : Nat) (sight : Sight) (part : Part) :
    (part.within number sight).around = sight :: part.around :=
  rfl

@[simp] theorem sight_within (number : Nat) (sight : Sight) (part : Part) :
    (part.within number sight).sight = part.sight :=
  rfl

end Part

namespace Subtree

/-- The subtree that a path of child numbers leads to. -/
def partAt? (subtree : Subtree) : List Nat → Option Subtree
  | [] => some subtree
  | number :: path => subtree.children[number]?.bind fun child => child.partAt? path

/-- A node is an error, and then it has no production, or it is no extra and the errors among its
children are extras. -/
def Regular : Subtree → Prop
  | .leaf _ => True
  | .node head children =>
      head.symbol = errorSymbol ∧ head.production = none ∨
        head.extra = false ∧ ∀ child ∈ children, child.isError = true → child.isExtra = true

end Subtree

namespace Language

open Subtree

variable (language : Language)

/-! ## Parts -/

mutual

/-- All parts of a subtree below itself, each before those within it, if the blank space of the
subtree starts at a given byte. -/
def parts (start : Nat) : Subtree → List Part
  | .leaf _ => []
  | .node head children => partsBehind head.production start [] children

/-- The parts of the children of a production that stand behind some others. Each child starts
where these end, and only those of them that are no extras count as symbols of the production. -/
def partsBehind (production : Option ProductionId) (start : Nat) (before : List Subtree) :
    List Subtree → List Part
  | [] => []
  | child :: rest =>
      let place := language.placement production none (start + lengths before)
        (structuralSymbols before).length child
      ⟨[before.length], [], ⟨place, child⟩⟩ ::
        (parts (start + lengths before) child).map (Part.within before.length ⟨place, child⟩) ++
          partsBehind production start (before ++ [child]) rest

end

/-- Whether a subtree is shown as a node where it stands. -/
def isShown (sight : Sight) : Bool :=
  language.shows sight.place.shownAs sight.subtree

/-- Whether a part is shown and nothing around it is. -/
def isTopmost (part : Part) : Bool :=
  part.around.all (fun sight => !language.isShown sight) && language.isShown part.sight

/-- The field of a part in the node above: the innermost one among its own and those of the hidden
subtrees around it, up to that node. Extras have none. -/
def fieldOf (part : Part) : Option FieldId :=
  if part.sight.subtree.isExtra then none
  else (part.sight :: part.around.reverse.takeWhile fun sight => !language.isShown sight).findSome?
    fun sight => sight.place.field

/-- The node of a subtree that is shown. -/
def nodeOf (place : Placement) (subtree : Subtree) : Node :=
  .mk (language.nodeInfo place subtree)
    (language.visibleChildren subtree.production none place.start 0 subtree.children)

/-- The node of a part that is shown. -/
def partNode (part : Part) : Node :=
  language.nodeOf { part.sight.place with field := language.fieldOf part } part.sight.subtree

variable {language}

mutual

/-- The path of a part leads to it. -/
theorem partAt?_of_mem_parts {start : Nat} {subtree : Subtree} {part : Part}
    (listed : part ∈ language.parts start subtree) :
    part.path ≠ [] ∧ subtree.partAt? part.path = some part.sight.subtree := by
  cases subtree with
  | leaf token => exact absurd listed List.not_mem_nil
  | node head children =>
      obtain ⟨number, path, _, same, found⟩ := partAt?_of_mem_partsBehind listed
      rw [List.length_nil, Nat.zero_add] at same
      exact ⟨by simp [same], by rw [same]; exact found⟩

theorem partAt?_of_mem_partsBehind {production : Option ProductionId} {start : Nat}
    {before children : List Subtree} {part : Part}
    (listed : part ∈ language.partsBehind production start before children) :
    ∃ number path, number < children.length ∧ part.path = (before.length + number) :: path ∧
      (children[number]?.bind fun child => child.partAt? path) = some part.sight.subtree := by
  cases children with
  | nil => exact absurd listed List.not_mem_nil
  | cons child rest =>
      rw [partsBehind, List.mem_append, List.mem_cons, List.mem_map] at listed
      rcases listed with (rfl | ⟨inner, inside, rfl⟩) | later
      · exact ⟨0, [], Nat.succ_pos _, rfl, rfl⟩
      · exact ⟨0, inner.path, Nat.succ_pos _, rfl, (partAt?_of_mem_parts inside).2⟩
      · obtain ⟨number, path, bound, same, found⟩ := partAt?_of_mem_partsBehind later
        refine ⟨number + 1, path, Nat.succ_lt_succ bound, ?_, found⟩
        rw [same, List.length_append, List.length_singleton, Nat.add_assoc, Nat.add_comm 1]

end

mutual

/-- Every path that leads somewhere below a subtree is the path of a part. -/
theorem exists_mem_parts (start : Nat) {subtree target : Subtree} {path : List Nat}
    (below : path ≠ []) (leads : subtree.partAt? path = some target) :
    ∃ part ∈ language.parts start subtree, part.path = path := by
  cases path with
  | nil => exact absurd rfl below
  | cons number path =>
      cases subtree with
      | leaf token => simp [partAt?, children] at leads
      | node head children =>
          obtain ⟨part, listed, same⟩ :=
            exists_mem_partsBehind head.production start [] children leads
          exact ⟨part, listed, by simpa using same⟩

theorem exists_mem_partsBehind (production : Option ProductionId) (start : Nat)
    (before children : List Subtree) {target : Subtree} {number : Nat} {path : List Nat}
    (leads : (children[number]?.bind fun child => child.partAt? path) = some target) :
    ∃ part ∈ language.partsBehind production start before children,
      part.path = (before.length + number) :: path := by
  cases children with
  | nil => simp at leads
  | cons child rest =>
      rw [partsBehind]
      cases number with
      | zero =>
          cases path with
          | nil => exact ⟨_, List.mem_append_left _ List.mem_cons_self, rfl⟩
          | cons next path =>
              obtain ⟨part, listed, same⟩ := exists_mem_parts (start + lengths before)
                (List.cons_ne_nil next path) leads
              refine ⟨_, List.mem_append_left _ (List.mem_cons_of_mem _
                (List.mem_map_of_mem listed)), ?_⟩
              simp [same]
      | succ number =>
          obtain ⟨part, listed, same⟩ :=
            exists_mem_partsBehind production start (before ++ [child]) rest leads
          refine ⟨part, List.mem_append_right _ listed, ?_⟩
          rw [same, List.length_append, List.length_singleton, Nat.add_assoc, Nat.add_comm 1]

end

/-- The paths that lead below a subtree are just those of its parts. -/
theorem partAt?_iff {start : Nat} {subtree target : Subtree} {path : List Nat} (below : path ≠ []) :
    subtree.partAt? path = some target ↔
      ∃ part ∈ language.parts start subtree, part.path = path ∧ part.sight.subtree = target := by
  constructor
  · intro leads
    obtain ⟨part, listed, same⟩ := exists_mem_parts start below leads
    have found := (partAt?_of_mem_parts listed).2
    rw [same, leads] at found
    exact ⟨part, listed, same, (Option.some.inj found).symm⟩
  · rintro ⟨part, listed, rfl, rfl⟩
    exact (partAt?_of_mem_parts listed).2

mutual

/-- Parts are listed in the order of the text, each once. -/
theorem pairwise_parts (start : Nat) (subtree : Subtree) :
    (language.parts start subtree).Pairwise fun first second => first.path < second.path := by
  cases subtree with
  | leaf token => exact .nil
  | node head children => exact pairwise_partsBehind head.production start [] children

theorem pairwise_partsBehind (production : Option ProductionId) (start : Nat)
    (before children : List Subtree) :
    (language.partsBehind production start before children).Pairwise fun first second =>
      first.path < second.path := by
  cases children with
  | nil => exact .nil
  | cons child rest =>
      rw [partsBehind, List.pairwise_append]
      refine ⟨List.pairwise_cons.mpr ⟨?_, ?_⟩, pairwise_partsBehind production start _ rest, ?_⟩
      · intro part listed
        obtain ⟨inner, inside, rfl⟩ := List.mem_map.mp listed
        obtain ⟨first, path, same⟩ := List.exists_cons_of_ne_nil (partAt?_of_mem_parts inside).1
        simp [same]
      · rw [List.pairwise_map]
        refine (pairwise_parts _ child).imp fun {first second} less => ?_
        simpa using less
      · intro first here second later
        obtain ⟨number, path, _, same, _⟩ := partAt?_of_mem_partsBehind later
        rw [List.length_append, List.length_singleton] at same
        have head : ∃ inner, first.path = before.length :: inner := by
          rcases List.mem_cons.mp here with rfl | inside
          · exact ⟨[], rfl⟩
          · obtain ⟨inner, _, rfl⟩ := List.mem_map.mp inside
            exact ⟨inner.path, rfl⟩
        obtain ⟨inner, shape⟩ := head
        rw [shape, same, List.cons_lt_cons_iff]
        exact .inl (by omega)

end

/-! ## What is shown -/

/-- What is inherited below a subtree of what is inherited at it. -/
def pass (language : Language) (inherited : Option FieldId) (sight : Sight) : Option FieldId :=
  if language.isShown sight then none else sight.place.field.or inherited

/-- The field of a part, if the subtree that is started from passes one on. -/
def fieldFrom (language : Language) (inherited : Option FieldId) (part : Part) : Option FieldId :=
  if part.sight.subtree.isExtra then none
  else part.sight.place.field.or (part.around.foldl language.pass inherited)

/-- The node of a part, if the subtree that is started from passes a field on. -/
def nodeFrom (language : Language) (inherited : Option FieldId) (part : Part) : Node :=
  language.nodeOf { part.sight.place with field := language.fieldFrom inherited part }
    part.sight.subtree

theorem foldl_pass (around : List Sight) : around.foldl language.pass none =
    (around.reverse.takeWhile fun sight => !language.isShown sight).findSome?
      fun sight => sight.place.field := by
  induction around using List.reverseRecOn with
  | nil => rfl
  | append_singleton around sight ih =>
      rw [List.foldl_concat, List.reverse_concat, List.takeWhile_cons, ih, pass]
      cases language.isShown sight with
      | true => rfl
      | false =>
          simp only [Bool.not_false, if_true, List.findSome?_cons]
          cases sight.place.field <;> rfl

theorem nodeFrom_none (part : Part) : language.nodeFrom none part = language.partNode part := by
  have same : language.fieldFrom none part = language.fieldOf part := by
    rw [fieldFrom, fieldOf, foldl_pass, List.findSome?_cons]
    cases part.sight.place.field <;> rfl
  rw [nodeFrom, partNode, same]

/-- What is hidden and holds something is no extra, so it passes its field on. -/
theorem isExtra_of_hidden {sight : Sight} {head : NodeHead} {children : List Subtree}
    (node : sight.subtree = .node head children) (regular : sight.subtree.Regular)
    (hidden : language.isShown sight = false) : sight.subtree.isExtra = false := by
  rw [node] at regular ⊢
  rcases regular with ⟨error, _⟩ | ⟨extra, _⟩
  · simp [isShown, node, shows, isError, error] at hidden
  · exact extra

section children

variable (language) (production : Option ProductionId) (inherited : Option FieldId)
  (start index : Nat) (child : Subtree)

theorem placement_start :
    (language.placement production inherited start index child).start = start := by
  unfold placement
  split <;> rfl

/-- A child has the field that is inherited where it has none of its own. -/
theorem placement_inherited : language.placement production inherited start index child =
    let own := language.placement production none start index child
    { own with field := if child.isExtra then none else own.field.or inherited } := by
  unfold placement
  split
  case isTrue => rfl
  case isFalse => simp

theorem isShown_child :
    language.isShown ⟨language.placement production none start index child, child⟩ =
      language.shows (language.placement production inherited start index child).shownAs child := by
  rw [placement_inherited language production inherited, isShown]

theorem nodeFrom_child (path : List Nat) :
    language.nodeFrom inherited
        ⟨path, [], ⟨language.placement production none start index child, child⟩⟩ =
      language.nodeOf (language.placement production inherited start index child) child := by
  rw [placement_inherited language production inherited, nodeFrom]
  rfl

/-- The nodes of the parts of a child are those of its own parts, which inherit the field of the
child if it is hidden. -/
theorem map_nodeFrom_within (regular : child.Regular) (number : Nat) (kept : Part → Bool) :
    let own := Sight.mk (language.placement production none start index child) child
    (((language.parts start child).filter kept).map (Part.within number own)).map
        (language.nodeFrom inherited) =
      ((language.parts start child).filter kept).map (language.nodeFrom
        (if language.isShown own then none
          else (language.placement production inherited start index child).field)) := by
  intro own
  rw [List.map_map]
  cases node : child with
  | leaf token => rfl
  | node head children =>
      have passed : language.pass inherited own = if language.isShown own then none
          else (language.placement production inherited start index child).field := by
        rw [pass, placement_inherited]
        cases shown : language.isShown own with
        | true => rfl
        | false =>
            have structural : child.isExtra = false := isExtra_of_hidden node regular shown
            simp only [structural, Bool.false_eq_true, if_false]
            rfl
      rw [← node, ← passed]
      rfl

end children

theorem isTopmost_direct (path : List Nat) (sight : Sight) :
    language.isTopmost ⟨path, [], sight⟩ = language.isShown sight := by
  simp [isTopmost]

theorem filter_isTopmost_within (number : Nat) (sight : Sight) (parts : List Part) :
    (parts.map (Part.within number sight)).filter language.isTopmost =
      if language.isShown sight then []
      else (parts.filter language.isTopmost).map (Part.within number sight) := by
  have inner : language.isTopmost ∘ Part.within number sight = fun part =>
      !language.isShown sight && language.isTopmost part := by
    funext part
    simp [isTopmost, Bool.and_assoc]
  rw [List.filter_map, inner]
  cases language.isShown sight <;> simp

section siblings

variable (start : Nat) (before : List Subtree) (child : Subtree)

theorem add_lengths_concat :
    start + lengths before + child.length = start + lengths (before ++ [child]) := by
  rw [lengths_append, lengths, lengths, Nat.add_zero, Nat.add_assoc]

theorem length_structuralSymbols_concat :
    (if child.isExtra then (structuralSymbols before).length
      else (structuralSymbols before).length + 1) =
        (structuralSymbols (before ++ [child])).length := by
  cases extra : child.isExtra <;> simp [structuralSymbols, extra]

end siblings

mutual

/-- The nodes of a subtree are its own, or else those of the topmost parts of it. -/
theorem visibleNodes_eq (place : Placement) (subtree : Subtree)
    (regular : subtree.Everywhere Regular) :
    language.visibleNodes place subtree =
      if language.shows place.shownAs subtree then [language.nodeOf place subtree]
      else ((language.parts place.start subtree).filter language.isTopmost).map
        (language.nodeFrom place.field) := by
  cases subtree with
  | leaf token => rfl
  | node head children =>
      rw [visibleNodes]
      split
      case isTrue => rfl
      case isFalse =>
          exact visibleChildren_eq head.production place.field place.start [] children
            (everywhere_node.mp regular).2

/-- The nodes of the children of a production are those of the topmost parts. -/
theorem visibleChildren_eq (production : Option ProductionId) (inherited : Option FieldId)
    (start : Nat) (before children : List Subtree)
    (regular : ∀ child ∈ children, child.Everywhere Regular) :
    language.visibleChildren production inherited (start + lengths before)
        (structuralSymbols before).length children =
      ((language.partsBehind production start before children).filter language.isTopmost).map
        (language.nodeFrom inherited) := by
  cases children with
  | nil => simp [visibleChildren, partsBehind]
  | cons child rest =>
      have here := regular child List.mem_cons_self
      have behind := visibleChildren_eq production inherited start (before ++ [child]) rest
        fun other member => regular other (List.mem_cons_of_mem _ member)
      rw [visibleChildren, partsBehind, List.filter_append, List.map_append, add_lengths_concat,
        length_structuralSymbols_concat, behind, visibleNodes_eq _ child here]
      congr 1
      rw [List.filter_cons, filter_isTopmost_within, isTopmost_direct, placement_start,
        ← isShown_child]
      cases shown : language.isShown _ with
      | true => exact congrArg (fun node => [node]) (nodeFrom_child ..).symm
      | false =>
          have inside := language.map_nodeFrom_within production inherited
            (start + lengths before) (structuralSymbols before).length child here.here
            before.length language.isTopmost
          dsimp only at inside
          rw [shown] at inside
          exact inside.symm

end

/-! ## The traversal -/

theorem preorderOf_append (depth : Nat) (first second : List Node) :
    Node.preorderOf depth (first ++ second) =
      Node.preorderOf depth first ++ Node.preorderOf depth second := by
  induction first with
  | nil => rfl
  | cons node first ih => simp [Node.preorderOf, ih]

theorem filter_isShown_within (number : Nat) (sight : Sight) (parts : List Part) :
    (parts.map (Part.within number sight)).filter (fun part => language.isShown part.sight) =
      (parts.filter fun part => language.isShown part.sight).map (Part.within number sight) :=
  List.filter_map

mutual

/-- The traversal of the nodes of a subtree meets its own, if it is shown, and those of the parts
of it that are shown, each once. -/
theorem preorder_visibleNodes (depth : Nat) (place : Placement) (subtree : Subtree)
    (regular : subtree.Everywhere Regular) :
    (Node.preorderOf depth (language.visibleNodes place subtree)).map Prod.snd =
      (if language.shows place.shownAs subtree then [language.nodeOf place subtree] else []) ++
        ((language.parts place.start subtree).filter fun part => language.isShown part.sight).map
          (language.nodeFrom (if language.shows place.shownAs subtree then none
            else place.field)) := by
  cases subtree with
  | leaf token =>
      rw [visibleNodes]
      split <;> simp [Node.preorderOf, Node.preorder, parts, nodeOf, children, visibleChildren]
  | node head children =>
      have below := fun depth inherited => preorder_visibleChildren depth head.production inherited
        place.start [] children (everywhere_node.mp regular).2
      rw [visibleNodes]
      split
      case isTrue =>
          rw [Node.preorderOf, Node.preorder, Node.preorderOf, List.append_nil, List.map_cons]
          exact congrArg (_ :: ·) (below (depth + 1) none)
      case isFalse => exact below depth place.field

/-- The traversal of the nodes of the children of a production meets those of the parts that are
shown, each once. -/
theorem preorder_visibleChildren (depth : Nat) (production : Option ProductionId)
    (inherited : Option FieldId) (start : Nat) (before children : List Subtree)
    (regular : ∀ child ∈ children, child.Everywhere Regular) :
    (Node.preorderOf depth (language.visibleChildren production inherited (start + lengths before)
        (structuralSymbols before).length children)).map Prod.snd =
      ((language.partsBehind production start before children).filter fun part =>
        language.isShown part.sight).map (language.nodeFrom inherited) := by
  cases children with
  | nil => simp [visibleChildren, partsBehind, Node.preorderOf]
  | cons child rest =>
      have here := regular child List.mem_cons_self
      have behind := preorder_visibleChildren depth production inherited start (before ++ [child])
        rest fun other member => regular other (List.mem_cons_of_mem _ member)
      rw [visibleChildren, preorderOf_append, List.map_append, partsBehind, List.filter_append,
        List.map_append, add_lengths_concat, length_structuralSymbols_concat, behind,
        preorder_visibleNodes depth _ child here]
      congr 1
      have inside := language.map_nodeFrom_within production inherited
        (start + lengths before) (structuralSymbols before).length child here.here before.length
        fun part => language.isShown part.sight
      dsimp only at inside
      rw [List.filter_cons, filter_isShown_within, placement_start, ← isShown_child, ← inside]
      cases shown : language.isShown _ with
      | true => exact congrArg (· :: _) (nodeFrom_child ..).symm
      | false => rfl

end

/-! ## Ranges -/

/-- Where the first of several subtrees starts behind its blank space. -/
def firstPadding (children : List Subtree) : Nat :=
  (children.head?.map padding).getD 0

theorem padding_node (head : NodeHead) (children : List Subtree) :
    (Subtree.node head children).padding = firstPadding children := by
  cases children <;> rfl

theorem start_nodeInfo (place : Placement) (subtree : Subtree) :
    (language.nodeInfo place subtree).start = place.start + subtree.padding :=
  rfl

theorem finish_nodeInfo (place : Placement) (subtree : Subtree) :
    (language.nodeInfo place subtree).finish = place.start + subtree.length := by
  have inside := subtree.padding_le_length
  simp only [nodeInfo, nodeInfoOf]
  omega

mutual

/-- The nodes of a subtree lie within it. -/
theorem within_visibleNodes (place : Placement) (subtree : Subtree) {node : Node}
    (listed : node ∈ language.visibleNodes place subtree) :
    place.start + subtree.padding ≤ node.info.start ∧
      node.info.finish ≤ place.start + subtree.length := by
  cases subtree with
  | leaf token =>
      rw [visibleNodes] at listed
      split at listed
      case isFalse => exact absurd listed List.not_mem_nil
      case isTrue =>
          obtain rfl := List.mem_singleton.mp listed
          exact ⟨Nat.le_refl _, Nat.le_of_eq (finish_nodeInfo place _)⟩
  | node head children =>
      rw [visibleNodes] at listed
      split at listed
      case isFalse =>
          rw [padding_node]
          exact within_visibleChildren _ _ _ _ children listed
      case isTrue =>
          obtain rfl := List.mem_singleton.mp listed
          exact ⟨Nat.le_refl _, Nat.le_of_eq (finish_nodeInfo place _)⟩

theorem within_visibleChildren (production : Option ProductionId) (inherited : Option FieldId)
    (start index : Nat) (children : List Subtree) {node : Node}
    (listed : node ∈ language.visibleChildren production inherited start index children) :
    start + firstPadding children ≤ node.info.start ∧
      node.info.finish ≤ start + lengths children := by
  cases children with
  | nil =>
      rw [visibleChildren] at listed
      exact absurd listed List.not_mem_nil
  | cons child rest =>
      rw [visibleChildren] at listed
      have first : firstPadding (child :: rest) = child.padding := rfl
      rw [first, lengths]
      rcases List.mem_append.mp listed with here | later
      · have inside := within_visibleNodes _ child here
        rw [placement_start] at inside
        omega
      · have inside := within_visibleChildren _ _ _ _ rest later
        have short := child.padding_le_length
        omega

end

mutual

/-- The nodes of a subtree stand one behind the other. -/
theorem apart_visibleNodes (place : Placement) (subtree : Subtree) :
    (language.visibleNodes place subtree).Pairwise fun first second =>
      first.info.finish ≤ second.info.start := by
  cases subtree with
  | leaf token =>
      rw [visibleNodes]
      split
      · exact List.pairwise_singleton _ _
      · exact .nil
  | node head children =>
      rw [visibleNodes]
      split
      · exact List.pairwise_singleton _ _
      · exact apart_visibleChildren _ _ _ _ children

theorem apart_visibleChildren (production : Option ProductionId) (inherited : Option FieldId)
    (start index : Nat) (children : List Subtree) :
    (language.visibleChildren production inherited start index children).Pairwise
      fun first second => first.info.finish ≤ second.info.start := by
  cases children with
  | nil =>
      rw [visibleChildren]
      exact .nil
  | cons child rest =>
      rw [visibleChildren, List.pairwise_append]
      refine ⟨apart_visibleNodes _ child, apart_visibleChildren _ _ _ _ rest, ?_⟩
      intro first here second later
      have before := within_visibleNodes _ child here
      have behind := within_visibleChildren _ _ _ _ rest later
      rw [placement_start] at before
      omega

end

/-! ## Fields -/

theorem field_of_extra (production : Option ProductionId) (inherited : Option FieldId)
    (start index : Nat) {child : Subtree} (extra : child.isExtra = true) :
    (language.placement production inherited start index child).field = none := by
  simp [placement, extra]

theorem field_of_no_production (start index : Nat) (child : Subtree) :
    (language.placement none none start index child).field = none := by
  unfold placement
  split <;> rfl

mutual

/-- Errors have no field, if the subtree has none where it is one. -/
theorem field_of_error_visibleNodes (place : Placement) (subtree : Subtree)
    (regular : subtree.Everywhere Regular) (here : subtree.isError = true → place.field = none)
    {node : Node} (listed : node ∈ language.visibleNodes place subtree)
    (error : node.info.error = true) : node.info.field = none := by
  cases subtree with
  | leaf token =>
      rw [visibleNodes] at listed
      split at listed
      case isFalse => exact absurd listed List.not_mem_nil
      case isTrue =>
          obtain rfl := List.mem_singleton.mp listed
          exact congrArg (Option.bind · _) (here error)
  | node head children =>
      rw [visibleNodes] at listed
      split at listed
      case isFalse hidden =>
          obtain ⟨regularHere, below⟩ := everywhere_node.mp regular
          rcases regularHere with ⟨isError, _⟩ | ⟨_, apart⟩
          · exact absurd (by simp [shows, Subtree.isError, isError]) hidden
          · exact field_of_error_visibleChildren _ _ _ _ children below (.inr apart) listed error
      case isTrue =>
          obtain rfl := List.mem_singleton.mp listed
          exact congrArg (Option.bind · _) (here error)

theorem field_of_error_visibleChildren (production : Option ProductionId)
    (inherited : Option FieldId) (start index : Nat) (children : List Subtree)
    (regular : ∀ child ∈ children, child.Everywhere Regular)
    (apart : production = none ∧ inherited = none ∨
      ∀ child ∈ children, child.isError = true → child.isExtra = true)
    {node : Node} (listed : node ∈ language.visibleChildren production inherited start index children)
    (error : node.info.error = true) : node.info.field = none := by
  cases children with
  | nil =>
      rw [visibleChildren] at listed
      exact absurd listed List.not_mem_nil
  | cons child rest =>
      rw [visibleChildren] at listed
      rcases List.mem_append.mp listed with here | later
      · refine field_of_error_visibleNodes _ child (regular child List.mem_cons_self) ?_ here error
        intro isError
        rcases apart with ⟨rfl, rfl⟩ | apart
        · exact field_of_no_production start index child
        · exact field_of_extra _ _ _ _ (apart child List.mem_cons_self isError)
      · refine field_of_error_visibleChildren _ _ _ _ rest
          (fun other member => regular other (List.mem_cons_of_mem _ member)) ?_ later error
        exact apart.imp_right fun apart other member => apart other (List.mem_cons_of_mem _ member)

end

/-! ## Nodes -/

/-- What a node says of the subtree that it shows and of the nodes directly below. -/
structure Presents (language : Language) (place : Placement) (subtree : Subtree) (node : Node) :
    Prop where
  info : node.info = language.nodeInfo place subtree
  /-- The children are the topmost parts that are shown, in the order of the text. -/
  children : node.children =
    ((language.parts place.start subtree).filter language.isTopmost).map language.partNode
  within : ∀ child ∈ node.children,
    node.info.start ≤ child.info.start ∧ child.info.finish ≤ node.info.finish
  apart : node.children.Pairwise fun first second => first.info.finish ≤ second.info.start
  /-- A child that is no extra has the innermost field on the way to it. -/
  field : ∀ part ∈ (language.parts place.start subtree).filter language.isTopmost,
    part.sight.subtree.isExtra = false → (language.partNode part).info.field =
      ((part.around ++ [part.sight]).reverse.findSome? fun sight => sight.place.field).bind
        language.fieldName?
  noField : ∀ child ∈ node.children, child.info.extra = true ∨ child.info.error = true →
    child.info.field = none

theorem takeWhile_around {part : Part} (topmost : language.isTopmost part = true) :
    (part.around.reverse.takeWhile fun sight => !language.isShown sight) = part.around.reverse := by
  rw [List.takeWhile_eq_self_iff]
  intro sight member
  exact List.all_eq_true.mp (Bool.and_eq_true_iff.mp topmost).1 sight (List.mem_reverse.mp member)

theorem map_nodeFrom_none (parts : List Part) :
    parts.map (language.nodeFrom none) = parts.map language.partNode :=
  List.map_congr_left fun part _ => nodeFrom_none part

variable (language) in
theorem children_nodeOf (place : Placement) (subtree : Subtree)
    (regular : ∀ child ∈ subtree.children, child.Everywhere Regular) :
    (language.nodeOf place subtree).children =
      ((language.parts place.start subtree).filter language.isTopmost).map language.partNode := by
  cases subtree with
  | leaf token => rw [nodeOf, Node.children, Subtree.children, visibleChildren]; rfl
  | node head children =>
      rw [← map_nodeFrom_none]
      exact visibleChildren_eq head.production none place.start [] children regular

/-- Where a subtree is regular, its node lists the topmost parts that are shown. -/
theorem presents_nodeOf (place : Placement) (subtree : Subtree)
    (regular : ∀ child ∈ subtree.children, child.Everywhere Regular)
    (apart : subtree.production = none ∨
      ∀ child ∈ subtree.children, child.isError = true → child.isExtra = true) :
    language.Presents place subtree (language.nodeOf place subtree) := by
  have children := language.children_nodeOf place subtree regular
  refine ⟨rfl, children, ?_, apart_visibleChildren _ _ _ _ _, ?_, ?_⟩
  · intro child listed
    cases subtree with
    | leaf token => simp [nodeOf, Node.children, Subtree.children, visibleChildren] at listed
    | node head below =>
        have inside := within_visibleChildren _ _ _ _ below listed
        rw [← padding_node head] at inside
        exact ⟨inside.1,
          inside.2.trans (Nat.le_of_eq (finish_nodeInfo place (.node head below)).symm)⟩
  · intro part listed structural
    have topmost := (List.mem_filter.mp listed).2
    rw [List.reverse_concat, ← takeWhile_around topmost]
    show (language.fieldOf part).bind _ = _
    rw [fieldOf, structural]
    rfl
  · rintro child listed (extra | error)
    · rw [children] at listed
      obtain ⟨part, _, rfl⟩ := List.mem_map.mp listed
      have isExtra : part.sight.subtree.isExtra = true := (Bool.and_eq_true_iff.mp extra).1
      show (language.fieldOf part).bind _ = none
      rw [fieldOf, if_pos isExtra]
      rfl
    · exact field_of_error_visibleChildren _ _ _ _ _ regular (apart.imp_left fun none_ =>
        ⟨none_, rfl⟩) listed error

/-- The traversal from the top of a tree meets the top and every part that is shown, each once. -/
theorem preorder_topNode (root : Subtree)
    (regular : ∀ child ∈ root.children, child.Everywhere Regular) :
    ((language.topNode root).preorder 0).map Prod.snd = language.topNode root ::
      ((language.parts 0 root).filter fun part => language.isShown part.sight).map
        language.partNode := by
  rw [topNode, Node.preorder, List.map_cons]
  congr 1
  cases root with
  | leaf token => simp [Subtree.children, visibleChildren, Node.preorderOf, parts]
  | node head children =>
      rw [← map_nodeFrom_none]
      exact preorder_visibleChildren 1 head.production none 0 [] children regular

theorem everywhere_of_partAt? {property : Subtree → Prop} {whole target : Subtree}
    {path : List Nat} (everywhere : whole.Everywhere property)
    (leads : whole.partAt? path = some target) : target.Everywhere property := by
  induction path generalizing whole with
  | nil =>
      obtain rfl := Option.some.inj leads
      exact everywhere
  | cons number path ih =>
      obtain ⟨child, found, inside⟩ := Option.bind_eq_some_iff.mp leads
      cases whole with
      | leaf token => simp [children] at found
      | node head children =>
          exact ih ((everywhere_node.mp everywhere).2 child (List.mem_of_getElem? found)) inside

/-- Every part of a regular subtree that is shown presents itself in its node. -/
theorem presents_partNode (root : Subtree) {start : Nat}
    (regular : ∀ child ∈ root.children, child.Everywhere Regular) {part : Part}
    (listed : part ∈ language.parts start root) :
    language.Presents { part.sight.place with field := language.fieldOf part } part.sight.subtree
      (language.partNode part) := by
  obtain ⟨below, leads⟩ := partAt?_of_mem_parts listed
  obtain ⟨number, path, same⟩ := List.exists_cons_of_ne_nil below
  rw [same] at leads
  obtain ⟨child, found, inside⟩ := Option.bind_eq_some_iff.mp leads
  have everywhere := everywhere_of_partAt? (regular child (List.mem_of_getElem? found)) inside
  cases shape : part.sight.subtree with
  | leaf token =>
      rw [partNode, shape]
      exact presents_nodeOf _ _ (by simp [Subtree.children]) (.inl rfl)
  | node head children =>
      rw [shape] at everywhere
      obtain ⟨here, inner⟩ := everywhere_node.mp everywhere
      rw [partNode, shape]
      exact presents_nodeOf _ _ inner (here.imp And.right And.right)

/-- The nodes of a tree against its subtrees. -/
structure Portrays (language : Language) (root : Subtree) (node : Node) : Prop where
  /-- Parts are listed in the order of the text, each once. -/
  sorted : (language.parts 0 root).Pairwise fun first second => first.path < second.path
  paths : ∀ path target, path ≠ [] → (root.partAt? path = some target ↔
    ∃ part ∈ language.parts 0 root, part.path = path ∧ part.sight.subtree = target)
  /-- The traversal meets the root and every part that is shown, leaves included, each once. -/
  traversal : (node.preorder 0).map Prod.snd = node ::
    ((language.parts 0 root).filter fun part => language.isShown part.sight).map language.partNode
  top : language.Presents ⟨0, none, none⟩ root node
  inside : ∀ part ∈ language.parts 0 root, language.isShown part.sight = true →
    language.Presents { part.sight.place with field := language.fieldOf part } part.sight.subtree
      (language.partNode part)

theorem portrays_topNode (root : Subtree)
    (regular : ∀ child ∈ root.children, child.Everywhere Regular)
    (apart : root.production = none ∨
      ∀ child ∈ root.children, child.isError = true → child.isExtra = true) :
    language.Portrays root (language.topNode root) where
  sorted := pairwise_parts 0 root
  paths _ _ below := partAt?_iff below
  traversal := preorder_topNode root regular
  top := presents_nodeOf ⟨0, none, none⟩ root regular apart
  inside _ listed _ := presents_partNode root regular listed

end Language

end Lalr
