import Lalr.Diagnostic
import Lalr.Proofs.Tree.Candidate

set_option autoImplicit false

/-!
Reports against the tree they are made from. The reports are collected from the nodes that are
shown, the error flags from all subtrees; where every leaf is shown and no error is shown empty,
both agree, and each missing token and each unrecognised character has a report of its own.
-/

namespace Lalr

open Lalr.Text

/-! ## Leaves that are reported -/

/-- Leaves one behind the other, each with the place where the blank space before it starts. -/
def placed : Nat → List Leaf → List (Nat × Leaf)
  | _, [] => []
  | start, leaf :: leaves => (start, leaf) :: placed (start + leaf.width) leaves

/-- The code of the report that a leaf asks for, if it does. -/
def Leaf.code? (leaf : Leaf) : Option DiagnosticCode :=
  if leaf.missing then some .missingToken
  else if leaf.raw = errorSymbol then some .unexpectedCharacter
  else none

/-- The bytes of a leaf in a text. -/
def Leaf.spanIn (source : List Char) (start : Nat) (leaf : Leaf) : Span :=
  .ofOffsets source (start + leaf.padding) (start + leaf.padding + leaf.size)

/-- The places of the leaves that ask for a report with a given code. -/
def askedFor (source : List Char) (code : DiagnosticCode) (start : Nat) (leaves : List Leaf) :
    List Span :=
  ((placed start leaves).filter fun place => place.2.code? == some code).map fun place =>
    place.2.spanIn source place.1

/-- The places of the reports with a given code. -/
def placesOf (code : DiagnosticCode) (found : List Diagnostic) : List Span :=
  (found.filter fun diagnostic => diagnostic.code == code).map Diagnostic.span

variable {source : List Char} {code : DiagnosticCode}

@[simp] theorem placesOf_nil : placesOf code [] = [] :=
  rfl

@[simp] theorem placesOf_append (first second : List Diagnostic) :
    placesOf code (first ++ second) = placesOf code first ++ placesOf code second := by
  simp [placesOf]

theorem placed_append (start : Nat) (first second : List Leaf) :
    placed start (first ++ second) =
      placed start first ++ placed (start + (widths first).sum) second := by
  induction first generalizing start with
  | nil => rfl
  | cons leaf first ih =>
      have further : start + leaf.width + (widths first).sum =
          start + (widths (leaf :: first)).sum := by
        rw [widths_cons, List.sum_cons, Leaf.width, Nat.add_assoc]
      rw [List.cons_append, placed, ih, further]
      rfl

theorem askedFor_append (start : Nat) (first second : List Leaf) :
    askedFor source code start (first ++ second) =
      askedFor source code start first ++
        askedFor source code (start + (widths first).sum) second := by
  simp [askedFor, placed_append]

namespace Subtree

mutual

theorem askedFor_of_clean (subtree : Subtree) (start : Nat)
    (clean : subtree.containsError = false) :
    askedFor source code start subtree.leaves = [] := by
  cases subtree with
  | leaf token =>
      simp only [containsError, Bool.or_eq_false_iff, beq_eq_false_iff_ne, ne_eq] at clean
      simp [leaves, askedFor, placed, Leaf.code?, clean]
  | node head children =>
      simp only [containsError, Bool.or_eq_false_iff] at clean
      exact askedFor_of_allClean children start clean.2

theorem askedFor_of_allClean (children : List Subtree) (start : Nat)
    (clean : anyContainsError children = false) :
    askedFor source code start (leavesOf children) = [] := by
  cases children with
  | nil => rfl
  | cons child children =>
      simp only [anyContainsError, Bool.or_eq_false_iff] at clean
      rw [leavesOf, askedFor_append, askedFor_of_clean child start clean.1,
        askedFor_of_allClean children _ clean.2]
      rfl

end

end Subtree

/-! ## What is shown -/

namespace Language

variable {language : Language}

/-- A leaf is shown, and so is something within a node that is hidden or an error. -/
def Displays (language : Language) : Subtree → Prop
  | .leaf token => language.shows none (.leaf token) = true
  | .node head children =>
      head.symbol = errorSymbol ∨ language.shows none (.node head children) = false →
        ∃ child ∈ children, ∀ place, language.visibleNodes place child ≠ []

theorem shows_of_shows_none {subtree : Subtree} (shown : language.shows none subtree = true)
    (shownAs : Option SymbolId) : language.shows shownAs subtree = true := by
  simp only [shows, Bool.or_eq_true, Option.isSome_none, Bool.false_eq_true, or_false] at shown ⊢
  exact shown.imp_left .inl

theorem visibleChildren_ne_nil {production : Option ProductionId} {inherited : Option FieldId}
    {children : List Subtree} {child : Subtree} (member : child ∈ children)
    (shown : ∀ place, language.visibleNodes place child ≠ []) (start index : Nat) :
    language.visibleChildren production inherited start index children ≠ [] := by
  induction children generalizing start index with
  | nil => exact absurd member List.not_mem_nil
  | cons first children ih =>
      rw [visibleChildren]
      rcases List.mem_cons.mp member with rfl | later
      · exact List.append_ne_nil_of_left_ne_nil (shown _) _
      · exact List.append_ne_nil_of_right_ne_nil _ (ih later _ _)

/-- What displays something is shown, or something in it is. -/
theorem Displays.visibleNodes_ne_nil {subtree : Subtree} (displays : language.Displays subtree)
    (place : Placement) : language.visibleNodes place subtree ≠ [] := by
  cases subtree with
  | leaf token =>
      have shown := shows_of_shows_none displays place.shownAs
      simp [visibleNodes, shown]
  | node head children =>
      rw [visibleNodes]
      split
      case isTrue => exact List.cons_ne_nil _ _
      case isFalse hidden =>
          have none_shown : language.shows none (.node head children) = false := by
            by_contra shown
            exact hidden (shows_of_shows_none (by simpa using shown) _)
          obtain ⟨child, member, shown⟩ := displays (.inr none_shown)
          exact visibleChildren_ne_nil member shown _ _

mutual

/-- Nodes of errors have the error flag. -/
theorem hasError_of_visibleNodes (place : Placement) (subtree : Subtree) {node : Node}
    (listed : node ∈ language.visibleNodes place subtree) (error : node.info.error = true) :
    node.info.hasError = true := by
  cases subtree with
  | leaf token =>
      simp only [visibleNodes] at listed
      split at listed
      case isFalse => exact absurd listed List.not_mem_nil
      case isTrue =>
          obtain rfl := List.mem_singleton.mp listed
          have raw : (token.raw == errorSymbol) = true := error
          simp [Node.info, nodeInfo, nodeInfoOf, Subtree.containsError, raw]
  | node head children =>
      simp only [visibleNodes] at listed
      split at listed
      case isFalse => exact hasError_of_visibleChildren _ _ _ _ children listed error
      case isTrue =>
          obtain rfl := List.mem_singleton.mp listed
          have symbol : (head.symbol == errorSymbol) = true := error
          simp [Node.info, nodeInfo, nodeInfoOf, Subtree.containsError, symbol]

theorem hasError_of_visibleChildren (production : Option ProductionId)
    (inherited : Option FieldId) (start index : Nat) (children : List Subtree) {node : Node}
    (listed : node ∈ language.visibleChildren production inherited start index children)
    (error : node.info.error = true) : node.info.hasError = true := by
  cases children with
  | nil =>
      rw [visibleChildren] at listed
      exact absurd listed List.not_mem_nil
  | cons child children =>
      rw [visibleChildren] at listed
      rcases List.mem_append.mp listed with here | later
      · exact hasError_of_visibleNodes _ child here error
      · exact hasError_of_visibleChildren _ _ _ _ children later error

end

end Language

/-! ## Reports of nodes -/

namespace Node

theorem diagnosticsOf_append (inside : Bool) (first second : List Node) :
    diagnosticsOf source inside (first ++ second) =
      diagnosticsOf source inside first ++ diagnosticsOf source inside second := by
  induction first with
  | nil => simp [diagnosticsOf]
  | cons node first ih => simp [diagnosticsOf, ih]

theorem diagnosticsOf_singleton (inside : Bool) (node : Node) :
    diagnosticsOf source inside [node] =
      if node.info.hasError then node.diagnostics source inside else [] := by
  simp [diagnosticsOf]

/-- Within a node that is no missing token and no stray character, reports that are more specific
than a syntax error come from the nodes below. -/
theorem placesOf_diagnostics {info : NodeInfo} {nodes : List Node} (present : info.missing = false)
    (filled : info.error = true → nodes ≠ []) (specific : code ≠ .syntaxError) (inside : Bool) :
    placesOf code ((Node.mk info nodes).diagnostics source inside) =
      placesOf code (diagnosticsOf source (inside || info.error) nodes) := by
  have unreported : ∀ message rest,
      placesOf code (mistake source info .syntaxError message :: rest) = placesOf code rest := by
    intro message rest
    simp [placesOf, mistake, specific.symm]
  cases error : info.error with
  | false => simp [diagnostics, present, isStray, Node.info, error]
  | true =>
      have more : nodes.isEmpty = false := by simpa using filled error
      simp only [diagnostics, present, isStray, Node.info, Node.children, error, more]
      by_cases own : (!nodes.all isStray && !inside) = true
      · simp [own, unreported]
      · simp [own]

theorem diagnosticsOf_ne_nil {nodes : List Node} {node : Node} (listed : node ∈ nodes)
    (flagged : node.info.hasError = true) {inside : Bool}
    (reported : node.diagnostics source inside ≠ []) : diagnosticsOf source inside nodes ≠ [] := by
  obtain ⟨before, behind, rfl⟩ := List.append_of_mem listed
  rw [diagnosticsOf_append, diagnosticsOf, if_pos flagged]
  exact List.append_ne_nil_of_right_ne_nil _ (List.append_ne_nil_of_left_ne_nil reported _)

theorem diagnostics_of_isStray {node : Node} (stray : node.isStray = true) (inside : Bool) :
    node.diagnostics source inside ≠ [] := by
  cases node with
  | mk info nodes =>
      rw [diagnostics]
      split
      · exact List.cons_ne_nil _ _
      · exact List.cons_ne_nil _ _

/-- The outermost error is reported itself, or the characters that it is made of are. -/
theorem diagnostics_ne_nil {info : NodeInfo} {nodes : List Node} (present : info.missing = false)
    (filled : info.error = true → nodes ≠ [])
    (flagged : ∀ node ∈ nodes, node.info.error = true → node.info.hasError = true)
    (below : info.error = false → diagnosticsOf source false nodes ≠ []) :
    (Node.mk info nodes).diagnostics source false ≠ [] := by
  cases error : info.error with
  | false => simpa [diagnostics, present, isStray, Node.info, error] using below error
  | true =>
      have more : nodes.isEmpty = false := by simpa using filled error
      simp only [diagnostics, present, isStray, Node.info, Node.children, error, more]
      by_cases all : nodes.all isStray = true
      · obtain ⟨first, listed⟩ := List.exists_mem_of_ne_nil nodes (filled error)
        have stray := List.all_eq_true.mp all first listed
        have erroneous : first.info.error = true := (Bool.and_eq_true_iff.mp stray).1
        have reported : diagnosticsOf source true nodes ≠ [] :=
          diagnosticsOf_ne_nil listed (flagged first listed erroneous)
            (diagnostics_of_isStray stray true)
        simpa [all] using reported
      · simp [all]

end Node

namespace Language

open Node Subtree

variable {language : Language}

theorem placesOf_leaf (place : Placement) (token : Leaf) (specific : code ≠ .syntaxError)
    (inside : Bool) :
    placesOf code (diagnosticsOf source inside
        [.mk (language.nodeInfo place (.leaf token)) []]) =
      askedFor source code place.start [token] := by
  have finish : token.padding + token.size - token.padding = token.size := Nat.add_sub_cancel_left ..
  cases missing : token.missing with
  | true =>
      cases code <;>
        simp_all [diagnosticsOf, diagnostics, Node.info, nodeInfo, nodeInfoOf, containsError,
          isMissing, askedFor, placed, Leaf.code?, placesOf, mistake, Leaf.spanIn, padding, length]
  | false =>
      by_cases raw : token.raw = errorSymbol
      · cases code <;>
          simp_all [diagnosticsOf, diagnostics, Node.info, nodeInfo, nodeInfoOf, containsError,
            isMissing, askedFor, placed, Leaf.code?, placesOf, mistake, Leaf.spanIn, padding,
            length, isStray, isError, Node.children]
      · simp [diagnosticsOf, Node.info, nodeInfo, nodeInfoOf, containsError, missing, raw, askedFor,
          placed, Leaf.code?]

/-- A node is reported as what is below it, unless it is an error that is shown empty. -/
theorem placesOf_node {place : Placement} {head : NodeHead} {children : List Subtree}
    {nodes : List Node} (filled : head.symbol = errorSymbol → nodes ≠ [])
    (specific : code ≠ .syntaxError)
    (below : ∀ inside, placesOf code (diagnosticsOf source inside nodes) =
      askedFor source code place.start (leavesOf children)) (inside : Bool) :
    placesOf code (diagnosticsOf source inside
        [.mk (language.nodeInfo place (.node head children)) nodes]) =
      askedFor source code place.start (leavesOf children) := by
  rw [diagnosticsOf_singleton]
  cases flagged : (Subtree.node head children).containsError with
  | false =>
      have clean : askedFor source code place.start (leavesOf children) = [] :=
        askedFor_of_clean (.node head children) place.start flagged
      simp [Node.info, nodeInfo, nodeInfoOf, flagged, clean]
  | true =>
      have flag : (language.nodeInfo place (.node head children)).hasError = true := flagged
      rw [Node.info, if_pos flag, placesOf_diagnostics rfl ?_ specific, below]
      exact fun error => filled (beq_iff_eq.mp error)

mutual

/-- The missing tokens and the stray characters that are reported of what a subtree shows are
those among its leaves. -/
theorem placesOf_visibleNodes (specific : code ≠ .syntaxError) (subtree : Subtree)
    (displays : subtree.Everywhere (Displays language)) (inside : Bool) (place : Placement) :
    placesOf code (diagnosticsOf source inside (language.visibleNodes place subtree)) =
      askedFor source code place.start subtree.leaves := by
  cases subtree with
  | leaf token =>
      rw [visibleNodes, if_pos (shows_of_shows_none displays.here place.shownAs)]
      exact placesOf_leaf place token specific inside
  | node head children =>
      obtain ⟨here, below⟩ := everywhere_node.mp displays
      have inner := fun inside production inherited =>
        placesOf_visibleChildren specific children below inside production inherited place.start 0
      rw [visibleNodes]
      split
      case isFalse => exact inner ..
      case isTrue =>
          refine placesOf_node (fun error => ?_) specific (fun inside => inner ..) inside
          obtain ⟨child, member, shown⟩ := here (.inl error)
          exact visibleChildren_ne_nil member shown _ _

theorem placesOf_visibleChildren (specific : code ≠ .syntaxError) (children : List Subtree)
    (displays : ∀ child ∈ children, child.Everywhere (Displays language)) (inside : Bool)
    (production : Option ProductionId) (inherited : Option FieldId) (start index : Nat) :
    placesOf code (diagnosticsOf source inside
        (language.visibleChildren production inherited start index children)) =
      askedFor source code start (leavesOf children) := by
  cases children with
  | nil => simp [visibleChildren, diagnosticsOf, leavesOf, askedFor, placed]
  | cons child children =>
      have starts : (language.placement production inherited start index child).start = start := by
        unfold placement
        split <;> rfl
      rw [visibleChildren, diagnosticsOf_append, placesOf_append, leavesOf, askedFor_append,
        placesOf_visibleNodes specific child (displays child List.mem_cons_self), starts,
        placesOf_visibleChildren specific children
          (fun other member => displays other (List.mem_cons_of_mem _ member)),
        length_eq_sum]

end

theorem diagnosticsOf_leaf_ne_nil (place : Placement) {token : Leaf}
    (flagged : (Subtree.leaf token).containsError = true) :
    diagnosticsOf source false [.mk (language.nodeInfo place (.leaf token)) []] ≠ [] := by
  refine diagnosticsOf_ne_nil List.mem_cons_self (by exact flagged) ?_
  rw [diagnostics]
  split
  case isTrue => exact List.cons_ne_nil _ _
  case isFalse present =>
      have raw : (token.raw == errorSymbol) = true := by
        simp only [containsError, Bool.or_eq_true] at flagged
        exact flagged.resolve_right present
      have stray : (Node.mk (language.nodeInfo place (.leaf token)) []).isStray = true := by
        simp [isStray, Node.info, nodeInfo, nodeInfoOf, isError, raw, Node.children]
      rw [if_pos stray]
      exact List.cons_ne_nil _ _

theorem diagnosticsOf_node_ne_nil {place : Placement} {head : NodeHead} {children : List Subtree}
    {production : Option ProductionId} {inherited : Option FieldId} {start index : Nat}
    (flagged : (Subtree.node head children).containsError = true)
    (filled : head.symbol = errorSymbol →
      language.visibleChildren production inherited start index children ≠ [])
    (below : anyContainsError children = true → diagnosticsOf source false
      (language.visibleChildren production inherited start index children) ≠ []) :
    diagnosticsOf source false [.mk (language.nodeInfo place (.node head children))
      (language.visibleChildren production inherited start index children)] ≠ [] := by
  refine diagnosticsOf_ne_nil List.mem_cons_self (by exact flagged)
    (diagnostics_ne_nil rfl ?_ ?_ ?_)
  · exact fun error => filled (beq_iff_eq.mp error)
  · exact fun node listed => hasError_of_visibleChildren _ _ _ _ children listed
  · intro error
    simp only [containsError, Bool.or_eq_true] at flagged
    have symbol : (head.symbol == errorSymbol) = false := error
    exact below (flagged.resolve_left (by simp [symbol]))

mutual

/-- Something is reported of a subtree with the error flag. -/
theorem reports_visibleNodes (subtree : Subtree)
    (displays : subtree.Everywhere (Displays language)) (flagged : subtree.containsError = true)
    (place : Placement) :
    diagnosticsOf source false (language.visibleNodes place subtree) ≠ [] := by
  cases subtree with
  | leaf token =>
      rw [visibleNodes, if_pos (shows_of_shows_none displays.here place.shownAs)]
      exact diagnosticsOf_leaf_ne_nil place flagged
  | node head children =>
      obtain ⟨here, below⟩ := everywhere_node.mp displays
      rw [visibleNodes]
      split
      case isTrue =>
          refine diagnosticsOf_node_ne_nil flagged (fun error => ?_) fun some_flagged =>
            reports_visibleChildren children below some_flagged _ _ _ _
          obtain ⟨child, member, shown⟩ := here (.inl error)
          exact visibleChildren_ne_nil member shown _ _
      case isFalse hidden =>
          refine reports_visibleChildren children below ?_ _ _ _ _
          have ordinary : (head.symbol == errorSymbol) = false := by
            by_contra error
            exact hidden (by simp [shows, isError, error])
          simpa [containsError, ordinary] using flagged

theorem reports_visibleChildren (children : List Subtree)
    (displays : ∀ child ∈ children, child.Everywhere (Displays language))
    (flagged : anyContainsError children = true) (production : Option ProductionId)
    (inherited : Option FieldId) (start index : Nat) :
    diagnosticsOf source false
      (language.visibleChildren production inherited start index children) ≠ [] := by
  cases children with
  | nil => cases flagged
  | cons child children =>
      simp only [anyContainsError, Bool.or_eq_true] at flagged
      rw [visibleChildren, diagnosticsOf_append]
      rcases flagged with here | later
      · exact List.append_ne_nil_of_left_ne_nil
          (reports_visibleNodes child (displays child List.mem_cons_self) here _) _
      · exact List.append_ne_nil_of_right_ne_nil _
          (reports_visibleChildren children
            (fun other member => displays other (List.mem_cons_of_mem _ member)) later _ _ _ _)

end

end Language

/-! ## Reports of trees -/

namespace Diagnostic

theorem ofTree_eq (root : Node) (source : List Char) (file : Option String) :
    ofTree root source file = ((Node.diagnosticsOf source false [root]).mergeSort le).map
      fun diagnostic => { diagnostic with file := file } := by
  rw [ofTree, Node.diagnosticsOf_singleton]

theorem ofTree_eq_nil_iff {root : Node} {file : Option String} :
    ofTree root source file = [] ↔ Node.diagnosticsOf source false [root] = [] := by
  rw [ofTree_eq, List.map_eq_nil_iff]
  exact ⟨fun sorted => (sorted ▸ List.mergeSort_perm _ le).symm.eq_nil, fun found => by simp [found]⟩

theorem placesOf_ofTree (root : Node) (file : Option String) :
    (placesOf code (ofTree root source file)).Perm
      (placesOf code (Node.diagnosticsOf source false [root])) := by
  have same : placesOf code (ofTree root source file) =
      placesOf code ((Node.diagnosticsOf source false [root]).mergeSort le) := by
    rw [ofTree_eq, placesOf, placesOf, List.filter_map, List.map_map]
    rfl
  rw [same]
  exact ((List.mergeSort_perm _ le).filter _).map _

end Diagnostic

namespace Language

open Diagnostic Subtree

variable {language : Language} {head : NodeHead} {children : List Subtree}

/-- Where everything below the root displays itself, there are reports of a tree if and only if
its root has the error flag, and the missing tokens and the stray characters that are reported
are those among its leaves. -/
theorem ofTree_topNode (source : List Char) (ordinary : head.symbol ≠ errorSymbol)
    (displays : ∀ child ∈ children, child.Everywhere (Displays language))
    (file : Option String) :
    (ofTree (language.topNode (.node head children)) source file ≠ [] ↔
        (language.topNode (.node head children)).info.hasError = true) ∧
      ∀ code ≠ .syntaxError,
        (placesOf code (ofTree (language.topNode (.node head children)) source file)).Perm
          (askedFor source code 0 (leavesOf children)) := by
  have filled : head.symbol = errorSymbol → language.visibleChildren head.production none 0 0
      children ≠ [] := fun error => absurd error ordinary
  refine ⟨?_, fun code specific => ?_⟩
  · rw [ne_eq, ofTree_eq_nil_iff]
    constructor
    · intro reported
      by_contra clean
      exact reported (by rw [Node.diagnosticsOf_singleton, if_neg clean])
    · intro flagged
      exact diagnosticsOf_node_ne_nil flagged filled fun some_flagged =>
        reports_visibleChildren children displays some_flagged _ _ _ _
  · refine (placesOf_ofTree _ file).trans (.of_eq ?_)
    refine placesOf_node filled specific (fun inside => ?_) false
    exact placesOf_visibleChildren specific children displays inside head.production none 0 0

end Language

end Lalr
