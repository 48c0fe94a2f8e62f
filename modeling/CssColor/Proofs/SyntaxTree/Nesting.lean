import CssColor.Proofs.SyntaxTree.Preorder

/-!
# Nested trees

Where the span of every child lies inside the span of its parent, no node touches an extent that
one of its ancestors does not touch. So leaving out all that is below such an ancestor loses
nothing: the nodes that are visited are those that touch the extent, whatever stands above them.

## Main definitions

* `SyntaxTree.nodes`: all nodes of a tree in pre-order.
* `SyntaxTree.Enclosing`: children lie inside their parents.
* `SyntaxTree.Nested`: in addition, no node ends before it starts.

## Main results

* `SyntaxTree.visit_eq_filter`: in an enclosing tree all nodes that touch the extent are visited.
* `SyntaxTree.visit_self`: a nested tree is visited as a whole through its own extent.
-/

namespace CssColor.SyntaxTree

/-- All nodes of a tree in pre-order, without its overlays. -/
def nodes (tree : SyntaxTree) : List SyntaxTree := (tree.lineages []).map Prod.fst

/-- The nodes of a tree are the same whatever stands above it. -/
theorem map_fst_lineages (above : List SyntaxTree) (tree : SyntaxTree) :
    (tree.lineages above).map Prod.fst = tree.nodes := by
  unfold nodes
  induction tree using childInduction generalizing above with
  | step tree ih =>
    rw [lineages_eq, lineages_eq, List.map_cons, List.map_cons, List.map_flatMap, List.map_flatMap]
    congr 1
    refine List.flatMap_congr fun child hchild => ?_
    rw [ih child hchild (tree :: above), ih child hchild [tree]]

/-- A tree comes first, and then the nodes of its children, one child after the other. -/
theorem nodes_eq (tree : SyntaxTree) : tree.nodes = tree :: tree.children.flatMap nodes := by
  rw [nodes, lineages_eq, List.map_cons, List.map_flatMap]
  congr 1
  exact List.flatMap_congr fun child _ => map_fst_lineages [tree] child

/-- The span of a node lies inside the span of another. -/
def Within (node outer : SyntaxTree) : Prop :=
  outer.start ≤ node.start ∧ node.stop ≤ outer.stop

/-- Spans are compared by their ends. -/
instance (node outer : SyntaxTree) : Decidable (node.Within outer) :=
  inferInstanceAs (Decidable (_ ∧ _))

theorem Within.refl (node : SyntaxTree) : node.Within node := ⟨Nat.le_refl _, Nat.le_refl _⟩

theorem Within.trans {inner node outer : SyntaxTree} (h : inner.Within node)
    (h' : node.Within outer) : inner.Within outer :=
  ⟨Nat.le_trans h'.1 h.1, Nat.le_trans h.2 h'.2⟩

/-- What touches an extent touches it from inside any wider span too. -/
theorem Touches.of_within {node outer : SyntaxTree} {extent : Extent} (h : node.Touches extent)
    (hwithin : node.Within outer) : outer.Touches extent := by
  obtain ⟨hstart, hstop⟩ := h
  obtain ⟨hstart', hstop'⟩ := hwithin
  constructor
  · omega
  · omega

/-- The children of every node of a tree lie inside it. -/
def Enclosing (tree : SyntaxTree) : Prop :=
  ∀ node ∈ tree.nodes, ∀ child ∈ node.children, child.Within node

/-- The children of every node are compared with it. -/
instance (tree : SyntaxTree) : Decidable tree.Enclosing :=
  inferInstanceAs (Decidable (∀ node ∈ tree.nodes, ∀ child ∈ node.children, child.Within node))

theorem mem_nodes_self (tree : SyntaxTree) : tree ∈ tree.nodes := by
  rw [nodes_eq]
  exact List.mem_cons_self

/-- The nodes of a child are nodes of the tree. -/
theorem mem_nodes_of_child {tree child node : SyntaxTree} (hchild : child ∈ tree.children)
    (hnode : node ∈ child.nodes) : node ∈ tree.nodes := by
  rw [nodes_eq]
  exact List.mem_cons_of_mem _ (List.mem_flatMap.mpr ⟨child, hchild, hnode⟩)

/-- Whatever the extent, only nodes of the tree are visited. -/
theorem mem_nodes_of_mem_visit {extent : Extent} {tree node : SyntaxTree}
    (hnode : node ∈ tree.visit extent) : node ∈ tree.nodes := by
  induction tree using childInduction with
  | step tree ih =>
    by_cases htree : tree.Touches extent
    · rw [visit_of_touches htree] at hnode
      rcases List.mem_cons.mp hnode with rfl | hbelow
      · exact node.mem_nodes_self
      · obtain ⟨child, hchild, hnode⟩ := List.mem_flatMap.mp hbelow
        exact mem_nodes_of_child hchild (ih child hchild hnode)
    · rw [visit_of_not_touches htree] at hnode
      exact absurd hnode List.not_mem_nil

/-- The children of an enclosing tree enclose theirs. -/
theorem Enclosing.child {tree child : SyntaxTree} (h : tree.Enclosing)
    (hchild : child ∈ tree.children) : child.Enclosing :=
  fun node hnode => h node (mem_nodes_of_child hchild hnode)

/-- In an enclosing tree all nodes lie inside the tree, however deep they are. -/
theorem Enclosing.within {tree : SyntaxTree} (h : tree.Enclosing) :
    ∀ node ∈ tree.nodes, node.Within tree := by
  induction tree using childInduction with
  | step tree ih =>
    intro node hnode
    rw [nodes_eq] at hnode
    rcases List.mem_cons.mp hnode with rfl | hbelow
    · exact Within.refl node
    · obtain ⟨child, hchild, hnode⟩ := List.mem_flatMap.mp hbelow
      have hinner : node.Within child := ih child hchild (h.child hchild) node hnode
      exact hinner.trans (h tree tree.mem_nodes_self child hchild)

/-- In an enclosing tree the visited nodes are all that touch the extent, in pre-order. -/
theorem visit_eq_filter {tree : SyntaxTree} (h : tree.Enclosing) (extent : Extent) :
    tree.visit extent = tree.nodes.filter (·.Touches extent) := by
  induction tree using childInduction with
  | step tree ih =>
    by_cases htree : tree.Touches extent
    · rw [visit_of_touches htree, nodes_eq, List.filter_cons_of_pos (by simpa using htree),
        List.filter_flatMap]
      congr 1
      exact List.flatMap_congr fun child hchild => ih child hchild (h.child hchild)
    · -- a node below that touches the extent would make the tree touch it as well
      have hnone : ∀ node ∈ tree.nodes, ¬ node.Touches extent :=
        fun node hnode htouches => htree (htouches.of_within (h.within node hnode))
      rw [visit_of_not_touches htree, eq_comm, List.filter_eq_nil_iff]
      simpa using hnone

/-- Children lie inside their parents, and no node ends before it starts. -/
structure Nested (tree : SyntaxTree) : Prop where
  /-- No node ends before it starts. -/
  ordered : ∀ node ∈ tree.nodes, node.start ≤ node.stop
  /-- Children lie inside their parents. -/
  enclosing : tree.Enclosing

/-- A nested tree is visited as a whole through its own extent. -/
theorem visit_self {tree : SyntaxTree} (h : tree.Nested) : tree.visit tree.extent = tree.nodes := by
  rw [visit_eq_filter h.enclosing, List.filter_eq_self]
  intro node hnode
  have hordered := h.ordered node hnode
  obtain ⟨hstart, hstop⟩ := h.enclosing.within node hnode
  have htouches : node.Touches tree.extent := by
    constructor
    · show (node.start : Int) ≤ tree.stop
      omega
    · show (tree.start : Int) ≤ node.stop
      omega
  simpa using htouches

end CssColor.SyntaxTree
