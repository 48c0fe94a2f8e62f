import CssColor.SyntaxTree.Basic
import Mathlib.Data.List.Basic

/-!
# The visited nodes in pre-order

`SyntaxTree.visit` works through a stack. This file says what it lists without one: of all nodes in
pre-order, those that touch the extent and all of whose ancestors touch it.

## Main definitions

* `SyntaxTree.lineages`: all nodes of a tree in pre-order, each with its ancestors.
* `SyntaxTree.InSight`: a node and all its ancestors touch an extent.

## Main results

* `SyntaxTree.childInduction`: induction over a tree through the children of its nodes.
* `SyntaxTree.visit_eq`: the nodes that are visited are those in sight, in pre-order.
* `SyntaxTree.forall_mem_visit`: what children inherit from their parents holds of every visited
  node.
-/

namespace CssColor.SyntaxTree

/-- A tree has no more nodes than a list that it is in. -/
theorem size_le_sizes {tree : SyntaxTree} {trees : List SyntaxTree} (h : tree ∈ trees) :
    tree.size ≤ sizes trees := by
  induction trees with
  | nil => simp at h
  | cons first rest ih =>
    rw [sizes_cons]
    rcases List.mem_cons.mp h with rfl | h
    · omega
    · have := ih h
      omega

/-- Induction over a tree: what holds of a node whenever it holds of its children holds of every
node. -/
@[elab_as_elim]
theorem childInduction {motive : SyntaxTree → Prop}
    (step : ∀ tree, (∀ child ∈ tree.children, motive child) → motive tree)
    (tree : SyntaxTree) : motive tree := by
  induction h : tree.size using Nat.strongRecOn generalizing tree with
  | ind n ih =>
    refine step tree fun child hchild => ih child.size ?_ child rfl
    have hsize := size_eq tree
    have hle := size_le_sizes hchild
    omega

mutual

/-- All nodes of a tree in pre-order, each with its ancestors, the nearest one first. The ancestors
of the tree itself are given. -/
def lineages (above : List SyntaxTree) : SyntaxTree → List (SyntaxTree × List SyntaxTree)
  | tree@⟨_, _, _, children, _⟩ => (tree, above) :: lineagesAll (tree :: above) children

/-- All nodes of the trees of a list that have the same ancestors. -/
def lineagesAll (above : List SyntaxTree) :
    List SyntaxTree → List (SyntaxTree × List SyntaxTree)
  | [] => []
  | tree :: rest => lineages above tree ++ lineagesAll above rest

end

/-- A tree comes first, and then its children with all below them, one after the other. -/
theorem lineages_eq (above : List SyntaxTree) (tree : SyntaxTree) :
    tree.lineages above =
      (tree, above) :: tree.children.flatMap (lineages (tree :: above)) := by
  have hall (above trees : List SyntaxTree) :
      lineagesAll above trees = trees.flatMap (lineages above) := by
    induction trees with
    | nil => rw [lineagesAll, List.flatMap_nil]
    | cons tree rest ih => rw [lineagesAll, ih, List.flatMap_cons]
  cases tree with
  | mk name start stop children overlay => rw [lineages, hall]

/-- A node is in sight of an extent when it touches the extent and all its ancestors do. -/
def InSight (extent : Extent) (lineage : SyntaxTree × List SyntaxTree) : Prop :=
  lineage.1.Touches extent ∧ ∀ ancestor ∈ lineage.2, ancestor.Touches extent

/-- A node and its ancestors are compared with the extent one by one. -/
instance (extent : Extent) (lineage : SyntaxTree × List SyntaxTree) :
    Decidable (InSight extent lineage) :=
  inferInstanceAs (Decidable (_ ∧ _))

/-- The nodes of a tree in sight of an extent, in pre-order. -/
def nodesInSight (extent : Extent) (tree : SyntaxTree) : List SyntaxTree :=
  ((tree.lineages []).filter (InSight extent)).map Prod.fst

/-- Nothing is in sight below an ancestor that does not touch the extent. -/
theorem filter_lineages_eq_nil {extent : Extent} {above : List SyntaxTree} {ancestor : SyntaxTree}
    (hmem : ancestor ∈ above) (hout : ¬ ancestor.Touches extent) (tree : SyntaxTree) :
    (tree.lineages above).filter (InSight extent) = [] := by
  induction tree using childInduction generalizing above with
  | step tree ih =>
    have hself : ¬ InSight extent (tree, above) := fun h => hout (h.2 ancestor hmem)
    rw [lineages_eq, List.filter_cons_of_neg (by simpa using hself), List.filter_flatMap]
    refine List.flatMap_eq_nil_iff.mpr fun child hchild => ?_
    exact ih child hchild (List.mem_cons_of_mem _ hmem)

/-- The trees on a stack are visited each on its own. -/
theorem visitAll_eq_flatMap (extent : Extent) (trees : List SyntaxTree) :
    visitAll extent trees = trees.flatMap (visit extent) := by
  induction trees with
  | nil => simp
  | cons tree rest ih =>
    rw [List.flatMap_cons, ← ih, visit, ← visitAll_append, List.singleton_append]

/-- A node that touches the extent is visited before its children. -/
theorem visit_of_touches {extent : Extent} {tree : SyntaxTree} (h : tree.Touches extent) :
    tree.visit extent = tree :: tree.children.flatMap (visit extent) := by
  rw [visit, visitAll_cons_of_touches h, List.append_nil, visitAll_eq_flatMap]

/-- Nothing is visited of a tree that does not touch the extent. -/
theorem visit_of_not_touches {extent : Extent} {tree : SyntaxTree} (h : ¬ tree.Touches extent) :
    tree.visit extent = [] := by
  rw [visit, visitAll_cons_of_not_touches h, visitAll_nil]

/-- Below ancestors that touch the extent, the nodes in sight are those that are visited. -/
theorem map_filter_lineages {extent : Extent} {above : List SyntaxTree}
    (habove : ∀ ancestor ∈ above, ancestor.Touches extent) (tree : SyntaxTree) :
    ((tree.lineages above).filter (InSight extent)).map Prod.fst = tree.visit extent := by
  induction tree using childInduction generalizing above with
  | step tree ih =>
    by_cases htree : tree.Touches extent
    · have hself : InSight extent (tree, above) := ⟨htree, habove⟩
      have hbelow : ∀ ancestor ∈ tree :: above, ancestor.Touches extent := by
        intro ancestor hmem
        rcases List.mem_cons.mp hmem with rfl | hmem
        · exact htree
        · exact habove ancestor hmem
      rw [lineages_eq, List.filter_cons_of_pos (by simpa using hself), List.map_cons,
        visit_of_touches htree, List.filter_flatMap, List.map_flatMap]
      congr 1
      exact List.flatMap_congr fun child hchild => ih child hchild hbelow
    · have hself : ¬ InSight extent (tree, above) := fun h => htree h.1
      -- the tree is now an ancestor out of sight of everything below it
      rw [lineages_eq, List.filter_cons_of_neg (by simpa using hself),
        visit_of_not_touches htree, List.filter_flatMap]
      refine List.map_eq_nil_iff.mpr (List.flatMap_eq_nil_iff.mpr fun child _ => ?_)
      exact filter_lineages_eq_nil (List.mem_cons_self ..) htree child

/-- The nodes that are visited are the nodes in sight, in pre-order. -/
theorem visit_eq (extent : Extent) (tree : SyntaxTree) :
    tree.visit extent = tree.nodesInSight extent :=
  (map_filter_lineages (by simp) tree).symm

/-- What children inherit from their parents holds of every visited node if it holds of the trees
on the stack. -/
theorem forall_mem_visitAll {extent : Extent} {P : SyntaxTree → Prop}
    (inherit : ∀ tree, P tree → ∀ child ∈ tree.children, P child) {stack : List SyntaxTree}
    (hstack : ∀ tree ∈ stack, P tree) : ∀ node ∈ visitAll extent stack, P node := by
  fun_induction visitAll extent stack with
  | case1 => simp
  | case2 tree rest _ ih =>
    have htree : P tree := hstack tree (List.mem_cons_self ..)
    have hnext : ∀ next ∈ tree.children ++ rest, P next := by
      intro next hnext
      rcases List.mem_append.mp hnext with hchild | hrest
      · exact inherit tree htree next hchild
      · exact hstack next (List.mem_cons_of_mem _ hrest)
    intro node hnode
    rcases List.mem_cons.mp hnode with rfl | hnode
    · exact htree
    · exact ih hnext node hnode
  | case3 tree rest _ ih => exact ih fun next hnext => hstack next (List.mem_cons_of_mem _ hnext)

/-- What children inherit from their parents holds of every visited node of a tree if it holds of
the tree. -/
theorem forall_mem_visit {extent : Extent} {P : SyntaxTree → Prop}
    (inherit : ∀ tree, P tree → ∀ child ∈ tree.children, P child) {tree : SyntaxTree}
    (htree : P tree) : ∀ node ∈ tree.visit extent, P node :=
  forall_mem_visitAll inherit (by simpa using htree)

end CssColor.SyntaxTree
