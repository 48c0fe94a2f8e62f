import CssColor.Proofs.SyntaxTree.Nesting
import Mathlib.Logic.Function.Iterate

/-!
# The walk through a tree, turn by turn

The nodes of a tree that touch an extent are found in turns, with a stack of trees that are still to
be visited. The stack mixes siblings of several levels, so what a turn keeps is said of the stack as
a whole: the nodes found so far, followed by what a recursion over each tree on the stack would
find. The trees on the stack have fewer nodes together after every turn, so the walk comes to an
end.

## Main definitions

* `SyntaxTree.pruned`: the nodes that touch an extent, found by recursion over the tree.
* `SyntaxTree.Walk`: the stack of a walk and what it has found, with `Walk.turn` for one turn.

## Main results

* `SyntaxTree.visit_eq_pruned`: the recursion finds the nodes that are visited.
* `SyntaxTree.Walk.outcome_turn`: a turn does not change what the walk will have found in the end.
* `SyntaxTree.Walk.exists_turns`: the walk ends, and has found that.
* `SyntaxTree.pruning_loses_nothing`: the walk finds the same nodes as the recursion, and in an
  enclosing tree all nodes that touch the extent.
-/

namespace CssColor.SyntaxTree

/-! ## The recursion -/

mutual

/-- The nodes of a tree that touch an extent, in pre-order: a tree that touches it, and then the
nodes of its children, one child after the other. A tree that does not touch the extent contributes
nothing, whatever is below it. -/
def pruned (extent : Extent) : SyntaxTree → List SyntaxTree
  | tree@⟨_, _, _, children, _⟩ =>
    if tree.Touches extent then tree :: prunedAll extent children else []

/-- The nodes of the trees of a list that touch an extent, one tree after the other. -/
def prunedAll (extent : Extent) : List SyntaxTree → List SyntaxTree
  | [] => []
  | tree :: rest => pruned extent tree ++ prunedAll extent rest

end

/-- The trees of a list are pruned one by one. -/
theorem prunedAll_eq_flatMap (extent : Extent) (trees : List SyntaxTree) :
    prunedAll extent trees = trees.flatMap (pruned extent) := by
  induction trees with
  | nil => rw [prunedAll, List.flatMap_nil]
  | cons tree rest ih => rw [prunedAll, ih, List.flatMap_cons]

/-- A tree that touches the extent comes before what is left of its children. -/
theorem pruned_of_touches {extent : Extent} {tree : SyntaxTree} (h : tree.Touches extent) :
    tree.pruned extent = tree :: tree.children.flatMap (pruned extent) := by
  cases tree with
  | mk name start stop children overlay => rw [pruned, if_pos h, prunedAll_eq_flatMap]

theorem pruned_of_not_touches {extent : Extent} {tree : SyntaxTree} (h : ¬ tree.Touches extent) :
    tree.pruned extent = [] := by
  cases tree with
  | mk name start stop children overlay => rw [pruned, if_neg h]

/-- The recursion finds the nodes that are visited. -/
theorem visit_eq_pruned (extent : Extent) (tree : SyntaxTree) :
    tree.visit extent = tree.pruned extent := by
  induction tree using childInduction with
  | step tree ih =>
    by_cases htree : tree.Touches extent
    · rw [visit_of_touches htree, pruned_of_touches htree]
      congr 1
      exact List.flatMap_congr ih
    · rw [visit_of_not_touches htree, pruned_of_not_touches htree]

/-! ## The walk -/

/-- A walk through a tree between two turns. -/
structure Walk where
  /-- The trees that are still to be visited. The last one comes next. -/
  stack : List SyntaxTree
  /-- The nodes that have been found, in the order in which they were. -/
  found : List SyntaxTree

namespace Walk

variable (extent : Extent)

/-- A walk that has not begun. -/
def start (tree : SyntaxTree) : Walk := ⟨[tree], []⟩

/-- One turn of a walk. The last tree is taken off the stack. When it touches the extent it is found
and leaves its children behind, the first of them on top. A walk with an empty stack is over. -/
def turn (walk : Walk) : Walk :=
  match walk.stack.getLast? with
  | none => walk
  | some tree =>
    if tree.Touches extent then
      ⟨walk.stack.dropLast ++ tree.children.reverse, walk.found ++ [tree]⟩
    else ⟨walk.stack.dropLast, walk.found⟩

/-- What a walk will have found in the end: what it has found, and what the recursion finds in the
trees on the stack, taken from the top. -/
def outcome (walk : Walk) : List SyntaxTree :=
  walk.found ++ walk.stack.reverse.flatMap (pruned extent)

variable {extent}

/-- A turn takes a tree that touches the extent off the stack and puts its children there. -/
theorem turn_of_touches {tree : SyntaxTree} (h : tree.Touches extent)
    (rest found : List SyntaxTree) :
    turn extent ⟨rest ++ [tree], found⟩ = ⟨rest ++ tree.children.reverse, found ++ [tree]⟩ := by
  simp [turn, h]

/-- A turn drops a tree that does not touch the extent. -/
theorem turn_of_not_touches {tree : SyntaxTree} (h : ¬ tree.Touches extent)
    (rest found : List SyntaxTree) : turn extent ⟨rest ++ [tree], found⟩ = ⟨rest, found⟩ := by
  simp [turn, h]

/-- A turn does not change what the walk will have found in the end. -/
theorem outcome_turn (walk : Walk) : (walk.turn extent).outcome extent = walk.outcome extent := by
  obtain ⟨stack, found⟩ := walk
  rcases List.eq_nil_or_concat stack with rfl | ⟨rest, tree, rfl⟩
  · rfl
  · rw [List.concat_eq_append]
    by_cases htree : tree.Touches extent
    · -- the children are put on the stack in reverse, which the reversal of the stack undoes
      simp [turn_of_touches htree, outcome, pruned_of_touches htree]
    · simp [turn_of_not_touches htree, outcome, pruned_of_not_touches htree]

theorem sizes_reverse (trees : List SyntaxTree) : sizes trees.reverse = sizes trees := by
  induction trees with
  | nil => rfl
  | cons tree rest ih => simp [ih, Nat.add_comm]

/-- A turn leaves fewer nodes on the stack: a tree is replaced by less than itself. -/
theorem sizes_turn_lt {walk : Walk} (h : walk.stack ≠ []) :
    sizes (walk.turn extent).stack < sizes walk.stack := by
  obtain ⟨stack, found⟩ := walk
  obtain ⟨rest, tree, rfl⟩ := (List.eq_nil_or_concat stack).resolve_left h
  have hsize := size_eq tree
  rw [List.concat_eq_append]
  by_cases htree : tree.Touches extent
  · simp [turn_of_touches htree, sizes_reverse, hsize]
  · simp [turn_of_not_touches htree, hsize]

/-- A walk ends after no more turns than there are nodes on its stack. -/
theorem exists_turns (extent : Extent) (walk : Walk) :
    ∃ turns ≤ sizes walk.stack, (turn extent)^[turns] walk = ⟨[], walk.outcome extent⟩ := by
  induction hsize : sizes walk.stack using Nat.strongRecOn generalizing walk with
  | ind size ih =>
    by_cases hstack : walk.stack = []
    · refine ⟨0, Nat.zero_le _, ?_⟩
      obtain ⟨stack, found⟩ := walk
      obtain rfl : stack = [] := hstack
      simp [outcome]
    · have hlt : sizes (walk.turn extent).stack < sizes walk.stack := sizes_turn_lt hstack
      obtain ⟨turns, hturns, hend⟩ := ih _ (hsize ▸ hlt) (walk.turn extent) rfl
      refine ⟨turns + 1, by omega, ?_⟩
      rw [Function.iterate_succ_apply, hend, outcome_turn]

end Walk

/-- Pruning loses nothing. Whatever the tree and the bounds of the extent, the walk ends and has
found what the recursion finds, and these are the nodes that are visited. Where children lie inside
their parents they are all nodes that touch the extent, in pre-order. -/
theorem pruning_loses_nothing (extent : Extent) (tree : SyntaxTree) :
    (∃ turns ≤ tree.size,
      (Walk.turn extent)^[turns] (Walk.start tree) = ⟨[], tree.pruned extent⟩) ∧
      tree.visit extent = tree.pruned extent ∧
      (tree.Enclosing → tree.visit extent = tree.nodes.filter (·.Touches extent)) := by
  refine ⟨?_, visit_eq_pruned extent tree, fun h => visit_eq_filter h extent⟩
  simpa [Walk.start, Walk.outcome] using Walk.exists_turns extent (Walk.start tree)

/-- Bounds that are reversed are touched by the nodes that reach from the lower one, or from before
it, to the higher one. -/
theorem pruning_loses_nothing_reversed :
    let value : SyntaxTree := { name := "ValueName", start := 5, stop := 9 }
    let style : SyntaxTree := { name := "Declaration", start := 4, stop := 16, children := [value] }
    let tree : SyntaxTree :=
      { name := "Document", start := 0, stop := 20
        children := [
          { name := "Rule", start := 2, stop := 18, children := [style] },
          { name := "Comment", start := 18, stop := 20 }] }
    tree.Enclosing ∧ tree.visit ⟨12, 8⟩ = tree.nodes.filter (·.Touches ⟨12, 8⟩) ∧
      (tree.visit ⟨12, 8⟩).map (·.name) = ["Document", "Rule", "Declaration"] := by
  intro value style tree
  have henclosing : tree.Enclosing := by decide
  have hvisit := (pruning_loses_nothing ⟨12, 8⟩ tree).2.2 henclosing
  refine ⟨henclosing, hvisit, ?_⟩
  rw [hvisit]
  decide

end CssColor.SyntaxTree
