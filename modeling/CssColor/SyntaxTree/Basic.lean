import CssColor.Text.Raw

/-!
# Syntax trees

The tree that a host parser makes of a document. A node has a name, a span and children; a node for
an attribute value may also carry an overlay, the tree of a text in another grammar whose offsets
start behind the opening quote.

`SyntaxTree.visit` lists the nodes that touch an extent in document order. All that is below a node
that does not touch it is left out.
-/

namespace CssColor

/-- A node of a syntax tree with all that is below it. -/
structure SyntaxTree where
  /-- The name of the grammar rule. -/
  name : RawText
  /-- The offset of the first character. -/
  start : Nat
  /-- The offset after the last character. -/
  stop : Nat
  /-- The nodes below this one, in document order. -/
  children : List SyntaxTree := []
  /-- The tree of a text in another grammar. -/
  overlay : Option SyntaxTree := none
  deriving Repr

/-- A stretch of a document, given by its first and its last offset, which both belong to it. -/
structure Extent where
  /-- The first offset. -/
  start : Int
  /-- The last offset. -/
  stop : Int
  deriving DecidableEq, Repr

namespace SyntaxTree

/-- The span of a node as an extent. -/
def extent (tree : SyntaxTree) : Extent := ⟨tree.start, tree.stop⟩

/-- A node touches an extent when it starts no later than the extent stops, and stops no earlier
than the extent starts. -/
def Touches (tree : SyntaxTree) (extent : Extent) : Prop :=
  (tree.start : Int) ≤ extent.stop ∧ extent.start ≤ (tree.stop : Int)

/-- The span of a node is compared with the bounds. -/
instance (tree : SyntaxTree) (extent : Extent) : Decidable (tree.Touches extent) :=
  inferInstanceAs (Decidable (_ ∧ _))

mutual

/-- The number of nodes of a tree without its overlays. -/
def size : SyntaxTree → Nat
  | ⟨_, _, _, children, _⟩ => sizes children + 1

/-- The number of nodes of a list of trees. -/
def sizes : List SyntaxTree → Nat
  | [] => 0
  | tree :: rest => tree.size + sizes rest

end

/-- A tree has one node more than its children have together. -/
theorem size_eq (tree : SyntaxTree) : tree.size = sizes tree.children + 1 := by
  cases tree
  rw [size]

@[simp] theorem sizes_nil : sizes [] = 0 := by
  rw [sizes]

@[simp] theorem sizes_cons (tree : SyntaxTree) (rest : List SyntaxTree) :
    sizes (tree :: rest) = tree.size + sizes rest := by
  rw [sizes]

@[simp] theorem sizes_append (trees more : List SyntaxTree) :
    sizes (trees ++ more) = sizes trees + sizes more := by
  induction trees with
  | nil => simp
  | cons tree rest ih => simp [ih, Nat.add_assoc]

/-- The nodes that touch an extent, in document order, of the trees on a stack. The children of a
node that touches the extent take its place on the stack; a node that does not is dropped with all
below it. -/
def visitAll (extent : Extent) : List SyntaxTree → List SyntaxTree
  | [] => []
  | tree :: rest =>
    if tree.Touches extent then tree :: visitAll extent (tree.children ++ rest)
    else visitAll extent rest
termination_by stack => sizes stack
decreasing_by
  all_goals simp [size_eq]

@[simp] theorem visitAll_nil (extent : Extent) : visitAll extent [] = [] := by
  rw [visitAll]

/-- A tree that touches the extent is visited, and its children come next. -/
theorem visitAll_cons_of_touches {extent : Extent} {tree : SyntaxTree} (h : tree.Touches extent)
    (rest : List SyntaxTree) :
    visitAll extent (tree :: rest) = tree :: visitAll extent (tree.children ++ rest) := by
  rw [visitAll, if_pos h]

/-- A tree that does not touch the extent is passed over with all that is below it. -/
theorem visitAll_cons_of_not_touches {extent : Extent} {tree : SyntaxTree}
    (h : ¬ tree.Touches extent) (rest : List SyntaxTree) :
    visitAll extent (tree :: rest) = visitAll extent rest := by
  rw [visitAll, if_neg h]

/-- The trees on a stack are visited one after the other. -/
theorem visitAll_append (extent : Extent) (trees rest : List SyntaxTree) :
    visitAll extent (trees ++ rest) = visitAll extent trees ++ visitAll extent rest := by
  fun_induction visitAll extent trees with
  | case1 => simp
  | case2 tree more h ih =>
    rw [List.cons_append, visitAll_cons_of_touches h, ← List.append_assoc, ih, List.cons_append]
  | case3 tree more h ih => rw [List.cons_append, visitAll_cons_of_not_touches h, ih]

/-- The nodes of a tree that touch an extent, in document order. -/
def visit (extent : Extent) (tree : SyntaxTree) : List SyntaxTree := visitAll extent [tree]

end SyntaxTree

end CssColor
