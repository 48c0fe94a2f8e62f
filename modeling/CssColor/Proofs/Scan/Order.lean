import CssColor.Proofs.Scan.Walk
import CssColor.Proofs.SyntaxTree.Nesting
import Mathlib.Data.List.Chain

/-!
# The order of tokens in the document

The tokens of a well-formed tree come in document order and do not overlap, whatever range is
scanned. An overlay has offsets of its own; its tokens still fall between the quotes of the
attribute value in whose place they are reported.

The proof goes from the leaves up. What the nodes of one tree contribute lies inside the span of the
tree and in order, because children stand side by side and a node with tokens of its own has none
below it. This is shown once for trees whose offsets start anywhere, and used for an overlay first
and for the tree that carries it afterwards.

## Main definitions

* `SyntaxTree.WellFormed`: spans nest and follow each other, and colors hold no colors.
* `Scan.InOrder`: tokens lie in a stretch of the document, one behind the other.
* `Scan.Settled`: nodes contribute tokens inside their spans, and only where none are below.

## Main results

* `Scan.InOrder.visit`: what the nodes of a well-formed tree contribute is in order.
* `Scan.tokens_pairwise`: the tokens that a scan finds are in order and disjoint.
-/

namespace CssColor

namespace SyntaxTree

/-- The name of the node is one under which its text may be a color. -/
def IsColorNode (node : SyntaxTree) : Prop :=
  node.name = "ColorLiteral" ∨ node.name = "ValueName" ∨ node.name = "CallExpression"

/-- The name of a node is compared with each of the names. -/
instance (node : SyntaxTree) : Decidable node.IsColorNode :=
  inferInstanceAs (Decidable (_ ∨ _ ∨ _))

/-- All nodes below a tree in pre-order, without its overlays. -/
def descendants (tree : SyntaxTree) : List SyntaxTree := tree.children.flatMap nodes

/-- How a node of a well-formed tree stands to its children and to its overlay. -/
structure LaidOut (tree : SyntaxTree) : Prop where
  /-- The node does not end before it starts. -/
  ordered : tree.start ≤ tree.stop
  /-- Its children lie inside it. -/
  within : ∀ child ∈ tree.children, child.Within tree
  /-- Each child ends before the next one starts. -/
  apart : tree.children.IsChain fun child next => child.stop ≤ next.start
  /-- Below a node that may be a color there is neither another one nor an overlay. -/
  alone : tree.IsColorNode → ∀ node ∈ tree.descendants, ¬ node.IsColorNode ∧ node.overlay = none
  /-- An attribute value with an overlay has no children, and the overlay ends inside it. -/
  carrying : tree.isAttribute = true → ∀ overlay ∈ tree.overlay,
    tree.children = [] ∧ tree.start + 1 + overlay.stop ≤ tree.stop

/-- The spans of children and overlay are compared with that of the node. -/
instance (tree : SyntaxTree) : Decidable tree.LaidOut :=
  decidable_of_iff
    (tree.start ≤ tree.stop ∧ (∀ child ∈ tree.children, child.Within tree) ∧
      (tree.children.IsChain fun child next => child.stop ≤ next.start) ∧
      (tree.IsColorNode → ∀ node ∈ tree.descendants, ¬ node.IsColorNode ∧ node.overlay = none) ∧
      (tree.isAttribute = true → ∀ overlay ∈ tree.overlay,
        tree.children = [] ∧ tree.start + 1 + overlay.stop ≤ tree.stop))
    ⟨fun ⟨ordered, within, apart, alone, carrying⟩ => ⟨ordered, within, apart, alone, carrying⟩,
      fun h => ⟨h.ordered, h.within, h.apart, h.alone, h.carrying⟩⟩

/-- Every node of the tree is laid out properly, and so is every node of the overlays of its
attribute values. -/
inductive WellFormed : SyntaxTree → Prop
  /-- The node itself, its children, and its overlay if it is an attribute value. -/
  | intro {tree : SyntaxTree} (laidOut : tree.LaidOut)
    (children : ∀ child ∈ tree.children, WellFormed child)
    (overlay : tree.isAttribute = true → ∀ overlay ∈ tree.overlay, WellFormed overlay) :
    WellFormed tree

namespace WellFormed

variable {tree : SyntaxTree}

/-- The root of a well-formed tree is laid out properly. -/
theorem laidOut (h : tree.WellFormed) : tree.LaidOut := by
  cases h with
  | intro laidOut _ _ => exact laidOut

/-- The children of a well-formed tree are well formed. -/
theorem child (h : tree.WellFormed) : ∀ child ∈ tree.children, child.WellFormed := by
  cases h with
  | intro _ children _ => exact children

/-- The overlay of a well-formed attribute value is well formed. -/
theorem overlay (h : tree.WellFormed) (hattribute : tree.isAttribute = true) :
    ∀ overlay ∈ tree.overlay, overlay.WellFormed := by
  cases h with
  | intro _ _ overlay => exact overlay hattribute

end WellFormed

end SyntaxTree

namespace Scan

/-! ## Tokens in order -/

/-- The tokens lie between two offsets of the document, each of them behind the ones before it. -/
structure InOrder (start stop : Int) (tokens : List Token) : Prop where
  /-- A token ends before any later one starts. -/
  pairwise : tokens.Pairwise fun first second => first.stop ≤ second.start
  /-- The tokens lie between the offsets. -/
  within : ∀ token ∈ tokens, start ≤ token.start ∧ token.stop ≤ stop

namespace InOrder

variable {start stop : Int} {tokens : List Token}

theorem nil (start stop : Int) : InOrder start stop [] :=
  ⟨List.Pairwise.nil, fun _ htoken => absurd htoken List.not_mem_nil⟩

theorem singleton {token : Token} (hstart : start ≤ token.start) (hstop : token.stop ≤ stop) :
    InOrder start stop [token] := by
  refine ⟨List.pairwise_singleton _ _, fun other hother => ?_⟩
  rw [List.mem_singleton.mp hother]
  exact ⟨hstart, hstop⟩

/-- Tokens that lie in a stretch lie in every wider one. -/
theorem mono (h : InOrder start stop tokens) {start' stop' : Int} (hstart : start' ≤ start)
    (hstop : stop ≤ stop') : InOrder start' stop' tokens := by
  refine ⟨h.pairwise, fun token htoken => ?_⟩
  obtain ⟨hfirst, hlast⟩ := h.within token htoken
  exact ⟨Int.le_trans hstart hfirst, Int.le_trans hlast hstop⟩

/-- Tokens up to an offset, followed by tokens from that offset on. -/
theorem append {middle : Int} {more : List Token} (h : InOrder start middle tokens)
    (hmore : InOrder middle stop more) (hstart : start ≤ middle) (hstop : middle ≤ stop) :
    InOrder start stop (tokens ++ more) := by
  constructor
  · refine List.pairwise_append.mpr ⟨h.pairwise, hmore.pairwise, ?_⟩
    intro first hfirst second hsecond
    exact Int.le_trans (h.within first hfirst).2 (hmore.within second hsecond).1
  · intro token htoken
    rcases List.mem_append.mp htoken with htoken | htoken
    · exact (h.mono (Int.le_refl _) hstop).within token htoken
    · exact (hmore.mono hstart (Int.le_refl _)).within token htoken

/-- Trees that stand side by side, each with tokens inside its span. -/
theorem flatMap {offset : Int} {trees : List SyntaxTree} {found : SyntaxTree → List Token}
    (hfound : ∀ tree ∈ trees, InOrder (offset + tree.start) (offset + tree.stop) (found tree))
    (hordered : ∀ tree ∈ trees, tree.start ≤ tree.stop)
    (hapart : trees.IsChain fun tree next => tree.stop ≤ next.start)
    (hstart : ∀ tree ∈ trees.head?, start ≤ offset + tree.start)
    (hstop : ∀ tree ∈ trees, offset + tree.stop ≤ stop) (hle : start ≤ stop) :
    InOrder start stop (trees.flatMap found) := by
  induction trees generalizing start with
  | nil => exact nil start stop
  | cons tree rest ih =>
    rw [List.flatMap_cons]
    have hspan := hordered tree List.mem_cons_self
    have hfirst : start ≤ offset + tree.start := hstart tree rfl
    have hlast : offset + tree.stop ≤ stop := hstop tree List.mem_cons_self
    -- the end of this tree is the offset that all the others stand behind
    have hrest : InOrder (offset + tree.stop) stop (rest.flatMap found) := by
      apply ih
      · exact fun other hother => hfound other (List.mem_cons_of_mem _ hother)
      · exact fun other hother => hordered other (List.mem_cons_of_mem _ hother)
      · exact hapart.tail
      · intro next hnext
        have hbehind : tree.stop ≤ next.start := hapart.rel_head? hnext
        omega
      · exact fun other hother => hstop other (List.mem_cons_of_mem _ hother)
      · exact hlast
    refine append ((hfound tree List.mem_cons_self).mono hfirst (Int.le_refl _)) hrest ?_ hlast
    omega

end InOrder

/-! ## The nodes of one tree -/

/-- What the nodes of a tree contribute whose offsets start at `offset`: every node contributes
tokens in order inside its own span, and nothing is contributed below a node that does. -/
structure Settled (offset : Int) (own : SyntaxTree → List Token) : Prop where
  /-- A node contributes tokens inside its span. -/
  inside : ∀ node : SyntaxTree, node.WellFormed →
    InOrder (offset + node.start) (offset + node.stop) (own node)
  /-- No node contributes anything below one that does. -/
  alone : ∀ node : SyntaxTree, node.WellFormed → own node ≠ [] →
    ∀ other ∈ node.descendants, own other = []

/-- What the visited nodes of a well-formed tree contribute is in order and inside the span of the
tree. -/
theorem InOrder.visit {offset : Int} {own : SyntaxTree → List Token} (hown : Settled offset own)
    {tree : SyntaxTree} (h : tree.WellFormed) (extent : Extent) :
    InOrder (offset + tree.start) (offset + tree.stop) ((tree.visit extent).flatMap own) := by
  induction tree using SyntaxTree.childInduction with
  | step tree ih =>
    by_cases htouches : tree.Touches extent
    · rw [SyntaxTree.visit_of_touches htouches, List.flatMap_cons]
      by_cases hempty : own tree = []
      · -- all tokens are those of the children, which stand side by side
        rw [hempty, List.nil_append, List.flatMap_assoc]
        have hspan := h.laidOut.ordered
        refine InOrder.flatMap (fun child hchild => ih child hchild (h.child child hchild))
          (fun child hchild => (h.child child hchild).laidOut.ordered) h.laidOut.apart ?_ ?_
          (by omega)
        · intro child hchild
          obtain ⟨hstart, -⟩ := h.laidOut.within child (List.mem_of_mem_head? hchild)
          omega
        · intro child hchild
          obtain ⟨-, hstop⟩ := h.laidOut.within child hchild
          omega
      · -- the tree has tokens of its own, so nothing is added below it
        have hnone : (tree.children.flatMap (SyntaxTree.visit extent)).flatMap own = [] := by
          refine List.flatMap_eq_nil_iff.mpr fun other hother => ?_
          apply hown.alone tree h hempty
          obtain ⟨child, hchild, hvisited⟩ := List.mem_flatMap.mp hother
          exact List.mem_flatMap.mpr
            ⟨child, hchild, SyntaxTree.mem_nodes_of_mem_visit hvisited⟩
        rw [hnone, List.append_nil]
        exact hown.inside tree h
    · rw [SyntaxTree.visit_of_not_touches htouches]
      exact InOrder.nil _ _

/-! ## The tokens of nodes and of overlays -/

/-- Only a node with one of the three names has a token. -/
theorem nodeToken?_of_not_isColorNode {node : SyntaxTree} (h : ¬ node.IsColorNode)
    (document : String) (offset : Int) : nodeToken? document offset node = none := by
  obtain ⟨hliteral, hvalue, hcall⟩ : node.name ≠ "ColorLiteral" ∧ node.name ≠ "ValueName" ∧
      node.name ≠ "CallExpression" := by simpa [SyntaxTree.IsColorNode] using h
  simp [nodeToken?, SyntaxTree.reading?, hliteral, hvalue, hcall]

/-- The token of a node spans the node. -/
theorem inOrder_nodeToken? (document : String) (offset : Int) (node : SyntaxTree) :
    InOrder (offset + node.start) (offset + node.stop)
      (nodeToken? document offset node).toList := by
  cases htoken : nodeToken? document offset node with
  | none => exact InOrder.nil _ _
  | some token =>
    obtain ⟨found, -, rfl⟩ := Option.map_eq_some_iff.mp htoken
    exact InOrder.singleton (Int.le_refl _) (Int.le_refl _)

/-- Inside an overlay a node stands for its own token only. -/
theorem settled_nodeToken? (document : String) (offset : Int) :
    Settled offset fun node => (nodeToken? document offset node).toList where
  inside node _ := inOrder_nodeToken? document offset node
  alone node hnode hown other hother := by
    have hcolor : node.IsColorNode := by
      by_contra hnot
      exact hown (by rw [nodeToken?_of_not_isColorNode hnot, Option.toList_none])
    obtain ⟨hnot, -⟩ := hnode.laidOut.alone hcolor other hother
    rw [nodeToken?_of_not_isColorNode hnot, Option.toList_none]

/-- The tokens of an overlay lie between the quotes of the attribute value that carries it. -/
theorem inOrder_overlayTokens (document : String) {carrier : SyntaxTree} (h : carrier.WellFormed)
    (hattribute : carrier.isAttribute = true) :
    InOrder carrier.start carrier.stop (overlayTokens document carrier) := by
  unfold overlayTokens
  split
  · next overlay hoverlay =>
    have hinner := InOrder.visit (settled_nodeToken? document (carrier.start + 1))
      (h.overlay hattribute overlay hoverlay) overlay.extent
    rw [SyntaxTree.visit_eq] at hinner
    obtain ⟨-, hstop⟩ := h.laidOut.carrying hattribute overlay hoverlay
    exact hinner.mono (by omega) (by omega)
  · exact InOrder.nil _ _

/-- Outside of overlays an attribute value stands for the tokens of its overlay, and any other node
for its own token. -/
theorem settled_walk (document : String) :
    Settled 0 fun node => if node.name = "AttributeValue" then overlayTokens document node
      else (nodeToken? document 0 node).toList where
  inside node hnode := by
    split_ifs with hname
    · simpa using
        inOrder_overlayTokens document hnode (SyntaxTree.isAttribute_iff.mpr hname)
    · exact inOrder_nodeToken? document 0 node
  alone node hnode hown other hother := by
    by_cases hcolor : node.IsColorNode
    · -- below a color there is no other, and no attribute value has an overlay
      obtain ⟨hnot, hoverlay⟩ := hnode.laidOut.alone hcolor other hother
      rw [nodeToken?_of_not_isColorNode hnot, overlayTokens, hoverlay]
      simp
    · -- the tokens of the node are those of an overlay, so it has no children
      rw [nodeToken?_of_not_isColorNode hcolor] at hown
      by_cases hname : node.name = "AttributeValue"
      · rw [if_pos hname] at hown
        cases hoverlay : node.overlay with
        | none => exact absurd (by rw [overlayTokens, hoverlay]) hown
        | some overlay =>
          obtain ⟨hchildren, -⟩ := hnode.laidOut.carrying
            (SyntaxTree.isAttribute_iff.mpr hname) overlay hoverlay
          rw [SyntaxTree.descendants, hchildren] at hother
          exact absurd hother List.not_mem_nil
      · rw [if_neg hname] at hown
        exact absurd rfl hown

/-- The tokens that a scan of a well-formed tree finds are in document order, and no two of them
overlap. -/
theorem tokens_pairwise {document : String} {tree : SyntaxTree} (htree : tree.WellFormed)
    {extent : Option Extent} {found : List Token} (h : tokens document tree extent = .ok found) :
    found.Pairwise fun first second => first.stop ≤ second.start := by
  rw [eq_walk_of_tokens h, walk, ← SyntaxTree.visit_eq]
  exact (InOrder.visit (settled_walk document) htree _).pairwise

/-- An inline style with two colors, and a call with its arguments behind it, scanned from the
middle of the attribute on. -/
theorem tokens_pairwise_inline_style :
    let document := "<p style=\"red #FfF\">rgb(1 2 3)"
    let overlay : SyntaxTree :=
      { name := "StyleSheet", start := 0, stop := 8
        children := [
          { name := "ValueName", start := 0, stop := 3 },
          { name := "ColorLiteral", start := 4, stop := 8 }] }
    let carrier : SyntaxTree :=
      { name := "AttributeValue", start := 9, stop := 19, overlay := some overlay }
    let call : SyntaxTree :=
      { name := "CallExpression", start := 20, stop := 30
        children := [{ name := "NumberLiteral", start := 24, stop := 25 }] }
    let tree : SyntaxTree :=
      { name := "Document", start := 0, stop := 30, children := [carrier, call] }
    let found : List Token :=
      [{ kind := .named, color := "#ff0000", start := 10, stop := 13 },
       { kind := .hex, color := "#ffffff", start := 14, stop := 18 },
       { kind := .rgb, color := "#010203", function := "rgb", separator := " ", start := 20,
         stop := 30 }]
    tree.WellFormed ∧ tokens document tree (some ⟨15, 20⟩) = .ok found ∧
      found.Pairwise fun first second => first.stop ≤ second.start := by
  intro document overlay carrier call tree found
  have hleaf : ∀ node ∈ overlay.children ++ call.children, node.WellFormed := by
    intro node hnode
    simp only [overlay, call, List.cons_append, List.nil_append, List.mem_cons, List.not_mem_nil,
      or_false] at hnode
    rcases hnode with rfl | rfl | rfl <;> exact .intro (by decide) (by simp) (by simp)
  have hoverlay : overlay.WellFormed :=
    .intro (by decide) (fun child hchild => hleaf child (List.mem_append_left _ hchild))
      (by simp [overlay])
  have hcarrier : carrier.WellFormed :=
    .intro (by decide) (by simp [carrier]) fun _ => by simpa [carrier] using hoverlay
  have hcall : call.WellFormed :=
    .intro (by decide) (fun child hchild => hleaf child (List.mem_append_right _ hchild))
      (by simp [call])
  have htree : tree.WellFormed :=
    .intro (by decide) (by simpa [tree] using ⟨hcarrier, hcall⟩) (by simp [tree])
  have h : tokens document tree (some ⟨15, 20⟩) = .ok found := by decide +kernel
  exact ⟨htree, h, tokens_pairwise htree h⟩

end Scan

end CssColor
