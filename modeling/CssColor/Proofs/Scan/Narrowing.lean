import CssColor.Proofs.Scan.Coverage

/-!
# Narrower ranges

A range inside another one prunes more. Where it prunes a node, it prunes all that is below that
node as well, and this may be much more than what the wider range leaves out there. Still every node
that is visited through the narrower range is visited through the wider one, in the same order, and
what a node contributes does not depend on the range. Nothing is assumed about the spans of the
tree, and the bounds of a range may be negative or reversed.

## Main definitions

* `Extent.Within`: one extent lies inside another.

## Main results

* `SyntaxTree.visitAll_sublist`: a narrower extent leaves out nodes and changes nothing else.
* `Scan.tokens_sublist_of_within`: so does it with tokens, and no error appears on the way.
-/

namespace CssColor

/-- Both bounds of an extent lie between those of another. A reversed extent may lie inside any that
reaches its bounds. -/
def Extent.Within (inner outer : Extent) : Prop :=
  outer.start ≤ inner.start ∧ inner.stop ≤ outer.stop

/-- Both bounds of an extent can be compared. -/
instance (inner outer : Extent) : Decidable (inner.Within outer) :=
  inferInstanceAs (Decidable (_ ∧ _))

namespace SyntaxTree

/-- A node that touches an extent touches every wider one. -/
theorem Touches.of_extent_within {tree : SyntaxTree} {inner outer : Extent}
    (h : tree.Touches inner) (hwithin : inner.Within outer) : tree.Touches outer := by
  obtain ⟨hstart, hstop⟩ := h
  obtain ⟨hstart', hstop'⟩ := hwithin
  exact ⟨Int.le_trans hstart hstop', Int.le_trans hstart' hstop⟩

/-- Of the trees on a stack, a narrower extent visits some of the nodes that a wider one visits, in
their order. -/
theorem visitAll_sublist {inner outer : Extent} (hwithin : inner.Within outer)
    (stack : List SyntaxTree) : (visitAll inner stack).Sublist (visitAll outer stack) := by
  -- the recursion of the narrower walk is followed, which is the one that drops more
  fun_induction visitAll inner stack with
  | case1 => exact List.nil_sublist _
  | case2 tree rest htouches ih =>
    rw [visitAll_cons_of_touches (htouches.of_extent_within hwithin)]
    exact ih.cons_cons tree
  | case3 tree rest _ ih =>
    by_cases houter : tree.Touches outer
    · -- the wider walk goes on below the tree, and only then comes to the rest of the stack
      rw [visitAll_cons_of_touches houter, visitAll_append]
      apply List.Sublist.cons
      exact ih.trans (List.sublist_append_right _ _)
    · rw [visitAll_cons_of_not_touches houter]
      exact ih

/-- A narrower extent visits some of the nodes of a tree that a wider one visits, in their order. -/
theorem visit_sublist {inner outer : Extent} (hwithin : inner.Within outer) (tree : SyntaxTree) :
    (tree.visit inner).Sublist (tree.visit outer) :=
  visitAll_sublist hwithin [tree]

end SyntaxTree

namespace Scan

/-- When an extent can be scanned, so can every extent inside it, and the tokens found there are
some of those found in the wider one, in their order. -/
theorem tokens_sublist_of_within {document : String} {tree : SyntaxTree} {inner outer : Extent}
    (hwithin : inner.Within outer) {found : List Token}
    (h : tokens document tree (some outer) = .ok found) :
    ∃ kept, tokens document tree (some inner) = .ok kept ∧ kept.Sublist found := by
  rw [tokens_eq_contributions, Option.getD_some] at h
  exact contributions_of_sublist (SyntaxTree.visit_sublist hwithin tree) h

/-- A reversed range inside a wider one, and a tree with a literal that lies outside of its parent.
The literal is found through the wider range only. -/
theorem tokens_sublist_of_within_reversed :
    let document := "red #fff"
    let tree : SyntaxTree :=
      { name := "Document", start := 0, stop := 3
        children := [
          { name := "ValueName", start := 0, stop := 3 },
          { name := "ColorLiteral", start := 4, stop := 8 }] }
    let found : List Token :=
      [{ kind := .named, color := "#ff0000", start := 0, stop := 3 },
       { kind := .hex, color := "#ffffff", start := 4, stop := 8 }]
    Extent.Within ⟨2, 1⟩ ⟨-1, 4⟩ ∧ tokens document tree (some ⟨-1, 4⟩) = .ok found ∧
      ∃ kept, tokens document tree (some ⟨2, 1⟩) = .ok kept ∧ kept.Sublist found ∧
        kept = found.take 1 := by
  intro document tree found
  have hwithin : Extent.Within ⟨2, 1⟩ ⟨-1, 4⟩ := by decide
  have h : tokens document tree (some ⟨-1, 4⟩) = .ok found := by decide +kernel
  obtain ⟨kept, hkept, hsub⟩ := tokens_sublist_of_within hwithin h
  have hfirst : tokens document tree (some ⟨2, 1⟩) = .ok (found.take 1) := by decide +kernel
  exact ⟨hwithin, h, kept, hkept, hsub, Except.ok.inj (hkept.symm.trans hfirst)⟩

end Scan

end CssColor
