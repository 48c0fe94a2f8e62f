import CssColor.Proofs.Scan.Origin
import CssColor.Proofs.SyntaxTree.Nesting

/-!
# Ranges that cover a tree

An editor asks for the colors of the parts of a document that it shows. When these parts cover a
nested tree, they show all of its colors, also one that begins in one part and ends in another.
Overlays do not matter here: whatever the range, an attribute value stands for all of its overlay.

## Main definitions

* `Scan.Covers`: every offset of a tree lies in one of several ranges.

## Main results

* `Scan.contributions_of_sublist`: of nodes that contribute their tokens, any selection does.
* `Scan.exists_touched`: every node of a nested tree touches one of the ranges that cover it.
* `Scan.extents_of_covers`: ranges that cover a nested tree report its tokens, each of them once.
-/

namespace CssColor

/-- No item is left twice when repetitions are erased. -/
theorem nodup_eraseDups {α : Type} [BEq α] [LawfulBEq α] (items : List α) :
    items.eraseDups.Nodup := by
  match items with
  | [] => exact List.nodup_nil
  | item :: rest =>
    rw [List.eraseDups_cons, List.nodup_cons]
    refine ⟨?_, nodup_eraseDups _⟩
    -- what is left to look at holds no further copy of the first item
    simp
termination_by items.length
decreasing_by exact Nat.lt_succ_of_le (List.length_filter_le ..)

namespace Scan

/-- Every offset of a tree lies in one of the ranges. The ranges may come in any order, overlap, and
reach beyond the tree. -/
def Covers (ranges : List Extent) (tree : SyntaxTree) : Prop :=
  ∀ offset : Int, tree.start ≤ offset → offset ≤ tree.stop →
    ∃ extent ∈ ranges, extent.start ≤ offset ∧ offset ≤ extent.stop

/-- Every node of a nested tree touches one of the ranges that cover the tree, namely one in which
it starts. -/
theorem exists_touched {ranges : List Extent} {tree : SyntaxTree} (hnested : tree.Nested)
    (hcovers : Covers ranges tree) {node : SyntaxTree} (hnode : node ∈ tree.nodes) :
    ∃ extent ∈ ranges, node.Touches extent := by
  have hordered := hnested.ordered node hnode
  obtain ⟨hstart, hstop⟩ := hnested.enclosing.within node hnode
  obtain ⟨extent, hextent, hfirst, hlast⟩ := hcovers node.start (by omega) (by omega)
  refine ⟨extent, hextent, hlast, ?_⟩
  omega

/-- A scan collects what the visited nodes contribute. -/
theorem tokens_eq_contributions (document : String) (tree : SyntaxTree) (extent : Option Extent) :
    tokens document tree extent = contributions (enterOverlay document.toList) document.toList 0
      (tree.visit (extent.getD tree.extent)) := rfl

/-- Of nodes that contribute their tokens, any selection does, and its tokens stay in order. -/
theorem contributions_of_sublist {rule : OverlayRule} {document : List Char} {base : Int}
    {selection nodes : List SyntaxTree} (hsub : selection.Sublist nodes) {found : List Token}
    (h : contributions rule document base nodes = .ok found) :
    ∃ kept, contributions rule document base selection = .ok kept ∧ kept.Sublist found := by
  induction hsub generalizing found with
  | slnil => exact ⟨found, h, List.Sublist.refl found⟩
  | cons node _ ih =>
    rw [contributions_cons, append_eq_ok] at h
    obtain ⟨part, more, -, hmore, rfl⟩ := h
    obtain ⟨kept, hkept, hsub⟩ := ih hmore
    exact ⟨kept, hkept, hsub.trans (List.sublist_append_right part more)⟩
  | cons_cons node _ ih =>
    rw [contributions_cons, append_eq_ok] at h
    obtain ⟨part, more, hpart, hmore, rfl⟩ := h
    obtain ⟨kept, hkept, hsub⟩ := ih hmore
    refine ⟨part ++ kept, ?_, hsub.append_left part⟩
    rw [contributions_cons, append_eq_ok]
    exact ⟨part, kept, hpart, hkept, rfl⟩

/-- Several extents are scanned when each of them is. -/
theorem eachExtent_succeeds {document : String} {tree : SyntaxTree} {ranges : List Extent}
    (h : ∀ extent ∈ ranges, ∃ part, tokens document tree (some extent) = .ok part) :
    ∃ all, eachExtent document tree ranges = .ok all := by
  induction ranges with
  | nil => exact ⟨[], rfl⟩
  | cons extent rest ih =>
    obtain ⟨part, hpart⟩ := h extent List.mem_cons_self
    obtain ⟨more, hmore⟩ := ih fun other hother => h other (List.mem_cons_of_mem _ hother)
    refine ⟨part ++ more, ?_⟩
    rw [eachExtent, append_eq_ok]
    exact ⟨part, more, hpart, hmore, rfl⟩

/-- In a nested tree that can be scanned as a whole, every extent can be scanned, and nothing is
found there that is not found in the whole. -/
theorem tokens_sublist_of_nested {document : String} {tree : SyntaxTree} {found : List Token}
    (hnested : tree.Nested) (h : tokens document tree none = .ok found) (extent : Extent) :
    ∃ part, tokens document tree (some extent) = .ok part ∧ part.Sublist found := by
  have hsub : (tree.visit extent).Sublist (tree.visit tree.extent) := by
    rw [SyntaxTree.visit_self hnested, SyntaxTree.visit_eq_filter hnested.enclosing]
    exact List.filter_sublist
  exact contributions_of_sublist hsub h

/-- Ranges that cover a nested tree report all of its tokens, and each of them once. When the whole
tree can be scanned, so can the ranges. -/
theorem extents_of_covers {document : String} {tree : SyntaxTree} {ranges : List Extent}
    {found : List Token} (hnested : tree.Nested) (hcovers : Covers ranges tree)
    (h : tokens document tree none = .ok found) :
    ∃ all, extents document tree ranges = .ok all ∧ all.Nodup ∧
      ∀ token, token ∈ all ↔ token ∈ found := by
  have hpart := tokens_sublist_of_nested hnested h
  have hscanned : ∀ extent ∈ ranges, ∃ part, tokens document tree (some extent) = .ok part :=
    fun extent _ => (hpart extent).imp fun _ hfound => hfound.1
  obtain ⟨each, heach⟩ := eachExtent_succeeds hscanned
  have hall : extents document tree ranges = .ok each.eraseDups := by
    rw [extents, heach]
    rfl
  refine ⟨each.eraseDups, hall, nodup_eraseDups each, fun token => ?_⟩
  rw [mem_extents_iff hall]
  constructor
  · rintro ⟨extent, -, part, hfound, htoken⟩
    obtain ⟨kept, hkept, hsub⟩ := hpart extent
    obtain rfl : part = kept := Except.ok.inj (hfound.symm.trans hkept)
    exact hsub.subset htoken
  · intro htoken
    -- the token comes from a node, which is visited through any range that it touches
    rw [tokens_eq_contributions] at h
    obtain ⟨node, hnode, own, hown, hmem⟩ := (mem_contributions_iff h).mp htoken
    rw [Option.getD_none, SyntaxTree.visit_self hnested] at hnode
    obtain ⟨extent, hextent, htouches⟩ := exists_touched hnested hcovers hnode
    have hvisited : node ∈ tree.visit extent := by
      rw [SyntaxTree.visit_eq_filter hnested.enclosing]
      exact List.mem_filter.mpr ⟨hnode, by simpa using htouches⟩
    obtain ⟨part, hfound, -⟩ := hpart extent
    refine ⟨extent, hextent, part, hfound, ?_⟩
    exact (mem_contributions_iff hfound).mpr ⟨node, hvisited, own, hown, hmem⟩

/-- Two ranges in reverse order, with a call across their border and an inline style in which a
color lies behind the border while its attribute begins before it. -/
theorem extents_of_covers_straddling :
    let document := "<i \"#abc\">rgb(1 2 3)"
    let overlay : SyntaxTree := { name := "ColorLiteral", start := 0, stop := 4 }
    let tree : SyntaxTree :=
      { name := "Document", start := 0, stop := 20
        children := [
          { name := "AttributeValue", start := 3, stop := 9, overlay := some overlay },
          { name := "CallExpression", start := 10, stop := 20 }] }
    let ranges : List Extent := [⟨13, 99⟩, ⟨-1, 12⟩]
    let found : List Token :=
      [{ kind := .hex, color := "#aabbcc", start := 4, stop := 8 },
       { kind := .rgb, color := "#010203", function := "rgb", separator := " ", start := 10,
         stop := 20 }]
    tree.Nested ∧ Covers ranges tree ∧ tokens document tree none = .ok found ∧
      ∃ all, extents document tree ranges = .ok all ∧ all.Nodup ∧
        ∀ token, token ∈ all ↔ token ∈ found := by
  intro document overlay tree ranges found
  have hnested : tree.Nested := ⟨by decide, by decide⟩
  have hcovers : Covers ranges tree := by
    intro offset hstart hstop
    have hstart' : (0 : Int) ≤ offset := hstart
    have hstop' : offset ≤ (20 : Int) := hstop
    rcases Int.lt_or_le offset 13 with hlow | hhigh
    · exact ⟨⟨-1, 12⟩, by decide, Int.le_trans (by decide) hstart', Int.le_of_lt_add_one hlow⟩
    · exact ⟨⟨13, 99⟩, by decide, hhigh, Int.le_trans hstop' (by decide)⟩
  have h : tokens document tree none = .ok found := by decide +kernel
  exact ⟨hnested, hcovers, h, extents_of_covers hnested hcovers h⟩

end Scan

end CssColor
