import CssColor.Proofs.Outcome
import CssColor.Proofs.SyntaxTree.Preorder
import CssColor.Proofs.Text.Slice
import CssColor.Scan

/-!
# Embedded trees and their position

A tree whose offsets are relative to a base is scanned as if the text from the base on stood alone;
what is found is then moved by the base.

## Main definitions

* `Scan.moved`: the outcome of a scan with all its positions moved.
* `SyntaxTree.stops`: where the nodes of a tree end, those of overlays included.

## Main results

* `Scan.tokensWith_moved`: a scan at a base is a scan of any window on the text behind the base that
  shows all that the nodes of the tree cover.
* `Scan.subtree_eq_moved`: the window may be the rest of the document, or the stretch of it that the
  tree covers.
-/

namespace CssColor

open Text

/-- The same error with the positions that it names moved. -/
def Error.shift (offset : Int) : Error → Error
  | nestedOverlay position => nestedOverlay (position + offset)
  | misplacedOverlay name position => misplacedOverlay name (position + offset)
  | numeric cause => numeric cause
  | invalid issues => invalid issues
  | noSuchToken index => noSuchToken index

/-- The outcome of a scan with all its positions moved. -/
def Scan.moved (offset : Int) : Except Error (List Token) → Except Error (List Token)
  | .ok tokens => .ok (tokens.map (Token.shift offset))
  | .error cause => .error (cause.shift offset)

namespace SyntaxTree

mutual

/-- Where the nodes of a tree end that stands at the given offset. The nodes of an overlay stand
behind the quote that opens the node which carries it. -/
def stops (offset : Nat) : SyntaxTree → List Nat
  | ⟨_, start, stop, children, overlay⟩ =>
    (offset + stop) :: (stopsAll offset children ++ stopsIn (offset + start + 1) overlay)

/-- Where the nodes of the trees of a list end. -/
def stopsAll (offset : Nat) : List SyntaxTree → List Nat
  | [] => []
  | tree :: rest => stops offset tree ++ stopsAll offset rest

/-- Where the nodes of an overlay end, if there is one. -/
def stopsIn (offset : Nat) : Option SyntaxTree → List Nat
  | some overlay => stops offset overlay
  | none => []

end

theorem stops_self (offset : Nat) (tree : SyntaxTree) : offset + tree.stop ∈ tree.stops offset := by
  cases tree with
  | mk name start stop children overlay => simp [stops]

/-- The nodes of a child are nodes of the tree. -/
theorem stops_of_mem_children {offset : Nat} {tree child : SyntaxTree}
    (hchild : child ∈ tree.children) : child.stops offset ⊆ tree.stops offset := by
  have hall {trees : List SyntaxTree} (h : child ∈ trees) :
      child.stops offset ⊆ stopsAll offset trees := by
    induction trees with
    | nil => simp at h
    | cons tree rest ih =>
      rw [stopsAll]
      rcases List.mem_cons.mp h with rfl | h
      · exact List.subset_append_left _ _
      · exact List.Subset.trans (ih h) (List.subset_append_right _ _)
  cases tree with
  | mk name start stop children overlay =>
    rw [stops]
    exact List.Subset.trans (hall hchild)
      (List.Subset.trans (List.subset_append_left _ _) (List.subset_cons_self _ _))

/-- The nodes of an overlay are counted among those of the tree, from behind the quote on. -/
theorem stops_of_overlay {offset : Nat} {tree overlay : SyntaxTree}
    (h : tree.overlay = some overlay) :
    overlay.stops (offset + tree.start + 1) ⊆ tree.stops offset := by
  cases tree with
  | mk name start stop children carried =>
    obtain rfl : carried = some overlay := h
    rw [stops, stopsIn]
    exact List.Subset.trans (List.subset_append_right _ _) (List.subset_cons_self _ _)

end SyntaxTree

namespace Scan

@[simp] theorem moved_ok (offset : Int) (tokens : List Token) :
    moved offset (.ok tokens) = .ok (tokens.map (Token.shift offset)) := rfl

@[simp] theorem moved_error (offset : Int) (cause : Error) :
    moved offset (.error cause) = .error (cause.shift offset) := rfl

section Window

variable {document window : List Char} {base : Nat} {P : Nat → Prop}

/-- A node whose text the window shows has the same token there, before it is moved. -/
theorem tokenAt?_moved (hshows : Shows window document base P) {offset : Nat} {node : SyntaxTree}
    (hstop : P (offset + node.stop)) :
    (do return (← tokenAt? document (base + offset : Nat) node).toList) =
      moved base (do return (← tokenAt? window offset node).toList) := by
  have htext : slice document ((base + offset : Nat) + node.start)
      ((base + offset : Nat) + node.stop)
      = slice window (offset + node.start) (offset + node.stop) := by
    have h := hshows (offset + node.start) (offset + node.stop) hstop
    simpa [Int.add_assoc] using h
  rw [tokenAt?, tokenAt?, htext]
  -- what is recognized and what is checked no longer depends on the base
  cases Recognizer.firstMatch _ (SyntaxTree.recognizers node.name) with
  | error cause => rfl
  | ok found =>
    cases found with
    | none => rfl
    | some found =>
      cases hbuild : Token.build found node.start node.stop with
      | invalid issues => simp [hbuild, Checked.toExcept, Error.shift]
      | valid token => simp [hbuild, Checked.toExcept, Int.add_comm]

/-- Two rules treat an overlay alike when the second one sees the window in place of the
document. -/
def RulesAgree (rule windowRule : OverlayRule) (base : Nat) (P : Nat → Prop) : Prop :=
  ∀ (position : Nat) (overlay : SyntaxTree), (∀ stop ∈ overlay.stops (position + 1), P stop) →
    rule (base + position : Nat) overlay = moved base (windowRule position overlay)

/-- A node contributes the same to a document and to a window that shows what is there, with all
positions moved by where the window starts. -/
theorem contribution_moved (hshows : Shows window document base P)
    {rule windowRule : OverlayRule} (hrule : RulesAgree rule windowRule base P) {offset : Nat}
    {node : SyntaxTree} (hstops : ∀ stop ∈ node.stops offset, P stop) :
    contribution rule document (base + offset : Nat) node =
      moved base (contribution windowRule window offset node) := by
  unfold contribution
  cases hattribute : node.isAttribute with
  | true =>
    cases hoverlay : node.overlay with
    | none => rfl
    | some overlay =>
      have hbelow : ∀ stop ∈ overlay.stops (offset + node.start + 1), P stop :=
        fun stop hstop => hstops stop (SyntaxTree.stops_of_overlay hoverlay hstop)
      simpa [Int.add_assoc] using hrule (offset + node.start) overlay hbelow
  | false =>
    cases hoverlay : node.overlay with
    | none => exact tokenAt?_moved hshows (hstops _ (SyntaxTree.stops_self offset node))
    | some overlay =>
      -- the overlay is misplaced, and the error names the position of its node
      simp [Error.shift]
      omega

/-- The nodes of a list are scanned alike in the document and in the window. -/
theorem contributions_moved (hshows : Shows window document base P)
    {rule windowRule : OverlayRule} (hrule : RulesAgree rule windowRule base P) {offset : Nat}
    {nodes : List SyntaxTree} (hstops : ∀ node ∈ nodes, ∀ stop ∈ node.stops offset, P stop) :
    contributions rule document (base + offset : Nat) nodes =
      moved base (contributions windowRule window offset nodes) := by
  induction nodes with
  | nil => rfl
  | cons node rest ih =>
    have hnode := contribution_moved hshows hrule (hstops node (List.mem_cons_self ..))
    have hrest := ih fun other hother => hstops other (List.mem_cons_of_mem _ hother)
    rw [contributions_cons, contributions_cons, hnode, hrest]
    cases contribution windowRule window offset node with
    | error cause => rfl
    | ok tokens =>
      cases contributions windowRule window offset rest with
      | error cause => rfl
      | ok more => simp

/-- A tree is scanned alike in the document and in a window that shows all that its nodes cover. -/
theorem tokensWith_moved (hshows : Shows window document base P)
    {rule windowRule : OverlayRule} (hrule : RulesAgree rule windowRule base P) {offset : Nat}
    {tree : SyntaxTree} (hstops : ∀ stop ∈ tree.stops offset, P stop) (extent : Option Extent) :
    tokensWith rule document (base + offset : Nat) extent tree =
      moved base (tokensWith windowRule window offset extent tree) := by
  refine contributions_moved hshows hrule ?_
  refine SyntaxTree.forall_mem_visit (fun node hnode child hchild stop hstop => ?_) hstops
  exact hnode stop (SyntaxTree.stops_of_mem_children hchild hstop)

/-- Overlays are rejected alike in a window and in the document. -/
theorem rejectOverlay_agrees : RulesAgree rejectOverlay rejectOverlay base P := by
  intro position overlay _
  simp [rejectOverlay, Error.shift, Int.add_comm]

/-- Overlays are entered alike in a window and in the document. -/
theorem enterOverlay_agrees (hshows : Shows window document base P) :
    RulesAgree (enterOverlay document) (enterOverlay window) base P := by
  intro position overlay hstops
  -- overlays do not nest, so the rule inside needs no further overlay
  have h := tokensWith_moved hshows rejectOverlay_agrees hstops none
  simpa [enterOverlay, quoteWidth, Int.add_assoc] using h

end Window

/-- A subtree at a base is scanned as the window alone is, and what is found is moved by the
base. -/
theorem subtree_moved {document window : String} {base : Nat} {P : Nat → Prop}
    (hshows : Shows window.toList document.toList base P) {tree : SyntaxTree}
    (hstops : ∀ stop ∈ tree.stops 0, P stop) (extent : Option Extent) (nested : Bool) :
    subtree document tree base extent nested =
      moved base (subtree window tree 0 extent nested) := by
  cases nested with
  | true => exact tokensWith_moved hshows rejectOverlay_agrees hstops extent
  | false => exact tokensWith_moved hshows (enterOverlay_agrees hshows) hstops extent

/-- A tree at a base is scanned as if the document began there, and all positions are then moved by
the base. Of the document only the stretch matters that the nodes of the tree cover. So an attribute
value contributes what its overlay gives on the text behind the quote alone, moved there. -/
theorem subtree_eq_moved (document : String) (tree : SyntaxTree) (base : Nat)
    (extent : Option Extent) (nested : Bool) :
    subtree document tree base extent nested =
        moved base (subtree (rest document base) tree 0 extent nested) ∧
    (∀ length : Nat, (∀ stop ∈ tree.stops 0, stop ≤ length) →
      subtree document tree base extent nested =
        moved base (subtree (between document base (base + length : Nat)) tree 0 extent nested)) ∧
    ∀ overlay, tree.isAttribute = true → tree.overlay = some overlay →
      ∀ length : Nat, (∀ stop ∈ overlay.stops 0, stop ≤ length) →
        let inner := base + tree.start + 1
        contribution (enterOverlay document.toList) document.toList base tree =
          moved inner
            (subtree (between document inner (inner + length : Nat)) overlay 0 none true) := by
  refine ⟨?_, fun length hstops => ?_, fun overlay hattribute hoverlay length hstops => ?_⟩
  · exact subtree_moved (shows_rest document base fun _ => True) (fun _ _ => trivial) extent nested
  · exact subtree_moved (shows_between document base length) hstops extent nested
  · intro inner
    have hinner := subtree_moved (shows_between document inner length) hstops none true
    rw [← hinner, contribution, if_pos hattribute, hoverlay]
    simp [enterOverlay, subtree, quoteWidth, inner]

/-- An inline style eight characters into a document, isolated as a whole and as its overlay. -/
theorem subtree_eq_moved_inline_style :
    let document := "<!-- --><p style=\"color:#FfF\">"
    let overlay : SyntaxTree :=
      { name := "StyleSheet", start := 0, stop := 10
        children := [{ name := "ColorLiteral", start := 6, stop := 10 }] }
    let tree : SyntaxTree :=
      { name := "AttributeValue", start := 9, stop := 21, overlay := some overlay }
    (∀ stop ∈ tree.stops 0, stop ≤ 21) ∧ (∀ stop ∈ overlay.stops 0, stop ≤ 10) ∧
      subtree document tree 8 none false =
        moved 8 (subtree (between document 8 29) tree 0 none false) ∧
      contribution (enterOverlay document.toList) document.toList 8 tree =
        moved 18 (subtree (between document 18 28) overlay 0 none true) ∧
      subtree document tree 8 none false =
        .ok [{ kind := .hex, color := "#ffffff", start := 24, stop := 28 }] := by
  intro document overlay tree
  have htree : ∀ stop ∈ tree.stops 0, stop ≤ 21 := by decide
  have hoverlay : ∀ stop ∈ overlay.stops 0, stop ≤ 10 := by decide
  obtain ⟨-, hisolated, hinner⟩ := subtree_eq_moved document tree 8 none false
  exact ⟨htree, hoverlay, hisolated 21 htree, hinner overlay rfl rfl 10 hoverlay,
    by decide +kernel⟩

end Scan

end CssColor
