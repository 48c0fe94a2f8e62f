import CssColor.Proofs.Recognition.Forms
import CssColor.Proofs.Scan.Walk

/-!
# When a scan fails

A scan comes to the nodes in sight one after the other, and to the nodes of an overlay right after
the attribute value that carries it. It fails at the first node that offends: one that carries an
overlay it may not carry, or a literal whose color does not pass its check.

## Main definitions

* `Scan.Visit`: a node that a scan comes to, and where it stands.
* `Scan.visits`: all of them, in order.
* `Scan.Offends`: the three ways in which a node ends the scan, each with its error.

## Main results

* `Scan.Offends.unique`: a node offends in one way at most.
* `Scan.tokenAt?_eq_error_iff`: the text of a node leads to an error only if it is a misfit.
* `Scan.contributions_eq_error_iff`: a list of nodes fails as its first node that does.
* `Scan.tokens_eq_error_iff`: a scan fails exactly when a node offends, with the error of the first.
-/

namespace CssColor

open Text

/-! ## Recognition of a node -/

/-- Of all nodes only literals are read as hex literals, and they are read as nothing else. -/
theorem SyntaxTree.eq_hexLiteral_iff {name : RawText} {recognizer : Recognizer}
    (h : recognizer ∈ recognizers name) : recognizer = .hexLiteral ↔ name = "ColorLiteral" := by
  unfold recognizers at h
  split_ifs at h with hliteral hvalue hcall
  · exact iff_of_true (List.mem_singleton.mp h) hliteral
  · obtain rfl := List.mem_singleton.mp h
    exact iff_of_false (by decide) hliteral
  · simp only [List.mem_cons, List.not_mem_nil, or_false] at h
    rcases h with rfl | rfl
    · exact iff_of_false (by decide) hliteral
    · exact iff_of_false (by decide) hliteral
  · simp at h

/-- The recognizers for a node do not fail. What they accept has characters, and they give a color
of six digits for it unless it is a misfit in a literal. -/
theorem Recognizer.firstMatch_recognizers (name : RawText) (text : String) :
    Yields (firstMatch text (SyntaxTree.recognizers name)) fun outcome => ∀ found ∈ outcome,
      text ≠ "" ∧ (Decode.isColor found.color.toList = true ↔
        ¬ (name = "ColorLiteral" ∧ HexLiteral.IsMisfit text.toList)) := by
  refine firstMatch_yields fun recognizer hmem => ?_
  obtain ⟨outcome, houtcome⟩ := recognizer.run_succeeds text
  refine ⟨outcome, houtcome, ?_⟩
  rintro found rfl
  constructor
  · rintro rfl
    rw [run_empty] at houtcome
    simp at houtcome
  · rw [isColor_iff houtcome, SyntaxTree.eq_hexLiteral_iff hmem]

/-- A color that is not one of six digits is the only fault of a token with a proper span. -/
theorem Token.build_of_not_isColor {found : Recognition} {start stop : Int} (hstart : 0 ≤ start)
    (hspan : start < stop) (hcolor : Decode.isColor found.color.toList = false) :
    build found start stop = .invalid [⟨[.field "color"], .notColor⟩] := by
  have hstop : 0 ≤ stop := by omega
  simp [build, Decode.atLeast, hstart, hstop, Decode.colorText, hcolor, Checked.fault,
    Checked.below]

namespace Scan

/-! ## Visits and offences -/

/-- A node that a scan comes to. -/
structure Visit where
  /-- The node. -/
  node : SyntaxTree
  /-- Where the offsets of the node start in the document. -/
  offset : Nat
  /-- Whether the node is part of an overlay. -/
  nested : Bool

namespace Visit

/-- Where the node starts in the document. -/
def start (visit : Visit) : Nat := visit.offset + visit.node.start

/-- Where the node stops in the document. -/
def stop (visit : Visit) : Nat := visit.offset + visit.node.stop

/-- The text of the node. -/
def text (document : String) (visit : Visit) : String := between document visit.start visit.stop

end Visit

/-- The nodes of the overlay of an attribute value, which stand behind its quote. -/
def overlayVisits (carrier : SyntaxTree) : List Visit :=
  if carrier.name = "AttributeValue" then
    match carrier.overlay with
    | some overlay => (overlay.nodesInSight overlay.extent).map (⟨·, carrier.start + 1, true⟩)
    | none => []
  else []

/-- The nodes in sight of an extent in pre-order, each followed by those of its overlay. -/
def visits (tree : SyntaxTree) (extent : Option Extent) : List Visit :=
  (tree.nodesInSight (extent.getD tree.extent)).flatMap fun node =>
    ⟨node, 0, false⟩ :: overlayVisits node

/-- A node ends the scan with an error. -/
inductive Offends (document : String) (visit : Visit) : Error → Prop
  /-- It carries an overlay and is no attribute value. -/
  | misplaced (hname : visit.node.name ≠ "AttributeValue")
    (hoverlay : visit.node.overlay.isSome = true) :
    Offends document visit (.misplacedOverlay visit.node.name visit.start)
  /-- It carries an overlay and is an attribute value inside of an overlay. -/
  | nested (hname : visit.node.name = "AttributeValue")
    (hoverlay : visit.node.overlay.isSome = true) (hnested : visit.nested = true) :
    Offends document visit (.nestedOverlay visit.start)
  /-- It is a literal of four, six or eight digits with a newline. -/
  | literal (hname : visit.node.name = "ColorLiteral") (hoverlay : visit.node.overlay = none)
    (htext : HexLiteral.IsMisfit (visit.text document).toList) :
    Offends document visit (.invalid [⟨[.field "color"], .notColor⟩])

namespace Offends

variable {document : String} {visit : Visit} {cause other : Error}

/-- A node offends in one way at most. -/
theorem unique (h : Offends document visit cause) (h' : Offends document visit other) :
    cause = other := by
  cases h with
  | misplaced hname hoverlay =>
    cases h' with
    | misplaced => rfl
    | nested hname' => exact absurd hname' hname
    | literal _ hnone => simp [hnone] at hoverlay
  | nested hname hoverlay =>
    cases h' with
    | misplaced hname' => exact absurd hname hname'
    | nested => rfl
    | literal _ hnone => simp [hnone] at hoverlay
  | literal _ hnone =>
    cases h' with
    | misplaced _ hoverlay => simp [hnone] at hoverlay
    | nested _ hoverlay => simp [hnone] at hoverlay
    | literal => rfl

/-- A computation that fails with the error of a node fails as the node offends. -/
theorem error_eq_iff {α : Type} (h : Offends document visit cause) :
    (.error cause : Except Error α) = .error other ↔ Offends document visit other := by
  constructor
  · intro heq
    exact Except.error.inj heq ▸ h
  · intro h'
    rw [h.unique h']

end Offends

/-- The first node that offends does so with the given error. -/
def FirstOffence (document : String) (visited : List Visit) (cause : Error) : Prop :=
  ∃ before visit after, visited = before ++ visit :: after ∧
    (∀ earlier ∈ before, ∀ other, ¬ Offends document earlier other) ∧
    Offends document visit cause

section FirstOffence

variable {document : String} {cause : Error}

theorem not_firstOffence_nil : ¬ FirstOffence document [] cause := by
  rintro ⟨before, visit, after, hnil, -⟩
  simp at hnil

/-- The first offence is that of the first node, or else it is among the others. -/
theorem firstOffence_cons {visit : Visit} {rest : List Visit} :
    FirstOffence document (visit :: rest) cause ↔
      Offends document visit cause ∨
        (∀ other, ¬ Offends document visit other) ∧ FirstOffence document rest cause := by
  constructor
  · rintro ⟨before, found, after, hsplit, hbefore, hfound⟩
    cases before with
    | nil =>
      obtain ⟨rfl, -⟩ := List.cons.inj hsplit
      exact .inl hfound
    | cons first before =>
      obtain ⟨rfl, hrest⟩ := List.cons.inj hsplit
      refine .inr ⟨hbefore visit (List.mem_cons_self ..), before, found, after, hrest, ?_, hfound⟩
      intro earlier hearlier
      exact hbefore earlier (List.mem_cons_of_mem _ hearlier)
  · rintro (hfound | ⟨hfirst, before, found, after, hsplit, hbefore, hfound⟩)
    · exact ⟨[], visit, rest, rfl, by simp, hfound⟩
    · refine ⟨visit :: before, found, after, by rw [hsplit, List.cons_append], ?_, hfound⟩
      intro earlier hearlier
      rcases List.mem_cons.mp hearlier with rfl | hearlier
      · exact hfirst
      · exact hbefore earlier hearlier

/-- The only node that is visited is the first to offend if it offends. -/
theorem firstOffence_singleton {visit : Visit} :
    FirstOffence document [visit] cause ↔ Offends document visit cause := by
  rw [firstOffence_cons]
  simp [not_firstOffence_nil]

/-- There is a first node that offends as soon as any does. -/
theorem exists_firstOffence_iff {visited : List Visit} :
    (∃ cause, FirstOffence document visited cause) ↔
      ∃ visit ∈ visited, ∃ cause, Offends document visit cause := by
  constructor
  · rintro ⟨cause, before, visit, after, rfl, -, hvisit⟩
    exact ⟨visit, by simp, cause, hvisit⟩
  · rintro ⟨visit, hmem, cause, hvisit⟩
    induction visited with
    | nil => simp at hmem
    | cons first rest ih =>
      by_cases hfirst : ∃ other, Offends document first other
      · obtain ⟨other, hother⟩ := hfirst
        exact ⟨other, firstOffence_cons.mpr (.inl hother)⟩
      · rcases List.mem_cons.mp hmem with rfl | hmem
        · exact absurd ⟨cause, hvisit⟩ hfirst
        · obtain ⟨earliest, hearliest⟩ := ih hmem
          exact ⟨earliest, firstOffence_cons.mpr (.inr ⟨not_exists.mp hfirst, hearliest⟩)⟩

/-- The first offence of two lists is that of the first list, or else that of the second. -/
theorem firstOffence_append {visited more : List Visit} :
    FirstOffence document (visited ++ more) cause ↔
      FirstOffence document visited cause ∨
        (∀ other, ¬ FirstOffence document visited other) ∧ FirstOffence document more cause := by
  induction visited with
  | nil => simp [not_firstOffence_nil]
  | cons visit rest ih =>
    rw [List.cons_append, firstOffence_cons, ih]
    simp only [firstOffence_cons, not_or, not_and, forall_and]
    -- a first node that offends settles both sides, and any other can be left out of both
    by_cases hvisit : ∃ other, Offends document visit other
    · have hsome : ¬ ∀ other, ¬ Offends document visit other := not_forall_not.mpr hvisit
      simp [hsome]
    · have hnone : ∀ other, ¬ Offends document visit other := not_exists.mp hvisit
      simp [hnone]

end FirstOffence

/-! ## One node -/

/-- A text that a node shows has a character only if the node has a proper span. -/
theorem start_lt_stop_of_text {document : String} {offset : Nat} {node : SyntaxTree}
    (h : (⟨node, offset, false⟩ : Visit).text document ≠ "") : node.start < node.stop := by
  by_contra hspan
  refine h ?_
  have hlength : offset + node.stop - (offset + node.start) = 0 := by omega
  rw [Visit.text, between, Visit.start, Visit.stop, slice_natCast, hlength, List.take_zero]

/-- The text of a node leads to an error only if the node is a literal and the text a misfit, which
does not pass the check of its color. -/
theorem tokenAt?_eq_error_iff {document : String} {offset : Nat} {node : SyntaxTree}
    {cause : Error} :
    tokenAt? document.toList offset node = .error cause ↔
      node.name = "ColorLiteral" ∧
        HexLiteral.IsMisfit ((⟨node, offset, false⟩ : Visit).text document).toList ∧
        cause = .invalid [⟨[.field "color"], .notColor⟩] := by
  set text := (⟨node, offset, false⟩ : Visit).text document with htext
  have hslice : String.ofList (slice document.toList (offset + node.start) (offset + node.stop)) =
      text := by
    simp [htext, Visit.text, Visit.start, Visit.stop, between]
  obtain ⟨outcome, houtcome, hfound⟩ := Recognizer.firstMatch_recognizers node.name text
  rw [tokenAt?, hslice, houtcome, Error.ofNumeric_ok, ok_bind]
  cases outcome with
  | none =>
    -- a misfit would have been accepted
    refine iff_of_false (by simp) ?_
    rintro ⟨hname, hmisfit, -⟩
    have haccepted := Recognition.ofHexLiteral?_of_isMisfit hmisfit
    rw [hname] at houtcome
    simp [SyntaxTree.recognizers, Recognizer.firstMatch, Recognizer.run, haccepted] at houtcome
  | some found =>
    obtain ⟨hne, hiff⟩ := hfound found rfl
    have hstart : (0 : Int) ≤ node.start := Int.natCast_nonneg _
    have hspan : (node.start : Int) < node.stop := Int.ofNat_lt.mpr (start_lt_stop_of_text hne)
    -- the span is proper, so the color alone decides whether the token is built
    cases hcolor : Decode.isColor found.color.toList with
    | true =>
      have hbuild := Token.build_eq_valid_iff.mpr ⟨⟨hstart, hspan, hcolor⟩, rfl⟩
      refine iff_of_false (by simp [hbuild, Checked.toExcept]) ?_
      rintro ⟨hname, hmisfit, -⟩
      exact hiff.mp hcolor ⟨hname, hmisfit⟩
    | false =>
      have hbuild := Token.build_of_not_isColor hstart hspan hcolor
      obtain ⟨hname, hmisfit⟩ : node.name = "ColorLiteral" ∧ HexLiteral.IsMisfit text.toList := by
        by_contra hfits
        rw [hiff.mpr hfits] at hcolor
        exact Bool.false_ne_true hcolor.symm
      simp [hbuild, Checked.toExcept, hname, hmisfit, eq_comm]

/-- A node that is no attribute value fails as it offends, inside of an overlay or not. -/
theorem contribution_eq_error_iff_of_ne {document : String} {rule : OverlayRule} {cause : Error}
    (visit : Visit) (hname : visit.node.name ≠ "AttributeValue") :
    contribution rule document.toList visit.offset visit.node = .error cause ↔
      Offends document visit cause := by
  have hattribute := SyntaxTree.isAttribute_eq_false_iff.mpr hname
  cases hoverlay : visit.node.overlay with
  | some overlay =>
    have hsome : visit.node.overlay.isSome = true := by rw [hoverlay]; rfl
    -- the overlay is complained about before the text of the node is looked at
    have hfail : contribution rule document.toList visit.offset visit.node =
        .error (.misplacedOverlay visit.node.name visit.start) := by
      simp [contribution, hattribute, hsome, Visit.start]
    rw [hfail]
    exact (Offends.misplaced hname hsome).error_eq_iff
  | none =>
    -- without an overlay the node contributes its own token or nothing
    have htoken : contribution rule document.toList visit.offset visit.node = .error cause ↔
        tokenAt? document.toList visit.offset visit.node = .error cause := by
      simp only [contribution, hattribute, hoverlay]
      cases tokenAt? document.toList visit.offset visit.node <;> simp
    rw [htoken, tokenAt?_eq_error_iff]
    constructor
    · rintro ⟨hliteral, hmisfit, rfl⟩
      exact .literal hliteral hoverlay hmisfit
    · intro h
      cases h with
      | misplaced _ hsome => simp [hoverlay] at hsome
      | nested hname' => exact absurd hname' hname
      | literal hliteral _ hmisfit => exact ⟨hliteral, hmisfit, rfl⟩

/-- An attribute value does not offend outside of overlays, nor without an overlay. -/
theorem not_offends_of_attribute {document : String} {visit : Visit} {cause : Error}
    (hname : visit.node.name = "AttributeValue")
    (hplain : visit.nested = false ∨ visit.node.overlay = none) :
    ¬ Offends document visit cause := by
  intro h
  cases h with
  | misplaced hname' => exact hname' hname
  | nested _ hoverlay hnested =>
    rcases hplain with hplain | hplain
    · simp [hplain] at hnested
    · simp [hplain] at hoverlay
  | literal hliteral => simp [hname] at hliteral

/-- Inside of an overlay a node fails as it offends. -/
theorem contribution_rejectOverlay_eq_error_iff {document : String} {offset : Nat}
    {node : SyntaxTree} {cause : Error} :
    contribution rejectOverlay document.toList offset node = .error cause ↔
      Offends document ⟨node, offset, true⟩ cause := by
  by_cases hname : node.name = "AttributeValue"
  · have hattribute := SyntaxTree.isAttribute_iff.mpr hname
    cases hoverlay : node.overlay with
    | none =>
      refine iff_of_false ?_ (not_offends_of_attribute hname (.inr hoverlay))
      simp [contribution, hattribute, hoverlay]
    | some overlay =>
      have hfail : contribution rejectOverlay document.toList offset node =
          .error (.nestedOverlay (⟨node, offset, true⟩ : Visit).start) := by
        simp [contribution, hattribute, hoverlay, rejectOverlay, Visit.start]
      have hsome : node.overlay.isSome = true := by rw [hoverlay]; rfl
      rw [hfail]
      exact (Offends.nested hname hsome rfl).error_eq_iff
  · exact contribution_eq_error_iff_of_ne ⟨node, offset, true⟩ hname

/-! ## All nodes -/

/-- When every node fails with the first offence of its visits, so does a list of nodes. -/
theorem contributions_eq_error_iff {document : String} {rule : OverlayRule} {offset : Nat}
    {visitsOf : SyntaxTree → List Visit}
    (hnode : ∀ node cause, contribution rule document.toList offset node = .error cause ↔
      FirstOffence document (visitsOf node) cause)
    (nodes : List SyntaxTree) (cause : Error) :
    contributions rule document.toList offset nodes = .error cause ↔
      FirstOffence document (nodes.flatMap visitsOf) cause := by
  induction nodes with
  | nil => simp [not_firstOffence_nil]
  | cons node rest ih =>
    rw [contributions_cons, List.flatMap_cons, firstOffence_append, ← ih, ← hnode]
    simp only [← hnode]
    cases contribution rule document.toList offset node with
    | error other => simp
    | ok tokens =>
      -- the node is no obstacle, so the others decide
      cases contributions rule document.toList offset rest <;> simp

/-- The overlay of an attribute value fails with the first offence of its nodes. -/
theorem enterOverlay_eq_error_iff {document : String} {carrier overlay : SyntaxTree} {cause : Error}
    (hname : carrier.name = "AttributeValue") (hoverlay : carrier.overlay = some overlay) :
    enterOverlay document.toList carrier.start overlay = .error cause ↔
      FirstOffence document (overlayVisits carrier) cause := by
  have hvisits : overlayVisits carrier =
      (overlay.nodesInSight overlay.extent).flatMap ([⟨·, carrier.start + 1, true⟩]) := by
    simp [overlayVisits, hname, hoverlay, List.map_eq_flatMap]
  have hnode (node : SyntaxTree) (cause : Error) :
      contribution rejectOverlay document.toList (carrier.start + 1 : Nat) node = .error cause ↔
        FirstOffence document [⟨node, carrier.start + 1, true⟩] cause := by
    rw [firstOffence_singleton, contribution_rejectOverlay_eq_error_iff]
  rw [hvisits, ← contributions_eq_error_iff hnode, enterOverlay, tokensWith, SyntaxTree.visit_eq]
  rfl

/-- Outside of overlays a node fails with the first offence of itself and its overlay. -/
theorem contribution_enterOverlay_eq_error_iff {document : String} {node : SyntaxTree}
    {cause : Error} :
    contribution (enterOverlay document.toList) document.toList (0 : Nat) node = .error cause ↔
      FirstOffence document (⟨node, 0, false⟩ :: overlayVisits node) cause := by
  rw [firstOffence_cons]
  by_cases hname : node.name = "AttributeValue"
  · -- the value itself does not offend, so the nodes of its overlay decide
    have hattribute := SyntaxTree.isAttribute_iff.mpr hname
    have hinnocent (other : Error) : ¬ Offends document ⟨node, 0, false⟩ other :=
      not_offends_of_attribute hname (.inl rfl)
    cases hoverlay : node.overlay with
    | none =>
      simp [contribution, hattribute, hoverlay, hinnocent, overlayVisits, not_firstOffence_nil]
    | some overlay =>
      rw [← enterOverlay_eq_error_iff hname hoverlay]
      simp [contribution, hattribute, hoverlay, hinnocent]
  · have hvisits : overlayVisits node = [] := if_neg hname
    rw [hvisits]
    simpa [not_firstOffence_nil] using
      contribution_eq_error_iff_of_ne ⟨node, 0, false⟩ hname

/-- A scan fails exactly when one of the nodes that it comes to offends, and then with the error of
the first that does. A node that it does not come to is no cause of an error. -/
theorem tokens_eq_error_iff (document : String) (tree : SyntaxTree) (extent : Option Extent) :
    (∀ cause, tokens document tree extent = .error cause ↔
      ∃ before visit after, visits tree extent = before ++ visit :: after ∧
        (∀ earlier ∈ before, ∀ other, ¬ Offends document earlier other) ∧
        Offends document visit cause) ∧
    ((∃ found, tokens document tree extent = .ok found) ↔
      ∀ visit ∈ visits tree extent, ∀ cause, ¬ Offends document visit cause) := by
  have herror (cause : Error) : tokens document tree extent = .error cause ↔
      FirstOffence document (visits tree extent) cause := by
    rw [tokens, subtree, if_neg Bool.false_ne_true, tokensWith, SyntaxTree.visit_eq]
    exact contributions_eq_error_iff
      (fun node cause => contribution_enterOverlay_eq_error_iff) _ cause
  refine ⟨herror, ?_⟩
  -- where any node offends there is a first one
  have hnone : (∀ visit ∈ visits tree extent, ∀ cause, ¬ Offends document visit cause) ↔
      ¬ ∃ cause, FirstOffence document (visits tree extent) cause := by
    rw [exists_firstOffence_iff]
    simp only [not_exists, not_and]
  rw [hnone]
  simp only [← herror]
  cases tokens document tree extent <;> simp

-- A misfit and a misplaced overlay: whichever comes first in sight is reported.
example :
    let tree : SyntaxTree :=
      { name := "StyleSheet", start := 0, stop := 10
        children := [
          { name := "ColorLiteral", start := 0, stop := 6 },
          { name := "ValueName", start := 7, stop := 10
            overlay := some { name := "ValueName", start := 0, stop := 3 } }] }
    tokens "#abcd\n red" tree none = .error (.invalid [⟨[.field "color"], .notColor⟩]) ∧
      tokens "#abcd\n red" tree (some ⟨7, 7⟩) = .error (.misplacedOverlay "ValueName" 7) := by
  decide +kernel

end Scan

end CssColor
