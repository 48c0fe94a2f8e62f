import CssColor.Proofs.SyntaxTree.Preorder
import CssColor.Proofs.Text.Slice
import CssColor.Proofs.Token
import CssColor.Scan

/-!
# What a scan finds

A scan that succeeds finds the tokens of a walk that is described without a stack, without errors
and in document offsets only.

## Main definitions

* `SyntaxTree.reading?`: what the text of a node writes, as the name of the node decides.
* `Scan.walk`: the tokens of the nodes in sight, those of an overlay in place of its attribute.

## Main results

* `Scan.tokens_eq_walk`: a scan finds the tokens of the walk, and every token reads as the document
  text between its offsets.
-/

namespace CssColor

/-- What a recognizer makes of a text that it accepts. -/
def Recognizer.accepted? (recognizer : Recognizer) (text : String) : Option Recognition :=
  (recognizer.run text).toOption.join

/-- A recognizer accepts a text when it runs without an error and recognizes a color. -/
theorem Recognizer.accepted?_eq_some_iff {recognizer : Recognizer} {text : String}
    {found : Recognition} :
    recognizer.accepted? text = some found ↔ recognizer.run text = .ok (some found) := by
  cases h : recognizer.run text with
  | ok outcome => simp [accepted?, h, Except.toOption]
  | error cause => simp [accepted?, h, Except.toOption]

/-- The color that the text of a node writes. The name of the node decides how it is read: literals
as hex literals, values as keywords, and calls as calls of `rgb` or else of `hsl`. -/
def SyntaxTree.reading? (name : RawText) (text : String) : Option Recognition :=
  if name = "ColorLiteral" then Recognizer.hexLiteral.accepted? text
  else if name = "ValueName" then Recognizer.keyword.accepted? text
  else if name = "CallExpression" then
    (Recognizer.rgbCall.accepted? text).or (Recognizer.hslCall.accepted? text)
  else none

theorem SyntaxTree.isAttribute_iff {node : SyntaxTree} :
    node.isAttribute = true ↔ node.name = "AttributeValue" := by
  simp [isAttribute]

theorem SyntaxTree.isAttribute_eq_false_iff {node : SyntaxTree} :
    node.isAttribute = false ↔ node.name ≠ "AttributeValue" := by
  simp [isAttribute]

namespace Scan

/-- The token of a node that stands at the given offset, if its text writes a color. -/
def nodeToken? (document : String) (offset : Int) (node : SyntaxTree) : Option Token :=
  let start := offset + node.start
  let stop := offset + node.stop
  (SyntaxTree.reading? node.name (Text.between document start stop)).map (·.spanning start stop)

/-- The tokens of the overlay of an attribute value. All of the overlay is walked, and its offsets
start behind the quote. -/
def overlayTokens (document : String) (carrier : SyntaxTree) : List Token :=
  match carrier.overlay with
  | some overlay =>
    (overlay.nodesInSight overlay.extent).flatMap fun node =>
      (nodeToken? document (carrier.start + 1) node).toList
  | none => []

/-- The tokens of the nodes in sight of an extent, in pre-order. An attribute value stands for the
tokens of its overlay. -/
def walk (document : String) (tree : SyntaxTree) (extent : Option Extent) : List Token :=
  (tree.nodesInSight (extent.getD tree.extent)).flatMap fun (node : SyntaxTree) =>
    if node.name = "AttributeValue" then overlayTokens document node
    else (nodeToken? document 0 node).toList

/-! ## One node -/

/-- The first recognizer that accepts a text decides what is made of it. -/
theorem findSome?_of_firstMatch {text : String} {recognizers : List Recognizer}
    {outcome : Option Recognition} (h : Recognizer.firstMatch text recognizers = .ok outcome) :
    recognizers.findSome? (·.accepted? text) = outcome := by
  induction recognizers with
  | nil => simpa [Recognizer.firstMatch] using h
  | cons recognizer rest ih =>
    rw [Recognizer.firstMatch, bind_eq_ok] at h
    obtain ⟨found, hrun, hrest⟩ := h
    cases found with
    | some found =>
      have haccepted := Recognizer.accepted?_eq_some_iff.mpr hrun
      simpa [List.findSome?_cons, haccepted] using hrest
    | none =>
      have hrefused : recognizer.accepted? text = none := by
        simp [Recognizer.accepted?, hrun, Except.toOption]
      rw [List.findSome?_cons, hrefused]
      exact ih hrest

/-- The recognizers for the name of a node decide how its text reads. -/
theorem reading?_eq_findSome? (name : RawText) (text : String) :
    SyntaxTree.reading? name text =
      (SyntaxTree.recognizers name).findSome? (·.accepted? text) := by
  rw [SyntaxTree.reading?, SyntaxTree.recognizers]
  split_ifs with hliteral hvalue hcall
  · simp
  · simp
  · simp only [List.findSome?_cons, List.findSome?_nil]
    cases Recognizer.rgbCall.accepted? text with
    | some found => rfl
    | none => cases Recognizer.hslCall.accepted? text <;> rfl
  · rfl

/-- The token that is built for a node stands between the offsets of the node in the document. -/
theorem nodeToken?_of_tokenAt? {document : String} {base : Int} {node : SyntaxTree}
    {outcome : Option Token} (h : tokenAt? document.toList base node = .ok outcome) :
    nodeToken? document base node = outcome := by
  rw [tokenAt?, bind_eq_ok] at h
  obtain ⟨found, hmatch, hbuild⟩ := h
  have hreading := findSome?_of_firstMatch (Error.ofNumeric_eq_ok.mp hmatch)
  rw [← reading?_eq_findSome?] at hreading
  rw [nodeToken?, Text.between, hreading]
  cases found with
  | none => simpa using hbuild
  | some found =>
    -- the token is built at the offsets of the node and moved by the base afterwards
    obtain ⟨token, htoken, hshift⟩ := bind_eq_ok.mp hbuild
    obtain ⟨-, rfl⟩ := Token.build_eq_valid_iff.mp (Error.ofChecked_toExcept_eq_ok.mp htoken)
    simpa [Int.add_comm] using hshift

/-- An attribute value has no token of its own. -/
theorem nodeToken?_of_isAttribute {node : SyntaxTree} (h : node.isAttribute = true)
    (document : String) (offset : Int) : nodeToken? document offset node = none := by
  simp [nodeToken?, SyntaxTree.reading?, SyntaxTree.isAttribute_iff.mp h]

/-- What a node contributes on its own: an attribute value nothing, or what the rule for overlays
makes of its overlay; any other node, which must not carry an overlay, at most one token. -/
theorem contribution_eq_ok_iff {rule : OverlayRule} {document : List Char} {base : Int}
    {node : SyntaxTree} {part : List Token} :
    contribution rule document base node = .ok part ↔
      (node.isAttribute = true ∧ node.overlay = none ∧ part = []) ∨
      (∃ overlay, node.isAttribute = true ∧ node.overlay = some overlay ∧
        rule (base + node.start) overlay = .ok part) ∨
      (∃ token?, node.isAttribute = false ∧ node.overlay = none ∧
        tokenAt? document base node = .ok token? ∧ token?.toList = part) := by
  cases hattribute : node.isAttribute with
  | true =>
    cases hoverlay : node.overlay with
    | none => simp [contribution, hattribute, hoverlay, eq_comm]
    | some overlay => simp [contribution, hattribute, hoverlay]
  | false =>
    cases hoverlay : node.overlay with
    | none => simp [contribution, hattribute, hoverlay, bind_eq_ok]
    | some overlay => simp [contribution, hattribute, hoverlay]

/-! ## All nodes of a tree -/

/-- When every node contributes what is expected of it, so do the nodes of a list. -/
theorem contributions_eq_flatMap {rule : OverlayRule} {document : List Char} {base : Int}
    {expected : SyntaxTree → List Token}
    (hnode : ∀ node part, contribution rule document base node = .ok part → part = expected node)
    {nodes : List SyntaxTree} {found : List Token}
    (h : contributions rule document base nodes = .ok found) :
    found = nodes.flatMap expected := by
  induction nodes generalizing found with
  | nil => simpa using h.symm
  | cons node rest ih =>
    rw [contributions_cons, append_eq_ok] at h
    obtain ⟨part, more, hpart, hmore, rfl⟩ := h
    rw [List.flatMap_cons, ← hnode node part hpart, ← ih hmore]

/-- Inside an overlay every node stands for its own token. -/
theorem contribution_rejectOverlay {document : String} {base : Int} {node : SyntaxTree}
    {part : List Token} (h : contribution rejectOverlay document.toList base node = .ok part) :
    part = (nodeToken? document base node).toList := by
  rcases contribution_eq_ok_iff.mp h with ⟨hattribute, -, rfl⟩ | ⟨_, _, _, hrule⟩ |
    ⟨token?, _, _, htoken, rfl⟩
  · rw [nodeToken?_of_isAttribute hattribute, Option.toList_none]
  · -- a scan that meets an overlay inside an overlay does not succeed
    simp [rejectOverlay] at hrule
  · rw [nodeToken?_of_tokenAt? htoken]

/-- The tokens of an overlay are those of its nodes in sight of its own extent. -/
theorem enterOverlay_eq_flatMap {document : String} {position : Int} {overlay : SyntaxTree}
    {found : List Token} (h : enterOverlay document.toList position overlay = .ok found) :
    found = (overlay.nodesInSight overlay.extent).flatMap fun node =>
      (nodeToken? document (position + 1) node).toList := by
  rw [enterOverlay, tokensWith, SyntaxTree.visit_eq] at h
  exact contributions_eq_flatMap (fun node part hpart => contribution_rejectOverlay hpart) h

/-- Outside of overlays an attribute value stands for the tokens of its overlay, and any other node
for its own token. -/
theorem contribution_enterOverlay {document : String} {node : SyntaxTree} {part : List Token}
    (h : contribution (enterOverlay document.toList) document.toList 0 node = .ok part) :
    part = if node.name = "AttributeValue" then overlayTokens document node
      else (nodeToken? document 0 node).toList := by
  rcases contribution_eq_ok_iff.mp h with ⟨hattribute, hoverlay, rfl⟩ |
    ⟨overlay, hattribute, hoverlay, hrule⟩ | ⟨token?, hattribute, _, htoken, rfl⟩
  · rw [if_pos (SyntaxTree.isAttribute_iff.mp hattribute), overlayTokens, hoverlay]
  · rw [if_pos (SyntaxTree.isAttribute_iff.mp hattribute), overlayTokens, hoverlay,
      enterOverlay_eq_flatMap hrule]
    simp
  · rw [if_neg (SyntaxTree.isAttribute_eq_false_iff.mp hattribute), nodeToken?_of_tokenAt? htoken]

/-- The token of a node is what some recognizer makes of the document text between its offsets. -/
theorem exists_run_of_nodeToken? {document : String} {offset : Int} {node : SyntaxTree}
    {token : Token} (h : nodeToken? document offset node = some token) :
    ∃ recognizer : Recognizer,
      recognizer.run (Text.between document token.start token.stop) =
        .ok (some token.toRecognition) := by
  obtain ⟨found, hreading, rfl⟩ := Option.map_eq_some_iff.mp h
  rw [reading?_eq_findSome?] at hreading
  obtain ⟨recognizer, -, haccepted⟩ := List.exists_of_findSome?_eq_some hreading
  exact ⟨recognizer, Recognizer.accepted?_eq_some_iff.mp haccepted⟩

/-- Every token of the walk is the token of some node, of the tree or of an overlay. -/
theorem exists_node_of_mem_walk {document : String} {tree : SyntaxTree} {extent : Option Extent}
    {token : Token} (h : token ∈ walk document tree extent) :
    ∃ offset node, nodeToken? document offset node = some token := by
  obtain ⟨node, -, hnode⟩ := List.mem_flatMap.mp h
  split at hnode
  · unfold overlayTokens at hnode
    split at hnode
    · obtain ⟨inner, -, hinner⟩ := List.mem_flatMap.mp hnode
      exact ⟨node.start + 1, inner, Option.mem_toList.mp hinner⟩
    · simp at hnode
  · exact ⟨0, node, Option.mem_toList.mp hnode⟩

/-- The nodes in sight contribute what the walk expects of them. -/
theorem eq_walk_of_tokens {document : String} {tree : SyntaxTree} {extent : Option Extent}
    {found : List Token} (h : tokens document tree extent = .ok found) :
    found = walk document tree extent := by
  rw [tokens, subtree, if_neg Bool.false_ne_true, tokensWith, SyntaxTree.visit_eq] at h
  exact contributions_eq_flatMap (fun node part hpart => contribution_enterOverlay hpart) h

/-- A scan that succeeds finds exactly the tokens of the walk, in its order. Each of them is what a
recognizer makes of the document text between the offsets of the token. -/
theorem tokens_eq_walk {document : String} {tree : SyntaxTree} {extent : Option Extent}
    {found : List Token} (h : tokens document tree extent = .ok found) :
    found = walk document tree extent ∧
      ∀ token ∈ found, ∃ recognizer : Recognizer,
        recognizer.run (Text.between document token.start token.stop) =
          .ok (some token.toRecognition) := by
  have hwalk : found = walk document tree extent := eq_walk_of_tokens h
  refine ⟨hwalk, fun token htoken => ?_⟩
  obtain ⟨offset, node, hnode⟩ := exists_node_of_mem_walk (hwalk ▸ htoken)
  exact exists_run_of_nodeToken? hnode

/-- A document with an inline style and a call, the call at the very end of the extent and a keyword
behind it. -/
theorem tokens_eq_walk_inline_style :
    let document := "<p style=\"color:#FfF\">rgb(1 2 3) red</p>"
    let overlay : SyntaxTree :=
      { name := "StyleSheet", start := 0, stop := 10
        children := [{ name := "ColorLiteral", start := 6, stop := 10 }] }
    let tree : SyntaxTree :=
      { name := "Document", start := 0, stop := 40
        children := [
          { name := "AttributeValue", start := 9, stop := 21, overlay := some overlay },
          { name := "CallExpression", start := 22, stop := 32 },
          { name := "ValueName", start := 33, stop := 36 }] }
    let found : List Token :=
      [{ kind := .hex, color := "#ffffff", start := 16, stop := 20 },
       { kind := .rgb, color := "#010203", function := "rgb", separator := " ", start := 22,
         stop := 32 }]
    tokens document tree (some ⟨0, 22⟩) = .ok found ∧
      found = walk document tree (some ⟨0, 22⟩) := by
  intro document overlay tree found
  have h : tokens document tree (some ⟨0, 22⟩) = .ok found := by decide +kernel
  exact ⟨h, (tokens_eq_walk h).1⟩

end Scan

end CssColor
