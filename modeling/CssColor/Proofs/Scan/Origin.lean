import CssColor.Proofs.Recognition.Disjointness
import CssColor.Proofs.Scan.Translation
import CssColor.Proofs.Scan.Walk

/-!
# Where the tokens of a scan come from

Every token that a scan finds was built for one node, of the tree or of an overlay, and then moved
to where that node stands in the document. So it passes the checks of a token, and it stops where
the node does.

## Main results

* `Scan.mem_contributions_iff`: the tokens of a list of nodes are those of each of them.
* `Scan.exists_node_of_mem_tokens`: a token that is found was built for a node.
* `Scan.exists_run_of_tokenAt?`: a recognizer has accepted what stands in the span of a token.
* `Scan.mem_extents_iff`: the tokens of several extents are those of each of them.
-/

namespace CssColor

namespace Scan

/-- The tokens that a list of nodes contributes are those of each of them. -/
theorem mem_contributions_iff {rule : OverlayRule} {document : List Char} {base : Int}
    {nodes : List SyntaxTree} {found : List Token}
    (h : contributions rule document base nodes = .ok found) {token : Token} :
    token ∈ found ↔
      ∃ node ∈ nodes, ∃ part, contribution rule document base node = .ok part ∧ token ∈ part := by
  induction nodes generalizing found with
  | nil =>
    obtain rfl : [] = found := by simpa using h
    simp
  | cons node rest ih =>
    rw [contributions_cons, append_eq_ok] at h
    obtain ⟨part, more, hpart, hmore, rfl⟩ := h
    simp [ih hmore, hpart]

/-- What a tree contributes is contributed by one of its nodes, which stops where the nodes of the
tree do. -/
theorem mem_of_tokensWith {rule : OverlayRule} {document : List Char} {base : Int}
    {extent : Option Extent} {tree : SyntaxTree} {found : List Token}
    (h : tokensWith rule document base extent tree = .ok found) {token : Token}
    (htoken : token ∈ found) (offset : Nat) :
    ∃ node part, node.stops offset ⊆ tree.stops offset ∧
      contribution rule document base node = .ok part ∧ token ∈ part := by
  obtain ⟨node, hnode, part, hpart, hmem⟩ := (mem_contributions_iff h).mp htoken
  -- no node stops where the tree does not, whichever of its ancestors are visited
  have hstops : ∀ node ∈ tree.visit (extent.getD tree.extent),
      node.stops offset ⊆ tree.stops offset := by
    refine SyntaxTree.forall_mem_visit (fun parent hparent child hchild => ?_)
      (List.Subset.refl _)
    exact List.Subset.trans (SyntaxTree.stops_of_mem_children hchild) hparent
  exact ⟨node, part, hstops node hnode, hpart, hmem⟩

/-- Every token that a scan finds was built for a node of the tree or of an overlay. -/
theorem exists_node_of_mem_tokens {document : String} {tree : SyntaxTree} {extent : Option Extent}
    {found : List Token} (h : tokens document tree extent = .ok found) {token : Token}
    (htoken : token ∈ found) :
    ∃ (offset : Nat) (node : SyntaxTree), offset + node.stop ∈ tree.stops 0 ∧
      tokenAt? document.toList offset node = .ok (some token) := by
  rw [tokens, subtree, if_neg Bool.false_ne_true] at h
  obtain ⟨node, part, hstops, hpart, hmem⟩ := mem_of_tokensWith h htoken 0
  rcases contribution_eq_ok_iff.mp hpart with ⟨-, -, rfl⟩ | ⟨overlay, -, hoverlay, hrule⟩ |
    ⟨token?, -, -, hbuilt, rfl⟩
  · simp at hmem
  · -- the token comes from the overlay, whose offsets start behind the quote
    have hbase : (0 + node.start + quoteWidth : Int) = (0 + node.start + 1 : Nat) := by
      simp [quoteWidth]
    rw [enterOverlay, hbase] at hrule
    obtain ⟨inner, part, hinner, hpart, hmem⟩ := mem_of_tokensWith hrule hmem (0 + node.start + 1)
    rcases contribution_eq_ok_iff.mp hpart with ⟨-, -, rfl⟩ | ⟨_, -, -, hreject⟩ |
      ⟨token?, -, -, hbuilt, rfl⟩
    · simp at hmem
    · simp [rejectOverlay] at hreject
    · refine ⟨0 + node.start + 1, inner, hstops (SyntaxTree.stops_of_overlay hoverlay (hinner ?_)),
        ?_⟩
      · exact SyntaxTree.stops_self _ _
      · rw [hbuilt, Option.mem_toList.mp hmem]
  · refine ⟨0, node, hstops (SyntaxTree.stops_self _ _), ?_⟩
    show tokenAt? document.toList 0 node = .ok (some token)
    rw [hbuilt, Option.mem_toList.mp hmem]

/-- A token that is built for a node at a natural offset passes its checks in the document too, and
stops where the node does. -/
theorem proper_of_tokenAt? {document : List Char} {offset : Nat} {node : SyntaxTree}
    {token : Token} (h : tokenAt? document offset node = .ok (some token)) :
    token.Proper ∧ token.stop = (offset + node.stop : Nat) := by
  rw [tokenAt?, bind_eq_ok] at h
  obtain ⟨outcome, -, hbuild⟩ := h
  cases outcome with
  | none => simp at hbuild
  | some found =>
    obtain ⟨built, hbuilt, hshift⟩ := bind_eq_ok.mp hbuild
    obtain ⟨⟨hstart, hspan, hcolor⟩, rfl⟩ :=
      Token.build_eq_valid_iff.mp (Error.ofChecked_toExcept_eq_ok.mp hbuilt)
    obtain rfl : (found.spanning node.start node.stop).shift offset = token := by
      simpa using hshift
    constructor
    · -- the checks are made at the offsets of the node, and the token is moved forward
      have hproper : (found.spanning node.start node.stop).Proper := ⟨hstart, hspan, hcolor⟩
      exact hproper.shift (Int.natCast_nonneg offset)
    · show (node.stop : Int) + offset = (offset + node.stop : Nat)
      push_cast
      exact Int.add_comm _ _

/-- A token is built for a text that a recognizer accepts, and that stands in its span. -/
theorem exists_run_of_tokenAt? {document : List Char} {base : Int} {node : SyntaxTree}
    {token : Token} (h : tokenAt? document base node = .ok (some token)) :
    ∃ recognizer found, Recognizer.run
      (String.ofList (Text.slice document token.start token.stop)) recognizer =
        .ok (some found) := by
  rw [tokenAt?, bind_eq_ok] at h
  obtain ⟨outcome, hmatch, hbuild⟩ := h
  cases outcome with
  | none => simp at hbuild
  | some found =>
    obtain ⟨recognizer, -, hrun⟩ :=
      Recognizer.firstMatch_eq_some_iff.mp (Error.ofNumeric_eq_ok.mp hmatch)
    obtain ⟨built, hbuilt, hshift⟩ := bind_eq_ok.mp hbuild
    obtain ⟨-, rfl⟩ := Token.build_eq_valid_iff.mp (Error.ofChecked_toExcept_eq_ok.mp hbuilt)
    obtain rfl : (found.spanning node.start node.stop).shift base = token := by simpa using hshift
    refine ⟨recognizer, found, ?_⟩
    -- the token was moved by the base, and so was the slice
    rw [Int.add_comm base, Int.add_comm base] at hrun
    exact hrun

/-- The tokens of several extents, with all repetitions, are those of each of them. -/
theorem mem_eachExtent_iff {document : String} {tree : SyntaxTree} {ranges : List Extent}
    {found : List Token} (h : eachExtent document tree ranges = .ok found) {token : Token} :
    token ∈ found ↔
      ∃ extent ∈ ranges, ∃ part, tokens document tree (some extent) = .ok part ∧ token ∈ part := by
  induction ranges generalizing found with
  | nil =>
    obtain rfl : [] = found := by simpa [eachExtent] using h
    simp
  | cons extent rest ih =>
    rw [eachExtent, append_eq_ok] at h
    obtain ⟨part, more, hpart, hmore, rfl⟩ := h
    simp [ih hmore, hpart]

/-- A token is found in several extents exactly when it is found in one of them. -/
theorem mem_extents_iff {document : String} {tree : SyntaxTree} {ranges : List Extent}
    {found : List Token} (h : extents document tree ranges = .ok found) {token : Token} :
    token ∈ found ↔
      ∃ extent ∈ ranges, ∃ part, tokens document tree (some extent) = .ok part ∧ token ∈ part := by
  obtain ⟨all, hall, h⟩ := bind_eq_ok.mp h
  obtain rfl : all.eraseDups = found := by simpa using h
  rw [List.mem_eraseDups]
  exact mem_eachExtent_iff hall

end Scan

end CssColor
