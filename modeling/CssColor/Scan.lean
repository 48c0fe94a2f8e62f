import CssColor.Error
import CssColor.Recognition.Recognizer
import CssColor.SyntaxTree.Basic
import CssColor.Text.Slice
import CssColor.Token

/-!
# Scanning

The color tokens of a document, found through its syntax tree. The name of a node decides which
recognizers are tried on its text. An attribute value contributes the tokens of its overlay, moved
to where the attribute stands in the document. An overlay on any other node, or inside another
overlay, is an error.
-/

namespace CssColor

namespace SyntaxTree

/-- The recognizers that are tried on the text of a node with the given name. -/
def recognizers (name : RawText) : List Recognizer :=
  if name = "ColorLiteral" then [.hexLiteral]
  else if name = "ValueName" then [.keyword]
  else if name = "CallExpression" then [.rgbCall, .hslCall]
  else []

/-- Whether a node is an attribute value, which may carry an overlay. -/
def isAttribute (tree : SyntaxTree) : Bool := tree.name == "AttributeValue"

end SyntaxTree

namespace Scan

/-- The width of the quote between the start of an attribute value and its overlay. -/
def quoteWidth : Int := 1

/-- The token of a node whose offsets are relative to a base, if its text is a color. -/
def tokenAt? (document : List Char) (base : Int) (node : SyntaxTree) :
    Except Error (Option Token) := do
  let text := String.ofList (Text.slice document (base + node.start) (base + node.stop))
  match ← Error.ofNumeric (Recognizer.firstMatch text (SyntaxTree.recognizers node.name)) with
  | some found =>
    let token ← Error.ofChecked (Token.build found node.start node.stop).toExcept
    return some (token.shift base)
  | none => return none

/-- What to do with an overlay, given the position of the node that carries it. -/
abbrev OverlayRule := Int → SyntaxTree → Except Error (List Token)

/-- The tokens that a node contributes on its own. -/
def contribution (rule : OverlayRule) (document : List Char) (base : Int) (node : SyntaxTree) :
    Except Error (List Token) :=
  if node.isAttribute then
    match node.overlay with
    | some overlay => rule (base + node.start) overlay
    | none => return []
  else if node.overlay.isSome then throw (.misplacedOverlay node.name (base + node.start))
  else do return (← tokenAt? document base node).toList

/-- The tokens that the nodes of a list contribute, in order; the first error ends the scan. -/
def contributions (rule : OverlayRule) (document : List Char) (base : Int) :
    List SyntaxTree → Except Error (List Token)
  | [] => return []
  | node :: rest => do
    let tokens ← contribution rule document base node
    return tokens ++ (← contributions rule document base rest)

@[simp] theorem contributions_nil (rule : OverlayRule) (document : List Char) (base : Int) :
    contributions rule document base [] = .ok [] := rfl

/-- The nodes contribute one after the other, and the first error ends the scan. -/
theorem contributions_cons (rule : OverlayRule) (document : List Char) (base : Int)
    (node : SyntaxTree) (rest : List SyntaxTree) :
    contributions rule document base (node :: rest) = (do
      let tokens ← contribution rule document base node
      return tokens ++ (← contributions rule document base rest)) := rfl

/-- The tokens of the nodes of a tree that touch an extent, the whole tree by default. -/
def tokensWith (rule : OverlayRule) (document : List Char) (base : Int) (extent : Option Extent)
    (tree : SyntaxTree) : Except Error (List Token) :=
  contributions rule document base (tree.visit (extent.getD tree.extent))

/-- No overlay may stand inside an overlay. -/
def rejectOverlay : OverlayRule := fun position _ => throw (.nestedOverlay position)

/-- The tokens of an overlay as a whole, at the offset behind the opening quote. -/
def enterOverlay (document : List Char) : OverlayRule := fun position overlay =>
  tokensWith rejectOverlay document (position + quoteWidth) none overlay

/-- The tokens of a tree whose offsets are relative to a base in the document. The extent is in the
offsets of the tree; `nested` says that the tree is itself an overlay. -/
def subtree (document : String) (tree : SyntaxTree) (base : Int) (extent : Option Extent)
    (nested : Bool) : Except Error (List Token) :=
  let rule := if nested then rejectOverlay else enterOverlay document.toList
  tokensWith rule document.toList base extent tree

/-- The tokens of the nodes of a tree that touch an extent, the whole tree by default. -/
def tokens (document : String) (tree : SyntaxTree) (extent : Option Extent) :
    Except Error (List Token) :=
  subtree document tree 0 extent false

/-- The tokens found in each extent of a list, one list after the other. -/
def eachExtent (document : String) (tree : SyntaxTree) :
    List Extent → Except Error (List Token)
  | [] => return []
  | extent :: rest => do
    let found ← tokens document tree (some extent)
    return found ++ (← eachExtent document tree rest)

/-- The tokens found in any of several extents, each token once, in the order in which they are
first found. -/
def extents (document : String) (tree : SyntaxTree) (ranges : List Extent) :
    Except Error (List Token) := do
  return (← eachExtent document tree ranges).eraseDups

end Scan

end CssColor
