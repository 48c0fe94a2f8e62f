import CssColor.Rendering
import CssColor.Scan
import CssColor.SyntaxTree.Decode

/-!
# Editing sessions

A session holds a document, its syntax tree and the tokens of the last scan. Each step answers with
a value and leaves a new state; a step that fails leaves the state as it is.
-/

namespace CssColor

/-- The state of an editing session. -/
structure Session where
  /-- The text of the document. -/
  document : String
  /-- The syntax tree of the document. -/
  tree : SyntaxTree
  /-- The tokens that were found last. -/
  tokens : List Token := []

namespace Session

/-- A step of an editing session. -/
inductive Step where
  /-- Finds the tokens in an extent, or in the whole document. -/
  | scan (extent : Option Extent)
  /-- Finds the tokens in any of several extents. -/
  | scanExtents (extents : List Extent)
  /-- Finds the tokens of the tree at an offset. -/
  | scanSubtree (base : Int) (extent : Option Extent) (nested : Bool)
  /-- Replaces the tree. -/
  | setTree (tree : Json)
  /-- Writes a color the way a token is written. -/
  | render (index : Nat) (color : String)
  /-- Replaces a token in the document by a color. -/
  | recolor (index : Nat) (color : String)
  /-- Moves a token. -/
  | shift (index : Nat) (offset : Int)

/-- The answer to a step. -/
inductive Answer where
  /-- Nothing to tell. -/
  | done
  /-- A text. -/
  | text (value : String)
  /-- The tokens of the session. -/
  | tokens (found : List Token)
  deriving DecidableEq, Repr

/-- The token of the given index. -/
def token (session : Session) (index : Nat) : Except Error Token :=
  match session.tokens[index]? with
  | some found => .ok found
  | none => .error (.noSuchToken index)

/-- The session with the given tokens, which are also the answer. -/
def withTokens (session : Session) (found : List Token) : Session × Answer :=
  ({ session with tokens := found }, .tokens found)

/-- One step: the new state and the answer, or why the step fails. -/
def step (session : Session) : Step → Except Error (Session × Answer)
  | .scan extent => do
    return session.withTokens (← Scan.tokens session.document session.tree extent)
  | .scanExtents extents => do
    return session.withTokens (← Scan.extents session.document session.tree extents)
  | .scanSubtree base extent nested => do
    return session.withTokens
      (← Scan.subtree session.document session.tree base extent nested)
  | .setTree tree => do
    let tree ← Error.ofChecked (SyntaxTree.ofJson .direct tree).toExcept
    return ({ session with tree }, .done)
  | .render index color => do
    let token ← session.token index
    return (session, .text (← Error.ofNumeric (token.render color)))
  | .recolor index color => do
    let token ← session.token index
    let document ← Error.ofNumeric (token.recolor session.document color)
    return ({ session with document }, .text document)
  | .shift index offset => do
    let token ← session.token index
    return session.withTokens (session.tokens.set index (token.shift offset))

/-- The answers to all steps in order. -/
def run (session : Session) : List Step → List (Except Error Answer)
  | [] => []
  | next :: rest =>
    match session.step next with
    | .ok (state, answer) => .ok answer :: run state rest
    | .error cause => .error cause :: run session rest

end Session

end CssColor
