import CssColor.SyntaxTree.Basic
import CssColor.Validation.Decode

/-!
# Syntax trees from JSON

Checking the trees that clients send. All issues of a tree are found, those of a node before those
of its children, and those of its children before those of its overlay.
-/

namespace CssColor.SyntaxTree

mutual

/-- The tree that a JSON value gives. -/
def ofJson (intake : Intake) : Json → Checked SyntaxTree
  | .object fields =>
    SyntaxTree.mk <$> Decode.required fields "name" Decode.string
      <*> Decode.required fields "start" Decode.offset
      <*> Decode.required fields "end" Decode.offset
      <*> (childrenOf intake fields).below (.field "children")
      <*> (overlayOf intake fields).below (.field "overlay")
  | _ => .fault (intake.objectFault "SyntaxNode")

/-- The children among the fields of a node; a node without the field has none. -/
def childrenOf (intake : Intake) : List (RawText × Json) → Checked (List SyntaxTree)
  | [] => .valid []
  | (name, value) :: rest =>
    if name = "children" then
      match value with
      | .array items => ofItems intake 0 items
      | _ => .fault .notList
    else childrenOf intake rest

/-- The overlay among the fields of a node; a node without the field, or with `null` there, has
none. -/
def overlayOf (intake : Intake) : List (RawText × Json) → Checked (Option SyntaxTree)
  | [] => .valid none
  | (name, value) :: rest =>
    if name = "overlay" then
      match value with
      | .null => .valid none
      | tree => some <$> ofJson intake tree
    else overlayOf intake rest

/-- The trees of a list, each reported under its index, counted from `index`. -/
def ofItems (intake : Intake) (index : Nat) : List Json → Checked (List SyntaxTree)
  | [] => .valid []
  | item :: rest =>
    List.cons <$> (ofJson intake item).below (.item index) <*> ofItems intake (index + 1) rest

end

end CssColor.SyntaxTree
