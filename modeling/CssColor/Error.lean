import CssColor.Number.Basic
import CssColor.Text.Raw
import CssColor.Validation.Issue

/-!
# Errors

Why an operation on colors, tokens or syntax trees has no result.
-/

namespace CssColor

/-- Why an operation has no result. -/
inductive Error where
  /-- A computation with numbers has no result. -/
  | numeric (cause : NumericError)
  /-- A value does not pass its checks. -/
  | invalid (issues : List Issue)
  /-- An embedded tree stands inside another embedded tree. -/
  | nestedOverlay (position : Int)
  /-- An embedded tree stands on a node that is no attribute value. -/
  | misplacedOverlay (name : RawText) (position : Int)
  /-- There is no token of the given index. -/
  | noSuchToken (index : Nat)
  deriving DecidableEq, Repr

namespace Error

/-- The text that tells a client about an error in a syntax tree; other errors have none. -/
def message? : Error → Option RawText
  | nestedOverlay position =>
    some ("embedded tree nested inside another embedded tree at offset " ++ toString position)
  | misplacedOverlay name position =>
    some ("embedded tree mounted on " ++ name ++ " node at offset " ++ toString position)
  | numeric _ => none
  | invalid _ => none
  | noSuchToken _ => none

variable {α : Type}

/-- The outcome of a computation with numbers. -/
def ofNumeric (outcome : Except NumericError α) : Except Error α := outcome.mapError numeric

/-- The outcome of a check. -/
def ofChecked (outcome : Except (List Issue) α) : Except Error α := outcome.mapError invalid

end Error

end CssColor
