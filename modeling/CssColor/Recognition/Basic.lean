import CssColor.Notation

/-!
# Recognitions

What is known of a text that writes a color, apart from where it stands.
-/

namespace CssColor

/-- A recognized color. -/
structure Recognition where
  /-- How the color is written. -/
  kind : Notation
  /-- The canonical color. -/
  color : String
  /-- The opacity as written: digits after a hex literal, or the last argument of a call together
  with the separator before it. Empty when there is none. -/
  alpha : String := ""
  /-- The name of the called function as written, empty when there is no call. -/
  function : String := ""
  /-- How the arguments of a call are separated, empty when there is no call. -/
  separator : String := ""
  deriving DecidableEq, Repr

end CssColor
