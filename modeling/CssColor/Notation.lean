/-!
# Notations

The four ways to write a color.
-/

namespace CssColor

/-- A way to write a color. -/
inductive Notation where
  /-- A literal such as `#aabbcc`. -/
  | hex
  /-- A call of `rgb` or `rgba`. -/
  | rgb
  /-- A call of `hsl` or `hsla`. -/
  | hsl
  /-- A keyword such as `teal`. -/
  | named
  deriving DecidableEq, Repr

namespace Notation

/-- The name of a way to write a color. -/
def name : Notation → String
  | hex => "hex"
  | rgb => "rgb"
  | hsl => "hsl"
  | named => "named"

/-- The way to write a color that has the given name. -/
def ofName? (text : String) : Option Notation :=
  [hex, rgb, hsl, named].find? (·.name == text)

/-- Whether colors are written as a call. -/
def isCall : Notation → Bool
  | rgb => true
  | hsl => true
  | hex => false
  | named => false

/-- Every notation is found under its name. -/
@[simp] theorem ofName?_name (kind : Notation) : ofName? kind.name = some kind := by
  cases kind <;> decide

end Notation

end CssColor
