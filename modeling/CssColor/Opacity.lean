import CssColor.Channel
import CssColor.Number.Significant

/-!
# Opacity

The opacity of a color is a fraction from zero, transparent, to one, opaque. It is written as a
number, as a percentage, or as two hexadecimal digits.
-/

namespace CssColor.Opacity

/-- The opacity that a number or a percentage writes, moved between zero and one. -/
def ofText (text : List Char) : Except NumericError Number := do
  let value ←
    if text.getLast? = some '%' then
      (Number.float (← Decimal.read text.dropLast)).div 100
    else Decimal.read text
  return (Number.float value).clamp 0 1

/-- The opacity that hexadecimal digits write, as a fraction of 255. -/
def ofHexDigits (digits : List Char) : Except NumericError Binary64 := do
  (Number.int (← Hexadecimal.read digits)).div 255

/-- The opacity as two hexadecimal digits. -/
def toHexDigits (opacity : Number) : Except NumericError (List Char) := do
  let level ← (← (opacity.clamp 0 1).mul 255).roundHalfUp
  Channel.encode (.int level)

/-- Opacities are written with six significant digits. -/
def significantDigits : Nat := 6

/-- The opacity as a number with at most three decimals. -/
def write (opacity : Number) : Except NumericError String := do
  let thousandths ← (← opacity.mul 1000).roundHalfUp
  return Significant.write significantDigits (← (Number.int thousandths).div 1000)

end CssColor.Opacity
