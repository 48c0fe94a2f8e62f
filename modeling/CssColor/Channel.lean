import CssColor.Number.Decimal
import CssColor.Number.Hexadecimal
import CssColor.Text.Slice

/-!
# Channels

The red, green and blue channels of a color, and their text as pairs of hexadecimal digits. A
canonical color is `#` and three pairs in lower case.
-/

namespace CssColor

open Text

/-- A value for each of the three channels. -/
structure Rgb (α : Type) where
  /-- The red channel. -/
  red : α
  /-- The green channel. -/
  green : α
  /-- The blue channel. -/
  blue : α
  deriving DecidableEq, Repr

/-- The same function on each channel. -/
def Rgb.map {α β : Type} (f : α → β) (color : Rgb α) : Rgb β :=
  ⟨f color.red, f color.green, f color.blue⟩

namespace Channel

/-- A number below 256 as two lower-case hexadecimal digits. -/
def hexPair (n : Nat) : List Char := [hexDigit (n / 16), hexDigit (n % 16)]

/-- The digits of a channel: the number is moved between 0 and 255 and its fraction is dropped. -/
def encode (level : Number) : Except NumericError (List Char) := do
  let value ← (level.clamp 0 255).truncate
  return hexPair value.toNat

/-- The level that a component writes: an integer part, or a percentage of 255 rounded half up. -/
def level (component : List Char) : Except NumericError Int := do
  if component.getLast? = some '%' then
    let percent := (Number.float (← Decimal.read component.dropLast)).clamp 0 100
    let fraction ← percent.div 100
    let scaled ← (Number.float fraction).mul 255
    scaled.roundHalfUp
  else
    (Number.float (← Decimal.read component)).truncate

/-- The digits of the channel that a component such as `128` or `50%` writes. -/
def encodeComponent (component : List Char) : Except NumericError (List Char) := do
  encode (.int (← level component))

end Channel

namespace Rgb

/-- The color with the given pairs of digits. -/
def hexText (pairs : Rgb (List Char)) : String :=
  String.ofList ('#' :: (pairs.red ++ pairs.green ++ pairs.blue))

/-- The canonical color with the given levels. -/
def toHex (levels : Rgb Number) : Except NumericError String := do
  let red ← Channel.encode levels.red
  let green ← Channel.encode levels.green
  let blue ← Channel.encode levels.blue
  return hexText ⟨red, green, blue⟩

/-- The canonical color that three components write. -/
def ofComponents (components : Rgb (List Char)) : Except NumericError String := do
  let red ← Channel.encodeComponent components.red
  let green ← Channel.encodeComponent components.green
  let blue ← Channel.encodeComponent components.blue
  return hexText ⟨red, green, blue⟩

/-- The levels that the first three pairs of digits after the leading number signs write. -/
def ofHex (color : String) : Except NumericError (Rgb Int) := do
  let digits := color.toList.dropWhile (· == '#')
  let red ← Hexadecimal.read (slice digits 0 2)
  let green ← Hexadecimal.read (slice digits 2 4)
  let blue ← Hexadecimal.read (slice digits 4 6)
  return ⟨red, green, blue⟩

end Rgb

end CssColor
