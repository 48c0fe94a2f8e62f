import CssColor.Channel

/-!
# Hue, saturation and lightness

Conversion between the three channels and hue, saturation and lightness. The hue is in degrees;
saturation and lightness are fractions of one. The arithmetic is that of `Number`, in the stated
order, so rounding and failures are part of the definitions.
-/

namespace CssColor

/-- A color by hue, saturation and lightness. -/
structure Hsl where
  /-- The hue in whole degrees, from 0 to 359. -/
  hue : Int
  /-- The saturation as a fraction. -/
  saturation : Binary64
  /-- The lightness as a fraction. -/
  lightness : Binary64
  deriving DecidableEq, Repr

namespace Hsl

/-- A point of the hue circle moved by at most one turn toward the unit interval. -/
def wrap (t : Number) : Except NumericError Number :=
  if t.lt 0 then t.add 1
  else if Number.le 1 t then t.sub 1
  else pure t

/-- The level of a channel at a point of the hue circle, between a low and a high level: rising over
the first sixth, high up to one half, falling up to two thirds, and low from there on. -/
def levelAt (high low t : Number) : Except NumericError Number := do
  if (← Number.mul 6 t).lt 1 then
    low.add (← (← (← high.sub low).mul 6).mul t)
  else if (← Number.mul 2 t).lt 1 then
    return high
  else if (← Number.mul 3 t).lt 2 then
    let remaining ← (Number.float (← Number.div 2 3)).sub t
    low.add (← (← (← high.sub low).mul remaining).mul 6)
  else
    return low

/-- The highest level among the channels of a color with the given saturation and lightness. -/
def highLevel (saturation lightness : Number) : Except NumericError Number := do
  if lightness.lt (.float Binary64.half) then
    lightness.mul (← Number.add 1 saturation)
  else
    (← lightness.add saturation).sub (← lightness.mul saturation)

/-- The channel of a level, which is one at full intensity, moved between 0 and 255. -/
def channelOfLevel (level : Number) : Except NumericError Int := do
  ((Number.int (← (← level.mul 255).roundHalfUp)).clamp 0 255).truncate

/-- The channels of a color. A color without saturation is grey, whatever its hue, and its level is
not moved between 0 and 255. -/
def toRgb (hue saturation lightness : Number) : Except NumericError (Rgb Int) := do
  if saturation.sameValue 0 then
    let grey ← (← lightness.mul 255).roundHalfUp
    return ⟨grey, grey, grey⟩
  else
    let high ← highLevel saturation lightness
    let low ← (← Number.mul 2 lightness).sub high
    let turn := Number.float (← (hue.mod 360).div 360)
    let third := Number.float (← Number.div 1 3)
    let red ← levelAt high low (← wrap (← turn.add third))
    let green ← levelAt high low turn
    let blue ← levelAt high low (← wrap (← turn.sub third))
    return ⟨← channelOfLevel red, ← channelOfLevel green, ← channelOfLevel blue⟩

/-- The canonical color with the given hue and with saturation and lightness in percent. -/
def toHex (hue saturation lightness : Number) : Except NumericError String := do
  let saturation ← saturation.div 100
  let lightness ← lightness.div 100
  ((← toRgb hue (.float saturation) (.float lightness)).map Number.int).toHex

/-- The position on the hue circle in sixths of a turn, for a color whose levels differ by
`spread`. -/
def sextant (levels : Rgb Number) (highest spread : Number) : Except NumericError Number := do
  let difference (x y : Number) : Except NumericError Number := do
    return .float (← (← x.sub y).div spread)
  if highest.sameValue levels.red then
    difference levels.green levels.blue
  else if highest.sameValue levels.green then
    Number.add 2 (← difference levels.blue levels.red)
  else
    Number.add 4 (← difference levels.red levels.green)

/-- Hue, saturation and lightness of a color given by its channels. A grey has no hue or saturation
of its own and is given the hue and the saturation zero. -/
def ofRgb (channels : Rgb Number) : Except NumericError Hsl := do
  let levels : Rgb Number :=
    ⟨.float (← channels.red.div 255), .float (← channels.green.div 255),
      .float (← channels.blue.div 255)⟩
  let highest := (levels.red.max levels.green).max levels.blue
  let lowest := (levels.red.min levels.green).min levels.blue
  let sum ← highest.add lowest
  let lightness ← sum.div 2
  if highest.sameValue lowest then
    return { hue := 0, saturation := Binary64.zero false, lightness }
  else
    let spread ← highest.sub lowest
    let saturation ←
      if (Number.float lightness).le (.float Binary64.half) then spread.div sum
      else spread.div (← (← Number.sub 2 highest).sub lowest)
    let sixths ← sextant levels highest spread
    let degrees ← (← sixths.mul 60).roundHalfUp
    return { hue := degrees % 360, saturation, lightness }

end Hsl

end CssColor
