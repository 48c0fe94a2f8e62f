import CssColor.Hsl
import CssColor.Keyword.Basic
import CssColor.Text.Slice
import CssColor.Token

/-!
# Rendering

A newly picked color written the way a token was written, and documents with the new text in place.

The color decides on some of what is written, and may fail to. The texts of the token are put around
it, which never fails and is the same for the tokens of a scan and for those that clients send.
-/

namespace CssColor

/-- A color as a hex literal in lower case, with the digits of its opacity. -/
def hexLiteralText (color alpha : String) : String := Text.lower color ++ alpha

/-- What is written of a color, without the texts of a token. -/
inductive Inscription where
  /-- The arguments of a call, which takes a name, a separator and an opacity. -/
  | call (first second third : String)
  /-- The digits of a hex literal with the number sign, which take an opacity. -/
  | literal (digits : String)
  /-- A text that takes nothing. -/
  | plain (text : String)
  deriving DecidableEq, Repr

/-- A fraction as a whole percentage. -/
def Token.percentText (fraction : Binary64) : Except NumericError String := do
  let percent ← (← (Number.float fraction).mul 100).roundHalfUp
  return toString percent ++ "%"

/-- What is written of a color in the given way. -/
def Inscription.ofColor (color : String) : Notation → Except NumericError Inscription
  | .rgb => do
    let channels ← Rgb.ofHex color
    return .call (toString channels.red) (toString channels.green) (toString channels.blue)
  | .hsl => do
    let parts ← Hsl.ofRgb ((← Rgb.ofHex color).map Number.int)
    let saturation ← Token.percentText parts.saturation
    let lightness ← Token.percentText parts.lightness
    return .call (toString parts.hue) saturation lightness
  | .named => return .plain ((Keyword.ofColor? color).getD (Text.lower color))
  | .hex => return .literal (Text.lower color)

namespace Wording

variable {τ : Type} [Append τ] [DecidableEq τ]

/-- A recorded text, or the given one where nothing is recorded. -/
def recorded (embed : String → τ) (text : τ) (fallback : String) : τ :=
  if text = embed "" then embed fallback else text

/-- A call with the given arguments. A wording that records no function or separator is given the
name of the notation and a comma. The texts that do not come from the wording are embedded. -/
def callText (embed : String → τ) (wording : Wording τ) (kind : Notation)
    (first second third : String) : τ :=
  let function := recorded embed wording.function kind.name
  let separator := recorded embed wording.separator ", "
  function ++ embed "(" ++ embed first ++ separator ++ embed second ++ separator ++ embed third ++
    wording.alpha ++ embed ")"

/-- The text of an inscription in the given wording. -/
def text (embed : String → τ) (wording : Wording τ) (kind : Notation) : Inscription → τ
  | .call first second third => wording.callText embed kind first second third
  | .literal digits => embed digits ++ wording.alpha
  | .plain text => embed text

end Wording

namespace Token

/-- A call with the given arguments, in the spelling of the token. -/
def callText (token : Token) (first second third : String) : String :=
  token.wording.callText id token.kind first second third

/-- The text that writes a color in place of the token. -/
def render (token : Token) (color : String) : Except NumericError String := do
  return token.wording.text id token.kind (← Inscription.ofColor color token.kind)

/-- The document with the span of the token replaced by the given text. -/
def replaceSpan (token : Token) (document replacement : String) : String :=
  String.ofList (Text.replace document.toList token.start token.stop replacement.toList)

/-- The document with a new color in place of the token. -/
def recolor (token : Token) (document color : String) : Except NumericError String := do
  return token.replaceSpan document (← token.render color)

end Token

namespace RawToken

/-- The text that writes a color in place of the token. -/
def render (token : RawToken) (color : String) : Except NumericError RawText := do
  return token.toWording.text RawText.ofString token.kind
    (← Inscription.ofColor color token.kind)

/-- The document with a new color in place of the token. -/
def recolor (token : RawToken) (document : RawText) (color : String) :
    Except NumericError RawText := do
  return Text.replace document token.start token.stop (← token.render color)

end RawToken

end CssColor
