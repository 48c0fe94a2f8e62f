import CssColor.Error
import CssColor.Opacity
import CssColor.Recognition.Recognizer
import CssColor.Rendering

/-!
# Conversion

A bare color text written in another notation. The opacity goes along: the digits of a hex literal
become the last argument of a call, and the last argument of a call becomes two digits. Keywords are
opaque, so a translucent color that is asked for as a keyword becomes a hex literal.
-/

namespace CssColor

open Text

/-- The opacity of a recognized color, if it has one. -/
def Recognition.opacity? (found : Recognition) : Except NumericError (Option Number) :=
  if found.alpha = "" then return none
  else if found.kind = .hex then do
    return some (.float (← Opacity.ofHexDigits found.alpha.toList))
  else do
    let argument := (trim isBlank found.alpha.toList).dropWhile fun c => c == ',' || c == '/'
    return some (← Opacity.ofText (trim isBlank argument))

/-- The digits of the opacity of a recognized color in a hex literal. The digits of a hex literal
are kept as they are. -/
def Recognition.alphaDigits (found : Recognition) (opacity : Option Number) :
    Except NumericError String :=
  match opacity with
  | none => return ""
  | some value =>
    if found.kind = .hex then return found.alpha
    else do return String.ofList (← Opacity.toHexDigits value)

/-- The recognition whose rendering converts a recognized color to a keyword or a call. Between
calls the opacity and the separator stay as written; the function takes its short name. -/
def Recognition.template (found : Recognition) (target : Notation) (opacity : Option Number) :
    Except NumericError Recognition :=
  if target = .named then return { kind := target, color := found.color }
  else if found.kind.isCall then
    return { kind := target, color := found.color, alpha := found.alpha,
             separator := found.separator }
  else match opacity with
    | none => return { kind := target, color := found.color }
    | some value => do
      return { kind := target, color := found.color, alpha := ", " ++ (← Opacity.write value) }

/-- The text that writes a recognized color on its own. -/
def Recognition.render (found : Recognition) (color : String) : Except Error String := do
  let token ← Error.ofChecked (Token.build found 0 1).toExcept
  Error.ofNumeric (token.render color)

/-- A recognized color written in the target notation. -/
def Recognition.convert (found : Recognition) (target : Notation) : Except Error String := do
  if target = found.kind then
    found.render found.color
  else
    let opacity ← Error.ofNumeric found.opacity?
    let translucent := opacity.any fun value => value.lt 1
    if target = .hex ∨ (target = .named ∧ translucent) then
      return hexLiteralText found.color (← Error.ofNumeric (found.alphaDigits opacity))
    else
      (← Error.ofNumeric (found.template target opacity)).render found.color

/-- A bare color text written in the target notation, or `none` when it is no color. -/
def convert (text : String) (target : Notation) : Except Error (Option String) := do
  match ← Error.ofNumeric (recognize text) with
  | some found => return some (← found.convert target)
  | none => return none

end CssColor
