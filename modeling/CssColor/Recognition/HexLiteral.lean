import CssColor.Recognition.Basic
import CssColor.Text.Case
import CssColor.Text.Digit

/-!
# Hex literals

Literals of three, four, six or eight hexadecimal digits after a number sign. In the short forms
every digit stands for itself twice; the fourth and the eighth digit end the opacity.
-/

namespace CssColor

open Text

namespace HexLiteral

/-- Every character twice. -/
def double (digits : List Char) : List Char := digits.flatMap fun c => [c, c]

/-- A literal split into its color and the digits of its opacity, in lower case. The length of the
text alone decides its form, and texts of other lengths stay as they are. -/
def expand (text : List Char) : List Char × List Char :=
  let lowered := lowerChars text
  match text.length with
  | 4 => ('#' :: double ((lowered.drop 1).take 3), [])
  | 5 => ('#' :: double ((lowered.drop 1).take 3), double ((lowered.drop 4).take 1))
  | 7 => (lowered, [])
  | 9 => (lowered.take 7, lowered.drop 7)
  | _ => (text, [])

/-- Whether the text is a number sign with three, four, six or eight hexadecimal digits. -/
def isLiteral : List Char → Bool
  | '#' :: digits => digits.all isHexDigit && [3, 4, 6, 8].contains digits.length
  | _ => false

end HexLiteral

/-- The text without one final newline. -/
def Text.dropFinalNewline (text : List Char) : List Char :=
  if text.getLast? = some '\n' then text.dropLast else text

/-- The color of a hex literal, which one newline may follow. The form of the literal is decided by
the length of the whole text, the newline included. -/
def Recognition.ofHexLiteral? (text : String) : Option Recognition :=
  if HexLiteral.isLiteral (dropFinalNewline text.toList) then
    let (color, alpha) := HexLiteral.expand text.toList
    some { kind := .hex, color := String.ofList color, alpha := String.ofList alpha }
  else none

end CssColor
