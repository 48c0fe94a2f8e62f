import CssColor.Number.Numeral

/-!
# Hexadecimal numerals

Reading an integer in base sixteen: an optional sign, an optional `0x` that one underscore may
follow, and one or more digits.
-/

namespace CssColor.Hexadecimal

open Text

/-- The digits of a numeral after its optional base mark. -/
def dropBase : List Char → List Char
  | '0' :: mark :: rest =>
    if mark = 'x' ∨ mark = 'X' then
      match rest with
      | '_' :: digits => digits
      | digits => digits
    else '0' :: mark :: rest
  | digits => digits

/-- The integer that a hexadecimal numeral writes. -/
def read (text : List Char) : Except NumericError Int :=
  let (negative, body) := Numeral.splitSign (Numeral.normalize text)
  match Numeral.ungroup? isHexDigit (dropBase body) with
  | none => throw .malformedNumeral
  | some digits =>
    if digits ≠ [] ∧ digits.all isHexDigit then
      return Numeral.signed negative (Numeral.ofDigitText 16 digits)
    else throw .malformedNumeral

end CssColor.Hexadecimal
