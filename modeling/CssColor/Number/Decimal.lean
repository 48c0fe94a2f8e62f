import CssColor.Number.Numeral
import CssColor.Number.Binary64

/-!
# Decimal numerals

Reading a decimal numeral as the nearest binary64 number.

A numeral has an optional sign and then either the word `inf`, `infinity` or `nan` in any case, or
digits with at most one point among them and an optional exponent of ten. Numerals too large for
binary64 are infinite.
-/

namespace CssColor.Decimal

/-- The parts of a decimal numeral without its sign. -/
structure Parts where
  /-- The digits before the point. -/
  whole : List Char
  /-- The digits after the point. -/
  fraction : List Char
  /-- The power of ten. -/
  exponent : Int
  deriving DecidableEq, Repr

/-- The exponent at the end of a numeral: nothing, or the letter `e`, an optional sign and one or
more digits. -/
def exponent? : List Char → Option Int
  | [] => some 0
  | mark :: rest =>
    if mark = 'e' ∨ mark = 'E' then
      let (negative, digits) := Numeral.splitSign rest
      if digits ≠ [] ∧ digits.all Char.isDigit then
        some (Numeral.signed negative (Numeral.ofDigitText 10 digits))
      else none
    else none

/-- The parts of a numeral that is written with digits: at least one, on either side of an optional
point. -/
def parts? (text : List Char) : Option Parts :=
  let whole := text.takeWhile Char.isDigit
  let (fraction, rest) := match text.dropWhile Char.isDigit with
    | '.' :: rest => (rest.takeWhile Char.isDigit, rest.dropWhile Char.isDigit)
    | rest => ([], rest)
  if whole = [] ∧ fraction = [] then none
  else (exponent? rest).map fun exponent => { whole, fraction, exponent }

/-- The number nearest to `n * 10 ^ exponent` under the given sign. The number of digits decides
overflow and underflow before any large power is formed: everything from `10 ^ 309` is infinite, and
everything below `10 ^ -324` is zero. -/
def nearest (negative : Bool) (n : Nat) (exponent : Int) : Binary64 :=
  let scale := (Nat.toDigits 10 n).length + exponent
  if n = 0 ∨ scale < -324 then Binary64.zero negative
  else if 310 < scale then .infinite negative
  else if 0 ≤ exponent then Binary64.ofRatio negative (n * Nat.pow 10 exponent.toNat) 1
  else Binary64.ofRatio negative n (Nat.pow 10 (-exponent).toNat)

/-- The number nearest to the value of the parts under the given sign. -/
def Parts.nearest (parts : Parts) (negative : Bool) : Binary64 :=
  Decimal.nearest negative (Numeral.ofDigitText 10 (parts.whole ++ parts.fraction))
    (parts.exponent - parts.fraction.length)

/-- The number that a decimal numeral writes. -/
def read (text : List Char) : Except NumericError Binary64 :=
  match Numeral.ungroup? Char.isDigit (Numeral.normalize text) with
  | none => throw .malformedNumeral
  | some plain =>
    let (negative, body) := Numeral.splitSign plain
    let word := String.ofList (body.map Char.toLower)
    if word = "nan" then return .nan
    else if word = "inf" ∨ word = "infinity" then return .infinite negative
    else match parts? body with
      | some parts => return parts.nearest negative
      | none => throw .malformedNumeral

end CssColor.Decimal
