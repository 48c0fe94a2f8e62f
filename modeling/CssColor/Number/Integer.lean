import CssColor.Number.Numeral

/-!
# Integer texts

Reading an integer that a client sends as text: white space around it, an optional sign, ASCII
digits that single underscores may group, and an optional fraction of zeros.

Leading zeros are dropped first, together with all underscores that follow them. A minus may stand
behind the dropped zeros in place of a sign in front of them, so `0-8` is minus eight.
-/

namespace CssColor.Integer

open Text

/-- Whether a character is dropped at the front of a number that starts with a zero. -/
def isPadding (c : Char) : Bool := c == '0' || c == '_'

/-- A text that starts with a zero without its padding. The last character of the padding stays when
nothing, or only a fraction, follows it. -/
def dropPadding (text : List Char) : List Char :=
  match text.dropWhile isPadding with
  | [] => (text.takeWhile isPadding).getLast?.toList
  | '.' :: fraction => (text.takeWhile isPadding).getLast?.toList ++ '.' :: fraction
  | rest => rest

/-- The text before a fraction of one or more zeros; a text without a point as it is. -/
def dropZeroFraction? (text : List Char) : Option (List Char) :=
  let whole := text.takeWhile (· != '.')
  match text.dropWhile (· != '.') with
  | [] => some whole
  | _ :: zeros => if zeros ≠ [] ∧ zeros.all (· == '0') then some whole else none

/-- The natural number that digits with an optional fraction of zeros write. -/
def magnitude? (text : List Char) : Option Nat := do
  let digits ← Numeral.ungroup? Char.isDigit (← dropZeroFraction? text)
  if digits ≠ [] ∧ digits.all Char.isDigit then some (Numeral.ofDigitText 10 digits) else none

/-- The integer that a text writes under a sign that stands in front of it. -/
def unsigned? (negative : Bool) (text : List Char) : Option Int :=
  if text.head? = some '0' then
    match dropPadding text with
    | '-' :: rest =>
      if negative then none else (magnitude? rest).map (Numeral.signed true)
    | rest => (magnitude? rest).map (Numeral.signed negative)
  else (magnitude? text).map (Numeral.signed negative)

/-- The integer that a text writes. -/
def read? (text : List Char) : Option Int :=
  let (negative, body) := Numeral.splitSign (trim isWhiteSpace text)
  unsigned? negative body

end CssColor.Integer
