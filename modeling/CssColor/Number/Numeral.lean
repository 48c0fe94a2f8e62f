import CssColor.Number.Basic
import CssColor.Text.Blank
import CssColor.Text.Digit

/-!
# Numerals

The parts that all numerals share: surrounding white space, digits of any script, an optional sign,
and single underscores that group digits.
-/

namespace CssColor.Numeral

open Text

/-- The text with every decimal digit replaced by the ASCII digit of the same value. -/
def asciiDigits (text : List Char) : List Char :=
  text.map fun c => match decimalDigit? c with
    | some value => hexDigit value
    | none => c

/-- The text of a numeral without surrounding white space and with ASCII digits. -/
def normalize (text : List Char) : List Char := asciiDigits (trim isWhiteSpace text)

/-- The text without its underscores, which must each stand between two digits. -/
def ungroup? (isDigit : Char → Bool) : List Char → Option (List Char)
  | [] => some []
  | '_' :: _ => none
  | c :: '_' :: d :: rest =>
    if isDigit c && isDigit d then (ungroup? isDigit (d :: rest)).map (c :: ·) else none
  | c :: rest => (ungroup? isDigit rest).map (c :: ·)

/-- The sign in front of a numeral, `true` for a minus, and the text after it. -/
def splitSign : List Char → Bool × List Char
  | '-' :: rest => (true, rest)
  | '+' :: rest => (false, rest)
  | text => (false, text)

/-- The natural number under a sign. -/
def signed (negative : Bool) (n : Nat) : Int := if negative then -(n : Int) else n

/-- The number that a text of hexadecimal digits writes in the given base; other characters count
as zero. -/
def ofDigitText (base : Nat) (text : List Char) : Nat :=
  ofDigits base (text.map fun c => (hexDigit? c).getD 0)

end CssColor.Numeral
