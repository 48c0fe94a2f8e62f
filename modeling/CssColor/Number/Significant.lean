import CssColor.Number.Binary64

/-!
# Text with significant digits

Writing a binary64 number with a fixed number of significant decimal digits. The exact value is
rounded to the nearest decimal of that length, ties to even, and trailing zeros are dropped.
Exponents from `-4` up to below the number of digits are written positionally, all others with
`e`, a sign and at least two digits.
-/

namespace CssColor.Significant

/-- The number of decimal digits of a natural number, none for zero. -/
def digitCount (n : Nat) : Nat := if n = 0 then 0 else (Nat.toDigits 10 n).length

/-- The power of ten of the leading digit of a positive quotient `n / d`. -/
def leadingPower (n d : Nat) : Int :=
  if d ≤ n then (digitCount (n / d) : Int) - 1 else -(digitCount ((d - 1) / n) : Int)

/-- The quotient `n / (d * 10 ^ power)` rounded to the nearest integer, ties to even. -/
def scaled (n d : Nat) (power : Int) : Nat :=
  if 0 ≤ power then nearestQuotient n (d * Nat.pow 10 power.toNat)
  else nearestQuotient (n * Nat.pow 10 (-power).toNat) d

/-- The first `count` digits of a positive quotient `n / d` as an integer, with the power of ten of
the leading digit. Rounding up to the next power of ten moves that power. -/
def digits (count n d : Nat) : Nat × Int :=
  let power := leadingPower n d
  let value := scaled n d (power - (count - 1))
  if value = Nat.pow 10 count then (Nat.pow 10 (count - 1), power + 1) else (value, power)

/-- The text without trailing zeros. -/
def dropZeros (text : List Char) : List Char := (text.reverse.dropWhile (· == '0')).reverse

/-- Digits before and after a point, which is left out when nothing follows it. -/
def pointed (whole fraction : List Char) : List Char :=
  match dropZeros fraction with
  | [] => whole
  | rest => whole ++ '.' :: rest

/-- The exponent mark with its sign and at least two digits. -/
def exponentText (power : Int) : List Char :=
  let magnitude := Nat.toDigits 10 power.natAbs
  ['e', if power < 0 then '-' else '+'] ++ List.replicate (2 - magnitude.length) '0' ++ magnitude

/-- The text of a positive quotient `n / d` with `count` significant digits. -/
def ratioText (count n d : Nat) : List Char :=
  let (value, power) := digits count n d
  let text := Nat.toDigits 10 value
  if power < -4 ∨ (count : Int) ≤ power then
    pointed (text.take 1) (text.drop 1) ++ exponentText power
  else if power < 0 then
    pointed ['0'] (List.replicate (-power - 1).toNat '0' ++ text)
  else
    pointed (text.take (power.toNat + 1)) (text.drop (power.toNat + 1))

/-- The text of a binary64 number with `count` significant digits. -/
def write (count : Nat) : Binary64 → String
  | .nan => "nan"
  | .infinite negative => if negative then "-inf" else "inf"
  | .finite negative rank =>
    let magnitude :=
      if rank.val = 0 then ['0']
      else ratioText count (Binary64.grainsOfRank rank) Binary64.grainsPerOne
    String.ofList (if negative then '-' :: magnitude else magnitude)

end CssColor.Significant
