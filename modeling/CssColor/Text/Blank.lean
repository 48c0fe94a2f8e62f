/-!
# Blanks

The characters that count as blank, and texts without the blanks at their ends.

* `isWhiteSpace` is the Unicode property `White_Space`.
* `isBlank` adds the four information separators.
* `isAsciiBlank` is the part of `isWhiteSpace` that style sheets use between words.
-/

namespace CssColor.Text

/-- Space and the controls from tabulation to carriage return. -/
def isAsciiBlank (c : Char) : Bool :=
  c == ' ' || (0x09 ≤ c.toNat && c.toNat ≤ 0x0D)

/-- The characters with the Unicode property `White_Space`. -/
def isWhiteSpace (c : Char) : Bool :=
  isAsciiBlank c || c.toNat == 0x85 || c.toNat == 0xA0 || c.toNat == 0x1680 ||
    (0x2000 ≤ c.toNat && c.toNat ≤ 0x200A) || c.toNat == 0x2028 || c.toNat == 0x2029 ||
    c.toNat == 0x202F || c.toNat == 0x205F || c.toNat == 0x3000

/-- White space and the information separators `U+001C` to `U+001F`. -/
def isBlank (c : Char) : Bool :=
  isWhiteSpace c || (0x1C ≤ c.toNat && c.toNat ≤ 0x1F)

/-- The text without the characters at its end that satisfy `p`. -/
def dropRight (p : Char → Bool) (text : List Char) : List Char :=
  (text.reverse.dropWhile p).reverse

/-- What is left of a text ends in no character that satisfies `p`. -/
theorem getLast?_dropRight {p : Char → Bool} {text : List Char} {c : Char}
    (h : (dropRight p text).getLast? = some c) : p c = false := by
  rw [dropRight, List.getLast?_reverse] at h
  have hc := List.head?_dropWhile_not p text.reverse
  rw [h] at hc
  simpa using hc

/-- The text without the characters at both ends that satisfy `p`. -/
def trim (p : Char → Bool) (text : List Char) : List Char :=
  dropRight p (text.dropWhile p)

/-- The text without the blanks at both ends. -/
def strip (text : String) : String := String.ofList (trim isBlank text.toList)

end CssColor.Text
