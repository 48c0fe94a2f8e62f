import CssColor.Hsl
import CssColor.Recognition.HexLiteral

/-!
# Color calls

Calls such as `rgb(10, 20%, 30 / 0.5)` and `hsl(120deg 50% 25%)`. Three arguments are separated by
commas or by blanks, and an opacity may follow after a comma or a slash. Blanks are ASCII blanks,
letters are compared without regard to case, and one newline may follow the call.

A reader takes the characters that are left and gives what it read and what is left after it.
-/

namespace CssColor

open Text

/-- A reader of a part of a text: what it read, and what is left. -/
abbrev Reader (α : Type) := List Char → Option (α × List Char)

/-- The parts of a color call, each as written. -/
structure Call where
  /-- The name of the function. -/
  function : List Char
  /-- The first argument. -/
  first : List Char
  /-- What stands between the first and the second argument. -/
  separator : List Char
  /-- The second argument. -/
  second : List Char
  /-- The third argument. -/
  third : List Char
  /-- The opacity with what stands before it, empty when there is none. -/
  alpha : List Char
  deriving DecidableEq, Repr

namespace Call

/-- Reads a word in either case. -/
def word (expected : List Char) : Reader (List Char) := fun text =>
  let found := text.take expected.length
  if found.map Char.toLower = expected then some (found, text.drop expected.length) else none

/-- What a reader reads if it can, else nothing, and what is left. -/
def optional (reader : Reader (List Char)) (text : List Char) : List Char × List Char :=
  (reader text).getD ([], text)

/-- Reads one to three digits. -/
def shortNumber : Reader (List Char) := fun text =>
  let digits := text.takeWhile Char.isDigit
  if digits = [] ∨ 3 < digits.length then none else some (digits, text.dropWhile Char.isDigit)

/-- Reads one to three digits and an optional percent sign, which is kept. -/
def component : Reader (List Char) := fun text => do
  let (digits, rest) ← shortNumber text
  let (sign, rest) := optional (word ['%']) rest
  return (digits ++ sign, rest)

/-- Reads one to three digits and an optional unit, which is dropped. -/
def degrees : Reader (List Char) := fun text => do
  let (digits, rest) ← shortNumber text
  let (_, rest) := optional (word ['d', 'e', 'g']) rest
  return (digits, rest)

/-- Reads one to three digits and a percent sign, which is dropped. -/
def percentage : Reader (List Char) := fun text => do
  let (digits, rest) ← shortNumber text
  let (_, rest) ← word ['%'] rest
  return (digits, rest)

/-- Reads the blanks that come next. -/
def blanks (text : List Char) : List Char × List Char :=
  (text.takeWhile isAsciiBlank, text.dropWhile isAsciiBlank)

/-- Reads one of the given marks with the blanks around it. -/
def mark (isMark : Char → Bool) : Reader (List Char) := fun text =>
  let (leading, rest) := blanks text
  match rest with
  | c :: rest =>
    if isMark c then
      let (trailing, rest) := blanks rest
      some (leading ++ c :: trailing, rest)
    else none
  | [] => none

/-- Reads what separates two arguments: a comma with blanks around it, or at least one blank. -/
def argumentSeparator : Reader (List Char) := fun text =>
  match mark (· == ',') text with
  | some found => some found
  | none =>
    let (found, rest) := blanks text
    if found = [] then none else some (found, rest)

/-- Reads digits with a fraction, or digits alone. -/
def fraction : Reader (List Char) := fun text =>
  let whole := text.takeWhile Char.isDigit
  match text.dropWhile Char.isDigit with
  | '.' :: rest =>
    let decimals := rest.takeWhile Char.isDigit
    if decimals = [] then none
    else some (whole ++ '.' :: decimals, rest.dropWhile Char.isDigit)
  | rest => if whole = [] then none else some (whole, rest)

/-- Reads an opacity: a comma or a slash with blanks around it, a number, and an optional percent
sign. -/
def opacity : Reader (List Char) := fun text => do
  let (leading, rest) ← mark (fun c => c == ',' || c == '/') text
  let (value, rest) ← fraction rest
  let (sign, rest) := optional (word ['%']) rest
  return (leading ++ value ++ sign, rest)

/-- Reads the name of a color function, with or without its final `a`. -/
def functionName (name : List Char) : Reader (List Char) := fun text => do
  let (base, rest) ← word name text
  let (final, rest) := optional (word ['a']) rest
  return (base ++ final, rest)

/-- Whether the text closes a call: blanks, a parenthesis and at most one newline. -/
def closes (text : List Char) : Bool :=
  match (blanks text).2 with
  | [')'] => true
  | [')', '\n'] => true
  | _ => false

/-- The parts of a text that is a call of the named function, with the given readers for the first
argument and for the other two. -/
def read? (name : List Char) (first other : Reader (List Char)) (text : List Char) :
    Option Call := do
  let (function, rest) ← functionName name text
  let (_, rest) ← word ['('] rest
  let (first, rest) ← first (blanks rest).2
  let (separator, rest) ← argumentSeparator rest
  let (second, rest) ← other rest
  let (_, rest) ← argumentSeparator rest
  let (third, rest) ← other rest
  let (alpha, rest) := optional opacity rest
  if closes rest then some { function, first, separator, second, third, alpha } else none

/-- The parts of a call of `rgb` or `rgba`. -/
def readRgb? (text : List Char) : Option Call := read? ['r', 'g', 'b'] component component text

/-- The parts of a call of `hsl` or `hsla`; the arguments are kept without their units. -/
def readHsl? (text : List Char) : Option Call := read? ['h', 's', 'l'] degrees percentage text

/-- How the arguments of the call are separated: by a comma and a space when a comma separates the
first two, else by a space. -/
def separatorStyle (call : Call) : String := if call.separator.contains ',' then ", " else " "

/-- The recognition of the call as a color. -/
def toRecognition (call : Call) (kind : Notation) (color : String) : Recognition :=
  { kind, color
    alpha := String.ofList call.alpha
    function := String.ofList call.function
    separator := call.separatorStyle }

/-- The color of a call of `rgb` or `rgba`. -/
def rgbColor (call : Call) : Except NumericError String :=
  Rgb.ofComponents ⟨call.first, call.second, call.third⟩

/-- The color of a call of `hsl` or `hsla`. -/
def hslColor (call : Call) : Except NumericError String := do
  let hue ← Decimal.read call.first
  let saturation ← Decimal.read call.second
  let lightness ← Decimal.read call.third
  Hsl.toHex (.float hue) (.float saturation) (.float lightness)

end Call

/-- The color of a text that is a call of `rgb` or `rgba`. -/
def Recognition.ofRgbCall? (text : String) : Except NumericError (Option Recognition) :=
  match Call.readRgb? text.toList with
  | some call => do return some (call.toRecognition .rgb (← call.rgbColor))
  | none => return none

/-- The color of a text that is a call of `hsl` or `hsla`. -/
def Recognition.ofHslCall? (text : String) : Except NumericError (Option Recognition) :=
  match Call.readHsl? text.toList with
  | some call => do return some (call.toRecognition .hsl (← call.hslColor))
  | none => return none

end CssColor
