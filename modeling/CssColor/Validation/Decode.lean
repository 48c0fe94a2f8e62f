import CssColor.Json
import CssColor.Number.Integer
import CssColor.Text.Digit
import CssColor.Validation.Checked

/-!
# Decoding JSON values

Checks that turn JSON values into texts, integers and colors, and the reading of object fields.
-/

namespace CssColor

open Text

/-- The integer that a binary64 number is, if it is one. -/
def Binary64.toInt? : Binary64 → Option Int
  | .finite negative rank =>
    let grains := signedGrains negative rank
    if grains % grainsPerOne = 0 then some (grains / grainsPerOne) else none
  | _ => none

/-- Where a value comes from, which decides how a value that is no object is reported. -/
inductive Intake where
  /-- Handed over by a caller. -/
  | direct
  /-- Part of the body of a request. -/
  | request
  deriving DecidableEq, Repr

/-- The fault of a value that should be an object of the given type. -/
def Intake.objectFault (intake : Intake) (type : String) : Fault :=
  match intake with
  | direct => .notModel type
  | request => .notObject

namespace Decode

/-- A text. -/
def string : Json → Checked RawText
  | .string text => .valid text
  | _ => .fault .notString

/-- A text without lone surrogates. -/
def unicode (text : RawText) : Checked String :=
  match text.toString? with
  | some text => .valid text
  | none => .fault .notUnicode

/-- The most characters that an integer sent as text may need, its sign included. -/
def integerTextLimit : Nat := 4300

/-- An integer from a text. -/
def integerText (text : String) : Checked Int :=
  match Integer.read? text.toList with
  | some n =>
    if (toString n).length ≤ integerTextLimit then .valid n else .fault .oversizedInteger
  | none => .fault .unreadableInteger

/-- An integer from a binary64 number, which must be finite and lie strictly between `-2 ^ 63` and
`2 ^ 63`. -/
def integerReal (x : Binary64) : Checked Int :=
  if x.isFinite then
    match x.toInt? with
    | some n => if n.natAbs < Nat.pow 2 63 then .valid n else .fault .unreadableInteger
    | none => .fault .fractional
  else .fault .notFinite

/-- An integer. Truth values count as zero and one, and a number with a point or a text is taken
when it is an integer. -/
def integer : Json → Checked Int
  | .bool value => .valid (if value then 1 else 0)
  | .integer n => .valid n
  | .real x => integerReal x
  | .string text => (unicode text).andThen integerText
  | _ => .fault .notInteger

/-- An integer that is at least the given bound. -/
def atLeast (bound n : Int) : Checked Int :=
  if bound ≤ n then .valid n else .fault (.tooSmall bound)

/-- An integer that is at most the given bound. -/
def atMost (bound n : Int) : Checked Int :=
  if n ≤ bound then .valid n else .fault (.tooLarge bound)

/-- An offset, which is a natural number. -/
def offset (value : Json) : Checked Nat :=
  Int.toNat <$> (integer value).andThen (atLeast 0)

/-- Whether a text is a number sign and six hexadecimal digits in either case. -/
def isColor : List Char → Bool
  | '#' :: digits => digits.length == 6 && digits.all isHexDigit
  | _ => false

/-- A text that is a number sign and six hexadecimal digits. -/
def colorText (text : String) : Checked String :=
  if isColor text.toList then .valid text else .fault .notColor

/-- A color of six hexadecimal digits. -/
def color (value : Json) : Checked String := ((string value).andThen unicode).andThen colorText

variable {α : Type}

/-- A field that must be present. -/
def required (fields : List (RawText × Json)) (name : String) (check : Json → Checked α) :
    Checked α :=
  (match Json.field? fields name with
    | some value => check value
    | none => .fault .missing).below (.field name)

/-- A field that has a default when it is absent. -/
def optional (fields : List (RawText × Json)) (name : String) (default : α)
    (check : Json → Checked α) : Checked α :=
  (match Json.field? fields name with
    | some value => check value
    | none => .valid default).below (.field name)

/-- The items of a list, each checked and reported under its index, counted from `index`. -/
def itemsFrom (check : Json → Checked α) (index : Nat) : List Json → Checked (List α)
  | [] => .valid []
  | item :: rest =>
    List.cons <$> (check item).below (.item index) <*> itemsFrom check (index + 1) rest

/-- A list of checked items. -/
def list (check : Json → Checked α) : Json → Checked (List α)
  | .array items => itemsFrom check 0 items
  | _ => .fault .notList

/-- What the fields of an object give; a value that is no object has the given fault. -/
def object (fault : Fault) (check : List (RawText × Json) → Checked α) : Json → Checked α
  | .object fields => check fields
  | _ => .fault fault

end Decode

end CssColor
