import CssColor.Number.Binary64
import CssColor.Text.Raw

/-!
# JSON values

The values that clients send and receive. Numbers without a point or an exponent are exact integers,
all others are binary64 numbers.

What was received need not be fit to be sent. A text may hold a lone surrogate, and a number may be
too large for a finite binary64 number.
-/

namespace CssColor

/-- A JSON value. -/
inductive Json where
  /-- The value `null`. -/
  | null
  /-- A truth value. -/
  | bool (value : Bool)
  /-- A number written as an integer. -/
  | integer (value : Int)
  /-- A number written with a point or an exponent. -/
  | real (value : Binary64)
  /-- A text. -/
  | string (value : RawText)
  /-- A list of values. -/
  | array (items : List Json)
  /-- Named values. -/
  | object (fields : List (RawText × Json))
  deriving Inhabited, Repr

namespace Json

/-- The value of the field of the given name. -/
def field? (fields : List (RawText × Json)) (name : String) : Option Json :=
  fields.lookup (name : RawText)

mutual

/-- Whether the value can be sent: all its texts are free of lone surrogates, the names of fields
included, and all its numbers are finite. -/
def isSendable : Json → Bool
  | null => true
  | bool _ => true
  | integer _ => true
  | real value => value.isFinite
  | string text => text.isUnicode
  | array items => itemsSendable items
  | object fields => fieldsSendable fields

/-- Whether all items of a list can be sent. -/
def itemsSendable : List Json → Bool
  | [] => true
  | item :: rest => item.isSendable && itemsSendable rest

/-- Whether all fields of an object can be sent. -/
def fieldsSendable : List (RawText × Json) → Bool
  | [] => true
  | (name, value) :: rest => name.isUnicode && value.isSendable && fieldsSendable rest

end

end Json

end CssColor
