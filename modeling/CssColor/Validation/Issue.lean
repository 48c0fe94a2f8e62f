/-!
# Issues

What can be wrong with a value that a client sends, and where.
-/

namespace CssColor

/-- One step from a value to a part of it. -/
inductive PathStep where
  /-- To the field of the given name. -/
  | field (name : String)
  /-- To the list item of the given index. -/
  | item (index : Nat)
  deriving DecidableEq, Repr

/-- What is wrong with a value. -/
inductive Fault where
  /-- A required field is absent. -/
  | missing
  /-- The value is no text. -/
  | notString
  /-- The text holds a lone surrogate. -/
  | notUnicode
  /-- The text is no color of six hexadecimal digits. -/
  | notColor
  /-- The value is of a kind that cannot be an integer. -/
  | notInteger
  /-- The text writes no integer. -/
  | unreadableInteger
  /-- The text writes an integer with too many digits. -/
  | oversizedInteger
  /-- The number has a fraction. -/
  | fractional
  /-- The number is an infinity or NaN. -/
  | notFinite
  /-- The integer is smaller than the given bound. -/
  | tooSmall (bound : Int)
  /-- The integer is larger than the given bound. -/
  | tooLarge (bound : Int)
  /-- The value names no way to write a color. -/
  | unknownNotation
  /-- The value names no target of a conversion. -/
  | unknownTarget
  /-- The value is no list. -/
  | notList
  /-- The value is no object of the given type. -/
  | notModel (type : String)
  /-- The value is no object that fields can be taken from. -/
  | notObject
  /-- A token does not start before it ends. -/
  | emptySpan
  /-- A range ends before it starts. -/
  | reversedRange
  deriving DecidableEq, Repr

namespace Fault

/-- The names of the ways to write a color, as messages list them. -/
def notationChoice : String := "Input should be 'hex', 'rgb', 'hsl' or 'named'"

/-- The stable name of a fault. -/
def code : Fault → String
  | missing => "missing"
  | notString => "string_type"
  | notUnicode => "string_unicode"
  | notColor => "string_pattern_mismatch"
  | notInteger => "int_type"
  | unreadableInteger => "int_parsing"
  | oversizedInteger => "int_parsing_size"
  | fractional => "int_from_float"
  | notFinite => "finite_number"
  | tooSmall _ => "greater_than_equal"
  | tooLarge _ => "less_than_equal"
  | unknownNotation => "enum"
  | unknownTarget => "literal_error"
  | notList => "list_type"
  | notModel _ => "model_type"
  | notObject => "model_attributes_type"
  | emptySpan => "value_error"
  | reversedRange => "value_error"

/-- The text that tells a client about a fault. -/
def message : Fault → String
  | missing => "Field required"
  | notString => "Input should be a valid string"
  | notUnicode =>
    "Input should be a valid string, unable to parse raw data as a unicode string"
  | notColor => "String should match pattern '^#[0-9a-fA-F]\x7b6\x7d$'"
  | notInteger => "Input should be a valid integer"
  | unreadableInteger =>
    "Input should be a valid integer, unable to parse string as an integer"
  | oversizedInteger =>
    "Unable to parse input string as an integer, exceeded maximum size"
  | fractional => "Input should be a valid integer, got a number with a fractional part"
  | notFinite => "Input should be a finite number"
  | tooSmall bound => "Input should be greater than or equal to " ++ toString bound
  | tooLarge bound => "Input should be less than or equal to " ++ toString bound
  | unknownNotation => notationChoice
  | unknownTarget => notationChoice
  | notList => "Input should be a valid list"
  | notModel type => "Input should be a valid dictionary or instance of " ++ type
  | notObject => "Input should be a valid dictionary or object to extract fields from"
  | emptySpan => "Value error, source_from must be smaller than source_to"
  | reversedRange => "Value error, end must not precede start"

end Fault

/-- A fault and the path to the value that has it. -/
structure Issue where
  /-- The steps from the whole value to the faulty part. -/
  path : List PathStep
  /-- What is wrong there. -/
  fault : Fault
  deriving DecidableEq, Repr

end CssColor
