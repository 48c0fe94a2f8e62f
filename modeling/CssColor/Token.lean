import CssColor.Recognition.Basic
import CssColor.Validation.Decode

/-!
# Tokens

A token is a recognized color together with the half-open span of its text in a document. Tokens
that clients send, and tokens that a scan builds, pass the same checks; moving a token checks
nothing. Clients may send any texts with a token, so that what they send is a token only up to lone
surrogates.
-/

namespace CssColor

/-- A color found in a document. -/
structure Token extends Recognition where
  /-- The offset of the first character. -/
  start : Int
  /-- The offset after the last character. -/
  stop : Int
  deriving DecidableEq, Repr

/-- The texts of a token that stay when its color changes. -/
structure Wording (τ : Type) where
  /-- The opacity. -/
  alpha : τ
  /-- The name of the called function, empty when none is recorded. -/
  function : τ
  /-- What separates the arguments of a call, empty when nothing is recorded. -/
  separator : τ
  deriving DecidableEq, Repr

namespace Token

/-- The texts of the token that stay when its color changes. -/
def wording (token : Token) : Wording String := ⟨token.alpha, token.function, token.separator⟩

/-- What stands between two offsets must not be empty. -/
def checkSpan {α : Type} (start stop : Int) (value : α) : Checked α :=
  if start < stop then .valid value else .fault .emptySpan

/-- The token of a recognition between two offsets, with all its fields checked. -/
def build (found : Recognition) (start stop : Int) : Checked Token :=
  let token (start stop : Int) (color : String) : Token := { found with color, start, stop }
  (token <$> (Decode.atLeast 0 start).below (.field "source_from")
    <*> (Decode.atLeast 0 stop).below (.field "source_to")
    <*> (Decode.colorText found.color).below (.field "color")).andThen
      fun token => checkSpan token.start token.stop token

/-- The token moved by a number of characters. -/
def shift (offset : Int) (token : Token) : Token :=
  { token with start := token.start + offset, stop := token.stop + offset }

@[simp] theorem shift_zero (token : Token) : token.shift 0 = token := by
  simp [shift]

@[simp] theorem shift_shift (token : Token) (first second : Int) :
    (token.shift first).shift second = token.shift (first + second) := by
  simp [shift, Int.add_assoc]

end Token

/-- A token as clients send it, with any texts. -/
structure RawToken extends Wording RawText where
  /-- How the color is written. -/
  kind : Notation
  /-- The color. -/
  color : String
  /-- The offset of the first character. -/
  start : Int
  /-- The offset after the last character. -/
  stop : Int
  deriving DecidableEq, Repr

namespace RawToken

/-- A way to write a color, by its name. Whatever names none has the given fault. -/
def decodeNotation (unknown : Fault) : Json → Checked Notation
  | .string text => (Decode.unicode text).andThen fun name =>
    match Notation.ofName? name with
    | some kind => .valid kind
    | none => .fault unknown
  | _ => .fault unknown

/-- The token that the fields of an object give. -/
def ofFields (fields : List (RawText × Json)) : Checked RawToken :=
  let token (start stop : Int) (kind : Notation) (color : String)
      (alpha function separator : RawText) : RawToken :=
    { start, stop, kind, color, alpha, function, separator }
  let position (value : Json) := (Decode.integer value).andThen (Decode.atLeast 0)
  (token <$> Decode.required fields "source_from" position
    <*> Decode.required fields "source_to" position
    <*> Decode.required fields "notation" (decodeNotation .unknownNotation)
    <*> Decode.required fields "color" Decode.color
    <*> Decode.optional fields "alpha" [] Decode.string
    <*> Decode.optional fields "function" [] Decode.string
    <*> Decode.optional fields "separator" [] Decode.string).andThen
      fun token => Token.checkSpan token.start token.stop token

/-- The token that a JSON value gives. -/
def ofJson (intake : Intake) : Json → Checked RawToken :=
  Decode.object (intake.objectFault "ColorToken") ofFields

/-- The token as a JSON value. -/
def toJson (token : RawToken) : Json :=
  .object [
    ("source_from", .integer token.start),
    ("source_to", .integer token.stop),
    ("notation", .string token.kind.name),
    ("color", .string token.color),
    ("alpha", .string token.alpha),
    ("function", .string token.function),
    ("separator", .string token.separator)]

end RawToken

namespace Token

/-- The token as a client may send it back. -/
def toRaw (token : Token) : RawToken where
  alpha := token.alpha
  function := token.function
  separator := token.separator
  kind := token.kind
  color := token.color
  start := token.start
  stop := token.stop

/-- A token that is sent back is written in the same way. -/
@[simp] theorem kind_toRaw (token : Token) : token.toRaw.kind = token.kind := rfl

/-- A token that is sent back starts where it did. -/
@[simp] theorem start_toRaw (token : Token) : token.toRaw.start = token.start := rfl

/-- A token that is sent back stops where it did. -/
@[simp] theorem stop_toRaw (token : Token) : token.toRaw.stop = token.stop := rfl

/-- The token as a JSON value. -/
def toJson (token : Token) : Json := token.toRaw.toJson

end Token

end CssColor
