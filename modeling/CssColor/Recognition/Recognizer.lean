import CssColor.Keyword.Basic
import CssColor.Recognition.Call
import CssColor.Text.Blank

/-!
# Recognizers

The four recognizers, one for each way to write a color, and the recognition of a bare text by the
first of them that accepts it.
-/

namespace CssColor

/-- The color of a keyword. -/
def Recognition.ofKeyword? (text : String) : Option Recognition :=
  (Keyword.color? text).map fun color => { kind := .named, color }

/-- A recognizer of one way to write a color. -/
inductive Recognizer where
  /-- Accepts hex literals. -/
  | hexLiteral
  /-- Accepts keywords in lower case. -/
  | keyword
  /-- Accepts calls of `rgb` and `rgba`. -/
  | rgbCall
  /-- Accepts calls of `hsl` and `hsla`. -/
  | hslCall
  deriving DecidableEq, Repr

namespace Recognizer

/-- The recognizers in the order in which they are tried on a bare text. -/
def all : List Recognizer := [hexLiteral, keyword, rgbCall, hslCall]

/-- What the recognizer makes of a text. -/
def run (text : String) : Recognizer → Except NumericError (Option Recognition)
  | hexLiteral => return Recognition.ofHexLiteral? text
  | keyword => return Recognition.ofKeyword? text
  | rgbCall => Recognition.ofRgbCall? text
  | hslCall => Recognition.ofHslCall? text

/-- What the first recognizer that accepts a text makes of it. -/
def firstMatch (text : String) : List Recognizer → Except NumericError (Option Recognition)
  | [] => return none
  | recognizer :: rest => do
    match ← recognizer.run text with
    | some found => return some found
    | none => firstMatch text rest

end Recognizer

/-- The color that a bare text writes. Blanks around it are ignored, and keywords may be written in
either case. -/
def recognize (text : String) : Except NumericError (Option Recognition) := do
  let bare := Text.strip text
  match ← Recognizer.firstMatch bare Recognizer.all with
  | some found => return some found
  | none => return Recognition.ofKeyword? (Text.lower bare)

end CssColor
