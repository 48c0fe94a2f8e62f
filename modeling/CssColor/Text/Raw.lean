/-!
# Raw texts

A text as clients may send it: a list of code points. Most code points are characters. The others
are *surrogates*, the halves of the pairs by which some encodings write characters. The escapes of
JSON can write one half without the other, but no encoding of Unicode can, so a raw text with such a
lone surrogate can be received and worked on, and not be sent.

A lone surrogate means nothing to the readers of colors. Where a text is only read, it is shown with
the replacement character in the place of each lone surrogate.
-/

namespace CssColor

/-- A code point. -/
inductive CodePoint where
  /-- A character. -/
  | char (value : Char)
  /-- A lone surrogate, by its distance from the first one, which is `U+D800`. -/
  | surrogate (index : Fin 2048)
  deriving DecidableEq, Repr

namespace CodePoint

/-- Whether the code point is a character. -/
def isChar : CodePoint → Bool
  | char _ => true
  | surrogate _ => false

/-- The character that shows a code point. -/
def shown : CodePoint → Char
  | char c => c
  | surrogate _ => '\uFFFD'

/-- A character is shown as itself. -/
@[simp] theorem shown_char (c : Char) : (char c).shown = c := rfl

@[simp] theorem isChar_char (c : Char) : (char c).isChar = true := rfl

end CodePoint

/-- A text that may hold lone surrogates. -/
abbrev RawText := List CodePoint

namespace RawText

/-- A text without lone surrogates as a raw text. -/
@[coe] def ofString (text : String) : RawText := text.toList.map .char

/-- Every text is a raw text. -/
instance : Coe String RawText := ⟨ofString⟩

/-- Whether no lone surrogate is in the text. -/
def isUnicode (text : RawText) : Bool := text.all CodePoint.isChar

/-- The text with the replacement character for every lone surrogate. -/
def shown (text : RawText) : String := String.ofList (text.map CodePoint.shown)

/-- The text without lone surrogates that a raw text is, if it is one. -/
def toString? (text : RawText) : Option String :=
  if text.isUnicode then some text.shown else none

/-- Showing a text keeps its length. -/
@[simp] theorem length_shown (text : RawText) : text.shown.length = text.length := by
  simp [shown]

/-- Texts without lone surrogates are kept apart. -/
@[simp] theorem ofString_inj {text other : String} :
    ofString text = ofString other ↔ text = other := by
  constructor
  · intro h
    have hshown := congrArg shown h
    simpa [ofString, shown, Function.comp_def] using hshown
  · rintro rfl
    rfl

/-- Texts without lone surrogates are compared as such. -/
@[simp] theorem ofString_beq (text other : String) :
    (ofString text == ofString other) = (text == other) := by
  rw [Bool.eq_iff_iff, beq_iff_eq, beq_iff_eq, ofString_inj]

/-- No text without lone surrogates holds one. -/
@[simp] theorem isUnicode_ofString (text : String) : (ofString text).isUnicode = true := by
  simp [isUnicode, ofString]

/-- A text without lone surrogates is shown as it is. -/
@[simp] theorem shown_ofString (text : String) : (ofString text).shown = text := by
  simp [shown, ofString, Function.comp_def]

/-- A text without lone surrogates is read back from the raw text that it is. -/
@[simp] theorem toString?_ofString (text : String) : (ofString text).toString? = some text := by
  simp [toString?]

/-- A raw text without lone surrogates is the text that it shows. -/
theorem ofString_shown {text : RawText} (h : text.isUnicode = true) :
    ofString text.shown = text := by
  induction text with
  | nil => rfl
  | cons point rest ih =>
    rw [isUnicode, List.all_cons, Bool.and_eq_true] at h
    have hrest : (rest.map CodePoint.shown).map CodePoint.char = rest := by
      simpa [ofString, shown] using ih h.2
    cases point with
    | char c => simp [ofString, shown, hrest]
    | surrogate index => exact absurd h.1 Bool.false_ne_true

/-- A raw text is a text exactly when it is that text taken as a raw text. -/
theorem toString?_eq_some_iff {text : RawText} {plain : String} :
    text.toString? = some plain ↔ text = plain := by
  constructor
  · intro h
    rw [toString?] at h
    split at h
    · obtain rfl := Option.some.inj h
      exact (ofString_shown ‹_›).symm
    · simp at h
  · rintro rfl
    exact toString?_ofString plain

/-- Two texts are joined before or after they are taken as raw texts. -/
theorem ofString_append (text other : String) :
    ofString (text ++ other) = ofString text ++ ofString other := by
  simp [ofString]

/-- A joined text holds a lone surrogate when one of its parts does. -/
@[simp] theorem isUnicode_append (text other : RawText) :
    isUnicode (text ++ other) = (text.isUnicode && other.isUnicode) := by
  simp [isUnicode]

end RawText

end CssColor
