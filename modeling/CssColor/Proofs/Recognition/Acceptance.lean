import CssColor.Proofs.Recognition.Disjointness

/-!
# Accepted texts

What the texts that colors are written as are recognized as: hex literals of bytes, keywords, and
calls with any layout. Whatever one recognizer makes of such a text, no other one makes anything of
it.

## Main results

* `recognize_literal`: the literal of three bytes, with or without the digits of an opacity.
* `recognize_keyword`: a keyword.
* `Call.recognize_rgbCall`, `Call.recognize_hslCall`: the text of a layout.
-/

namespace CssColor

open Text

/-! ## Hex literals -/

/-- A number sign and lower-case digits. -/
theorem ofHexLiteral?_digits {digits : List Char} (hlength : digits.length = 6 ∨ digits.length = 8)
    (hdigits : ∀ c ∈ digits, isHexDigit c = true ∧ c.toLower = c) :
    Recognition.ofHexLiteral? (String.ofList ('#' :: digits)) =
      some { kind := .hex, color := String.ofList ('#' :: digits.take 6),
             alpha := String.ofList (digits.drop 6) } := by
  have hnewline := getLast?_ne_newline
    (getLast?_literal_not_blank fun c hc => (hdigits c hc).1)
  have hliteral : HexLiteral.isLiteral ('#' :: digits) = true := by
    have hall : digits.all isHexDigit = true := List.all_eq_true.mpr fun c hc => (hdigits c hc).1
    rcases hlength with h | h <;> simp [HexLiteral.isLiteral, hall, h]
  have hascii : IsAscii ('#' :: digits) :=
    isAscii_cons.mpr ⟨by decide, fun c hc => toNat_lt_of_isHexDigit (hdigits c hc).1⟩
  have hlower : lowerChars ('#' :: digits) = '#' :: digits := by
    rw [lowerChars_of_isAscii hascii, List.map_cons,
      map_toLower_eq_self fun c hc => (hdigits c hc).2]
    rfl
  have hexpand : HexLiteral.expand ('#' :: digits) = ('#' :: digits.take 6, digits.drop 6) := by
    rcases hlength with h | h
    · -- six digits leave nothing for the opacity
      have htake : digits.take 6 = digits := List.take_of_length_le h.le
      have hdrop : digits.drop 6 = [] := List.drop_of_length_le h.le
      simp [HexLiteral.expand, hlower, h, htake, hdrop]
    · simp [HexLiteral.expand, hlower, h]
  rw [Recognition.ofHexLiteral?, String.toList_ofList, dropFinalNewline, if_neg hnewline,
    if_pos hliteral, hexpand]

/-- The digits of a literal and of an opacity behind it. -/
theorem exists_digits_of_literal (levels : Rgb (Fin 256)) {alpha : String}
    (halpha : IsAlphaDigits alpha) :
    ∃ digits, levels.literal ++ alpha = String.ofList ('#' :: digits) ∧
      (digits.length = 6 ∨ digits.length = 8) ∧
      (∀ c ∈ digits, isHexDigit c = true ∧ c.toLower = c) ∧
      String.ofList ('#' :: digits.take 6) = levels.literal ∧
      String.ofList (digits.drop 6) = alpha := by
  have htail : levels.literal.toList = '#' :: levels.literal.toList.tail := by
    rw [Rgb.toList_literal]
    rfl
  have hlength : levels.literal.toList.tail.length = 6 := by
    rw [Rgb.toList_literal]
    rfl
  -- no opacity and the opacity of a byte are both texts of digits, of different lengths
  obtain ⟨pair, rfl, hpair, hpairDigits⟩ : ∃ pair : List Char, alpha = String.ofList pair ∧
      (pair.length = 0 ∨ pair.length = 2) ∧ ∀ c ∈ pair, isHexDigit c = true ∧ c.toLower = c := by
    rcases halpha with rfl | ⟨level, rfl⟩
    · exact ⟨[], rfl, .inl rfl, by simp⟩
    · exact ⟨_, rfl, .inr rfl, fun c hc => Channel.isHexDigit_of_mem_hexPair level hc⟩
  refine ⟨levels.literal.toList.tail ++ pair, ?_, ?_, ?_, ?_, ?_⟩
  · rw [← List.cons_append, ← htail, String.ofList_append, String.ofList_toList]
  · rw [List.length_append, hlength]
    omega
  · intro c hc
    rcases List.mem_append.mp hc with hc | hc
    · exact Rgb.isHexDigit_of_mem_literal hc
    · exact hpairDigits c hc
  · rw [List.take_left' hlength, ← htail, String.ofList_toList]
  · rw [List.drop_left' hlength]

/-- The literal of three bytes is recognized, with or without the digits of an opacity. -/
theorem recognize_literal (levels : Rgb (Fin 256)) {alpha : String} (halpha : IsAlphaDigits alpha) :
    recognize (levels.literal ++ alpha) =
      .ok (some { kind := .hex, color := levels.literal, alpha }) := by
  obtain ⟨digits, htext, hlength, hdigits, hcolor, halpha'⟩ :=
    exists_digits_of_literal levels halpha
  have hrun : Recognizer.hexLiteral.run (String.ofList ('#' :: digits)) =
      .ok (some { kind := .hex, color := levels.literal, alpha }) := by
    rw [Recognizer.run, ofHexLiteral?_digits hlength hdigits, hcolor, halpha']
    rfl
  rw [htext]
  refine Recognizer.recognize_of_run ?_ hrun
  rw [String.toList_ofList]
  exact getLast?_ne_newline (getLast?_literal_not_blank fun c hc => (hdigits c hc).1)

/-! ## Keywords -/

/-- Every keyword is recognized as its color. -/
theorem recognize_keyword {name color : String} (h : Keyword.color? name = some color) :
    recognize name = .ok (some { kind := .named, color }) := by
  have hrun : Recognizer.keyword.run name = .ok (some { kind := .named, color }) := by
    simp [Recognizer.run, Recognition.ofKeyword?, h]
  exact Recognizer.recognize_of_run (getLast?_ne_newline (Recognizer.suits_keyword h).last) hrun

/-! ## Calls -/

namespace Call

theorem getLast?_text_ne_newline (layout : Layout) :
    (String.ofList layout.text).toList.getLast? ≠ some '\n' := by
  rw [String.toList_ofList, layout.getLast?_text]
  decide

/-- The text of a layout is recognized as a call of `rgb` or `rgba`. -/
theorem recognize_rgbCall {layout : Layout} (h : layout.Valid ['r', 'g', 'b'] Component Component)
    {color : String} (hcolor : layout.toCall.rgbColor = .ok color) :
    recognize (String.ofList layout.text) =
      .ok (some (layout.toCall.toRecognition .rgb color)) := by
  have hread := read?_text reads_component reads_component h (.inl rfl)
  rw [List.append_nil] at hread
  have hrgb : readRgb? layout.text = some layout.toCall := hread
  have hrun : Recognizer.rgbCall.run (String.ofList layout.text) =
      .ok (some (layout.toCall.toRecognition .rgb color)) := by
    simp [Recognizer.run, Recognition.ofRgbCall?, hrgb, hcolor]
  exact Recognizer.recognize_of_run (getLast?_text_ne_newline layout) hrun

/-- The text of a layout is accepted as a call of `hsl` or `hsla`. -/
theorem ofHslCall?_text {layout : Layout} (h : layout.Valid ['h', 's', 'l'] Degrees Percentage)
    {color : String} (hcolor : layout.toCall.hslColor = .ok color) :
    Recognition.ofHslCall? (String.ofList layout.text) =
      .ok (some (layout.toCall.toRecognition .hsl color)) := by
  have hread := read?_text reads_degrees reads_percentage h (.inl rfl)
  rw [List.append_nil] at hread
  have hhsl : readHsl? layout.text = some layout.toCall := hread
  simp [Recognition.ofHslCall?, hhsl, hcolor]

/-- The text of a layout is recognized as a call of `hsl` or `hsla`. -/
theorem recognize_hslCall {layout : Layout} (h : layout.Valid ['h', 's', 'l'] Degrees Percentage)
    {color : String} (hcolor : layout.toCall.hslColor = .ok color) :
    recognize (String.ofList layout.text) =
      .ok (some (layout.toCall.toRecognition .hsl color)) := by
  have hrun : Recognizer.hslCall.run (String.ofList layout.text) =
      .ok (some (layout.toCall.toRecognition .hsl color)) := ofHslCall?_text h hcolor
  exact Recognizer.recognize_of_run (getLast?_text_ne_newline layout) hrun

end Call

end CssColor
