import CssColor.Proofs.Recognition.WellFormed

/-!
# The forms of a recognition

The fields of a recognition in terms of their characters, and the texts whose recognition has these
forms. All recognizers of hex literals and calls let one newline follow. In a call nothing comes of
it. The form of a hex literal is decided by the length of the text with the newline, which is the
length of another form or of none: after three digits the newline is taken for a digit of the
opacity, and after more the whole text is taken for a color.

## Main definitions

* `Recognition.HasForm`: the characters of each field, as the notation has them.
* `HexLiteral.IsMisfit`: a literal and a newline that are together as long as no literal.

## Main results

* `Recognition.hasForm_iff_wellFormed`: the forms of the characters are those of bytes.
* `Recognizer.run_succeeds`: recognizers do not fail.
* `Recognizer.isColor_iff`: a recognizer gives a color of six digits for all texts but misfits.
* `Recognizer.hasForm_iff`: what a recognizer makes of a text has the forms, unless it is a hex
  literal with a newline.
-/

namespace CssColor

open Text

/-! ## Characters of the fields -/

/-- Whether a character is a hexadecimal digit in lower case. -/
def Text.isLowerHexDigit (c : Char) : Bool := ('0' ≤ c && c ≤ '9') || ('a' ≤ c && c ≤ 'f')

/-- The text is a number sign and six hexadecimal digits in lower case. -/
def IsLowerColor (text : List Char) : Prop :=
  ∃ digits, text = '#' :: digits ∧ digits.length = 6 ∧ ∀ c ∈ digits, isLowerHexDigit c = true

/-- The text has no characters, or two hexadecimal digits in lower case. -/
def IsLowerPair (text : List Char) : Prop :=
  text = [] ∨ (text.length = 2 ∧ ∀ c ∈ text, isLowerHexDigit c = true)

/-- The color is a number sign and six digits in lower case, and the other fields are as the
notation has them. -/
structure Recognition.HasForm (found : Recognition) : Prop where
  /-- The color is canonical. -/
  color : IsLowerColor found.color.toList
  /-- A keyword has no other field, a hex literal at most an opacity of two digits. A call has a
  name, a separator, and at most an opacity with what stands before it. -/
  fields : match found.kind with
    | .named => found.alpha = "" ∧ found.function = "" ∧ found.separator = ""
    | .hex => found.function = "" ∧ found.separator = "" ∧ IsLowerPair found.alpha.toList
    | .rgb | .hsl => Call.IsFunctionName found.kind.name.toList found.function.toList ∧
        (found.separator = ", " ∨ found.separator = " ") ∧
        (found.alpha = "" ∨ Call.IsOpacity found.alpha.toList)

/-- The hexadecimal digits in lower case are those of the values below sixteen. -/
theorem Text.isLowerHexDigit_iff_exists {c : Char} :
    isLowerHexDigit c = true ↔ ∃ d < 16, hexDigit d = c := by
  constructor
  · intro h
    simp only [isLowerHexDigit, Bool.or_eq_true, Bool.and_eq_true, decide_eq_true_eq] at h
    rcases h with ⟨hlow, hhigh⟩ | ⟨hlow, hhigh⟩
    · have hlow' : 0x30 ≤ c.toNat := hlow
      have hhigh' : c.toNat ≤ 0x39 := hhigh
      have hdigits : ∀ d < 10, hexDigit d = Char.ofNat (0x30 + d) := by decide
      refine ⟨c.toNat - 0x30, by omega, ?_⟩
      rw [hdigits _ (by omega), Nat.add_sub_cancel' hlow', Char.ofNat_toNat]
    · have hlow' : 0x61 ≤ c.toNat := hlow
      have hhigh' : c.toNat ≤ 0x66 := hhigh
      have hletters : ∀ d < 6, hexDigit (10 + d) = Char.ofNat (0x61 + d) := by decide
      refine ⟨10 + (c.toNat - 0x61), by omega, ?_⟩
      rw [hletters _ (by omega), Nat.add_sub_cancel' hlow', Char.ofNat_toNat]
  · rintro ⟨d, hd, rfl⟩
    revert d
    decide

/-- The digits in lower case are the digits that lower case does not change. -/
theorem Text.isLowerHexDigit_iff {c : Char} :
    isLowerHexDigit c = true ↔ isHexDigit c = true ∧ c.toLower = c := by
  rw [isLowerHexDigit_iff_exists]
  constructor
  · rintro ⟨d, hd, rfl⟩
    obtain ⟨hdigit, hlower, -⟩ := Channel.isHexDigit_hexDigit d hd
    exact ⟨hdigit, hlower⟩
  · rintro ⟨hdigit, hlower⟩
    exact ⟨_, Channel.value_lt hdigit, (Channel.hexDigit_value hdigit).trans hlower⟩

theorem map_toLower_of_isLowerHexDigit {text : List Char}
    (h : ∀ c ∈ text, isLowerHexDigit c = true) : text.map Char.toLower = text :=
  map_toLower_eq_self fun c hc => (isLowerHexDigit_iff.mp (h c hc)).2

/-- A color of bytes is one of six digits in lower case. -/
theorem isCanonical_iff {color : String} : IsCanonical color ↔ IsLowerColor color.toList := by
  constructor
  · rintro ⟨levels, rfl⟩
    have hdigits : ∀ c ∈ levels.literal.toList.tail, isLowerHexDigit c = true :=
      fun c hc => isLowerHexDigit_iff.mpr (Rgb.isHexDigit_of_mem_literal hc)
    rw [Rgb.toList_literal] at hdigits ⊢
    exact ⟨_, rfl, rfl, hdigits⟩
  · rintro ⟨digits, htext, hlength, hdigits⟩
    match digits, hlength with
    | [a, b, c, d, e, f], _ =>
      -- the digits of a literal are read in lower case, in which these are already
      have hcanonical := HexLiteral.isCanonical_of_digits
        fun digit hdigit => (isLowerHexDigit_iff.mp (hdigits digit hdigit)).1
      rwa [map_toLower_of_isLowerHexDigit hdigits, ← htext, String.ofList_toList] at hcanonical

/-- The digits of an opacity are two digits in lower case, if there are any. -/
theorem isAlphaDigits_iff {alpha : String} : IsAlphaDigits alpha ↔ IsLowerPair alpha.toList := by
  constructor
  · rintro (rfl | ⟨level, rfl⟩)
    · exact .inl rfl
    · rw [String.toList_ofList]
      exact .inr ⟨rfl, fun c hc =>
        isLowerHexDigit_iff.mpr (Channel.isHexDigit_of_mem_hexPair level hc)⟩
  · rintro (hempty | ⟨hlength, hdigits⟩)
    · exact .inl (String.toList_eq_nil_iff.mp hempty)
    · obtain ⟨a, b, hpair⟩ := List.length_eq_two.mp hlength
      rw [hpair] at hdigits
      have hbyte := HexLiteral.isAlphaDigits_of_digits
        (isLowerHexDigit_iff.mp (hdigits a (by simp))).1
        (isLowerHexDigit_iff.mp (hdigits b (by simp))).1
      have hlower : [a.toLower, b.toLower] = alpha.toList := by
        rw [hpair]
        exact map_toLower_of_isLowerHexDigit hdigits
      rwa [hlower, String.ofList_toList] at hbyte

/-- The forms of the characters are those of bytes, of calls and of keywords. -/
theorem Recognition.hasForm_iff_wellFormed {found : Recognition} :
    found.HasForm ↔ found.WellFormed := by
  constructor
  · rintro ⟨hcolor, hfields⟩
    have hcanonical := isCanonical_iff.mpr hcolor
    obtain ⟨kind, color, alpha, function, separator⟩ := found
    cases kind with
    | hex =>
      obtain ⟨rfl, rfl, halpha⟩ := hfields
      exact .hex hcanonical (isAlphaDigits_iff.mpr halpha)
    | named =>
      obtain ⟨rfl, rfl, rfl⟩ := hfields
      exact .named hcanonical
    | rgb =>
      obtain ⟨hfunction, hseparator, halpha⟩ := hfields
      exact .call rfl hcanonical hfunction hseparator halpha
    | hsl =>
      obtain ⟨hfunction, hseparator, halpha⟩ := hfields
      exact .call rfl hcanonical hfunction hseparator halpha
  · intro h
    refine ⟨isCanonical_iff.mp h.isCanonical, ?_⟩
    cases h with
    | hex _ halpha => exact ⟨rfl, rfl, isAlphaDigits_iff.mp halpha⟩
    | named _ => exact ⟨rfl, rfl, rfl⟩
    | @call kind _ _ _ _ hkind _ hfunction hseparator halpha =>
      cases kind with
      | rgb => exact ⟨hfunction, hseparator, halpha⟩
      | hsl => exact ⟨hfunction, hseparator, halpha⟩
      | hex => simp [Notation.isCall] at hkind
      | named => simp [Notation.isCall] at hkind

/-! ## Hex literals with a newline -/

namespace HexLiteral

/-- A number sign, four, six or eight hexadecimal digits, and one newline: no literal is as long as
all of it. -/
def IsMisfit (text : List Char) : Prop :=
  ∃ digits, text = '#' :: (digits ++ ['\n']) ∧ (∀ c ∈ digits, isHexDigit c = true) ∧
    digits.length ∈ [4, 6, 8]

/-- A misfit is not split, and its newline stays. -/
theorem expand_of_isMisfit {text : List Char} (h : IsMisfit text) : expand text = (text, []) := by
  obtain ⟨digits, rfl, -, hlength⟩ := h
  simp only [List.mem_cons, List.not_mem_nil, or_false] at hlength
  rcases hlength with hlength | hlength | hlength <;> simp [expand, hlength]

/-- The newline behind three digits is doubled as the digit of an opacity is. -/
theorem expand_three_newline {a b c : Char} (ha : isHexDigit a = true) (hb : isHexDigit b = true)
    (hc : isHexDigit c = true) :
    expand ['#', a, b, c, '\n'] =
      ('#' :: [a, a, b, b, c, c].map Char.toLower, ['\n', '\n']) := by
  have hascii : IsAscii ['#', a, b, c, '\n'] := by
    simp [toNat_lt_of_isHexDigit ha, toNat_lt_of_isHexDigit hb, toNat_lt_of_isHexDigit hc]
  simp only [expand, lowerChars_of_isAscii hascii]
  rfl

/-- The newline of a misfit is no digit of a color. -/
theorem not_isColor_of_isMisfit {text : List Char} (h : IsMisfit text) :
    Decode.isColor text = false := by
  obtain ⟨digits, rfl, -, -⟩ := h
  have hnewline : (digits ++ ['\n']).all isHexDigit = false :=
    List.all_eq_false.mpr ⟨'\n', List.mem_append_right _ (List.mem_singleton_self _), by decide⟩
  rw [Decode.isColor, hnewline, Bool.and_false]

end HexLiteral

theorem dropFinalNewline_concat (text : List Char) : dropFinalNewline (text ++ ['\n']) = text := by
  rw [dropFinalNewline, List.getLast?_concat, if_pos rfl, List.dropLast_concat]

namespace Recognition

/-- A misfit is recognized, and all of its text is taken for the color. -/
theorem ofHexLiteral?_of_isMisfit {text : String} (h : HexLiteral.IsMisfit text.toList) :
    ofHexLiteral? text = some { kind := .hex, color := text } := by
  have hexpand := HexLiteral.expand_of_isMisfit h
  obtain ⟨digits, htext, hdigits, hlength⟩ := h
  -- the newline is set aside for the test of the digits and is back when the text is split
  have hliteral : HexLiteral.isLiteral (dropFinalNewline text.toList) = true := by
    have hlong : digits.length ∈ [3, 4, 6, 8] := List.mem_cons_of_mem _ hlength
    rw [htext, ← List.cons_append, dropFinalNewline_concat, HexLiteral.isLiteral,
      Bool.and_eq_true, List.contains_iff_mem]
    exact ⟨List.all_eq_true.mpr hdigits, hlong⟩
  rw [ofHexLiteral?, if_pos hliteral, hexpand]
  simp only [String.ofList_toList, String.ofList_nil]

/-- What becomes of a hex literal with a newline: three digits have two newlines for an opacity,
and any other literal is a misfit. -/
theorem ofHexLiteral?_newline {text : String} {found : Recognition}
    (hnewline : text.toList.getLast? = some '\n') (h : ofHexLiteral? text = some found) :
    (IsCanonical found.color ∧ found = { kind := .hex, color := found.color, alpha := "\n\n" }) ∨
      (HexLiteral.IsMisfit text.toList ∧ found = { kind := .hex, color := text }) := by
  have htext : text.toList.dropLast ++ ['\n'] = text.toList :=
    List.dropLast_append_getLast? '\n' hnewline
  have hfound := h
  rw [ofHexLiteral?, ← htext, dropFinalNewline_concat, Option.ite_none_right_eq_some] at hfound
  obtain ⟨hliteral, hfound⟩ := hfound
  obtain ⟨digits, hdrop, hdigits, hlength⟩ := HexLiteral.exists_digits_of_isLiteral hliteral
  rcases List.mem_cons.mp hlength with hthree | hmore
  · -- the text is five characters long, as a literal of four digits is
    left
    obtain ⟨a, b, c, rfl⟩ := List.length_eq_three.mp hthree
    have ha := hdigits a (by simp)
    have hb := hdigits b (by simp)
    have hc := hdigits c (by simp)
    rw [hdrop] at hfound
    simp only [List.cons_append, List.nil_append, HexLiteral.expand_three_newline ha hb hc,
      Option.some.injEq] at hfound
    subst hfound
    exact ⟨HexLiteral.isCanonical_of_digits (by simp [ha, hb, hc]), rfl⟩
  · -- with the newline the text is longer than one form and shorter than the next
    right
    have hmisfit : HexLiteral.IsMisfit text.toList :=
      ⟨digits, by rw [← htext, hdrop, List.cons_append], hdigits, hmore⟩
    refine ⟨hmisfit, ?_⟩
    rw [ofHexLiteral?_of_isMisfit hmisfit] at h
    exact (Option.some.inj h).symm

/-- Two newlines are no digits of an opacity. -/
theorem not_isLowerPair_newlines : ¬ IsLowerPair "\n\n".toList := by
  rintro (hempty | ⟨-, hdigits⟩)
  · exact absurd hempty (by decide)
  · exact absurd (hdigits '\n' (by decide)) (by decide)

/-- A hex literal with a newline has a newline among its digits. -/
theorem not_wellFormed_newline {text : String} {found : Recognition}
    (hnewline : text.toList.getLast? = some '\n') (h : ofHexLiteral? text = some found) :
    ¬ found.WellFormed := by
  intro hwell
  rcases ofHexLiteral?_newline hnewline h with ⟨-, halpha⟩ | ⟨hmisfit, rfl⟩
  · -- the color is canonical, so it is the opacity that gives it away
    have hdigits : IsLowerPair "\n\n".toList := by
      rw [halpha] at hwell
      exact isAlphaDigits_iff.mp (hwell.hex_fields rfl).1
    exact not_isLowerPair_newlines hdigits
  · have hcolor := hwell.isCanonical.isColor
    rw [HexLiteral.not_isColor_of_isMisfit hmisfit] at hcolor
    exact Bool.false_ne_true hcolor

end Recognition

/-! ## All recognizers -/

namespace Recognizer

/-- Recognizers do not fail, whatever the text. -/
theorem run_succeeds (recognizer : Recognizer) (text : String) :
    ∃ outcome, recognizer.run text = .ok outcome := by
  by_cases hhex : recognizer = .hexLiteral
  · subst hhex
    exact ⟨_, rfl⟩
  · have hspec : Yields (recognizer.run text) fun outcome => ∀ found ∈ outcome, found.WellFormed :=
      run_spec fun h => absurd h hhex
    obtain ⟨outcome, houtcome, -⟩ := hspec
    exact ⟨outcome, houtcome⟩

/-- No recognizer accepts the empty text. -/
theorem run_empty (recognizer : Recognizer) : recognizer.run "" = .ok none := by
  cases recognizer <;> decide

/-- Every recognizer gives a color of six digits, except for the recognizer of hex literals on a
misfit. -/
theorem isColor_iff {recognizer : Recognizer} {text : String} {found : Recognition}
    (h : recognizer.run text = .ok (some found)) :
    Decode.isColor found.color.toList = true ↔
      ¬ (recognizer = .hexLiteral ∧ HexLiteral.IsMisfit text.toList) := by
  constructor
  · rintro hcolor ⟨rfl, hmisfit⟩
    have hfound : Recognition.ofHexLiteral? text = some found := Except.ok.inj h
    rw [Recognition.ofHexLiteral?_of_isMisfit hmisfit] at hfound
    rw [← Option.some.inj hfound, HexLiteral.not_isColor_of_isMisfit hmisfit] at hcolor
    exact Bool.false_ne_true hcolor
  · intro hfits
    by_cases hnewline : recognizer = .hexLiteral ∧ text.toList.getLast? = some '\n'
    · -- the color of three digits is not spoiled by the newline, which goes to the opacity
      obtain ⟨rfl, hnewline⟩ := hnewline
      rcases Recognition.ofHexLiteral?_newline hnewline (Except.ok.inj h) with
        ⟨hcolor, -⟩ | ⟨hmisfit, -⟩
      · exact hcolor.isColor
      · exact absurd ⟨rfl, hmisfit⟩ hfits
    · have hwell := (run_spec (not_and.mp hnewline)).of_eq_ok h found rfl
      exact hwell.isCanonical.isColor

/-- What a recognizer makes of a text has the forms of its notation, unless the text is a hex
literal with a newline. The recognition of that never has them. -/
theorem hasForm_iff {recognizer : Recognizer} {text : String} {found : Recognition}
    (h : recognizer.run text = .ok (some found)) :
    found.HasForm ↔ ¬ (recognizer = .hexLiteral ∧ text.toList.getLast? = some '\n') := by
  rw [Recognition.hasForm_iff_wellFormed]
  constructor
  · rintro hwell ⟨rfl, hnewline⟩
    exact Recognition.not_wellFormed_newline hnewline (Except.ok.inj h) hwell
  · intro hplain
    exact (run_spec (not_and.mp hplain)).of_eq_ok h found rfl

/-- A call in capitals with an opacity and a newline. -/
theorem hasForm_iff_call_newline :
    let found : Recognition := ⟨.rgb, "#0a331e", "/.5%", "RGBa", " "⟩
    Recognizer.rgbCall.run "RGBa(10 20%,30/.5%)\n" = .ok (some found) ∧
      (found.HasForm ↔ ¬ (Recognizer.rgbCall = .hexLiteral ∧
        "RGBa(10 20%,30/.5%)\n".toList.getLast? = some '\n')) := by
  intro found
  have h : Recognizer.rgbCall.run "RGBa(10 20%,30/.5%)\n" = .ok (some found) := by decide +kernel
  exact ⟨h, hasForm_iff h⟩

/-- Three digits and a newline: the opacity is two newlines. -/
theorem not_hasForm_three_digits_newline :
    let found : Recognition := { kind := .hex, color := "#aabbcc", alpha := "\n\n" }
    Recognizer.hexLiteral.run "#abc\n" = .ok (some found) ∧ ¬ found.HasForm := by
  intro found
  refine ⟨by decide +kernel, ?_⟩
  rintro ⟨-, -, -, halpha⟩
  exact Recognition.not_isLowerPair_newlines halpha

end Recognizer

end CssColor
