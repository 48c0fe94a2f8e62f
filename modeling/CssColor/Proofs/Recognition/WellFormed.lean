import CssColor.Proofs.Hsl
import CssColor.Proofs.Keyword
import CssColor.Proofs.Recognition.Layout
import CssColor.Recognition.Recognizer
import Mathlib.Algebra.Order.Floor.Semifield

/-!
# Well-formed recognitions

Every bare text is recognized without failure, and what is recognized is well-formed: its color is
canonical, and its opacity, function and separator have the forms of its notation.

## Main definitions

* `Recognition.WellFormed`: the fields have the forms of the notation.
* `Call.exactLevels`: the levels of a call of `rgb` or `rgba`, in exact arithmetic.

## Main results

* `Call.rgbColor_eq`: a call of `rgb` or `rgba` has exactly the levels of its arguments.
* `Call.rgbColor_spec`, `Call.hslColor_spec`: the arguments of every call give a canonical color.
* `recognize_spec`: recognition does not fail, and what it finds is well-formed.
-/

namespace CssColor

open Text

/-- The digits of an opacity in a hex literal: none, or those of a byte. -/
def IsAlphaDigits (alpha : String) : Prop :=
  alpha = "" ∨ ∃ level : Fin 256, alpha = String.ofList (Channel.hexPair level)

/-- The color is canonical, and the other fields have the forms of the notation. -/
inductive Recognition.WellFormed : Recognition → Prop
  /-- A hex literal has at most the digits of an opacity. -/
  | hex {color alpha : String} (hcolor : IsCanonical color) (halpha : IsAlphaDigits alpha) :
    WellFormed { kind := .hex, color, alpha }
  /-- A keyword has a color only. -/
  | named {color : String} (hcolor : IsCanonical color) : WellFormed { kind := .named, color }
  /-- A call has the name of its notation, a separator, and an opacity with what stands before
  it. -/
  | call {kind : Notation} {color alpha function separator : String} (hkind : kind.isCall = true)
    (hcolor : IsCanonical color) (hfunction : Call.IsFunctionName kind.name.toList function.toList)
    (hseparator : separator = ", " ∨ separator = " ")
    (halpha : alpha = "" ∨ Call.IsOpacity alpha.toList) :
    WellFormed { kind, color, alpha, function, separator }

namespace Recognition.WellFormed

variable {found : Recognition}

/-- The color of a well-formed recognition is canonical, whatever its notation. -/
theorem isCanonical (h : found.WellFormed) : IsCanonical found.color := by
  cases h with
  | hex hcolor _ => exact hcolor
  | named hcolor => exact hcolor
  | call _ hcolor _ _ _ => exact hcolor

/-- A well-formed hex literal has the digits of an opacity, or none, and is not called. -/
theorem hex_fields (h : found.WellFormed) (hkind : found.kind = .hex) :
    IsAlphaDigits found.alpha ∧ found.function = "" ∧ found.separator = "" := by
  cases h with
  | hex _ halpha => exact ⟨halpha, rfl, rfl⟩
  | named _ => simp at hkind
  | call hcall _ _ _ _ => simp_all [Notation.isCall]

/-- A well-formed keyword has no opacity. -/
theorem named_fields (h : found.WellFormed) (hkind : found.kind = .named) : found.alpha = "" := by
  cases h with
  | hex _ _ => simp at hkind
  | named _ => rfl
  | call hcall _ _ _ _ => simp_all [Notation.isCall]

/-- A well-formed call has a name of its function, one of two separators and an opacity as calls
write it, or none. -/
theorem call_fields (h : found.WellFormed) (hkind : found.kind.isCall = true) :
    Call.IsFunctionName found.kind.name.toList found.function.toList ∧
      (found.separator = ", " ∨ found.separator = " ") ∧
      (found.alpha = "" ∨ Call.IsOpacity found.alpha.toList) := by
  cases h with
  | hex _ _ => simp [Notation.isCall] at hkind
  | named _ => simp [Notation.isCall] at hkind
  | call _ _ hfunction hseparator halpha => exact ⟨hfunction, hseparator, halpha⟩

end Recognition.WellFormed

/-! ## Hex literals -/

namespace HexLiteral

/-- Six digits in either case are, in lower case, a canonical color. -/
theorem isCanonical_of_digits {a b c d e f : Char}
    (h : ∀ digit ∈ [a, b, c, d, e, f], isHexDigit digit = true) :
    IsCanonical (String.ofList ('#' :: [a, b, c, d, e, f].map Char.toLower)) := by
  have hcolor : Decode.isColor ['#', a, b, c, d, e, f] = true := by
    rw [Decode.isColor, Bool.and_eq_true]
    exact ⟨rfl, List.all_eq_true.mpr h⟩
  have htext : Decode.isColor (String.ofList ['#', a, b, c, d, e, f]).toList = true := by
    rwa [String.toList_ofList]
  obtain ⟨levels, hlevels, -⟩ := exists_levels_of_isColor htext
  refine ⟨levels, ?_⟩
  rw [← hlevels, lower, String.toList_ofList, lowerChars_of_isAscii (isAscii_of_isColor hcolor)]
  rfl

theorem isAlphaDigits_of_digits {a b : Char} (ha : isHexDigit a = true) (hb : isHexDigit b = true) :
    IsAlphaDigits (String.ofList [a.toLower, b.toLower]) := by
  obtain ⟨level, -, hlevel⟩ := Channel.exists_level_of_pair ha hb
  exact .inr ⟨level, by rw [hlevel]⟩

/-- A hex literal is a number sign and three, four, six or eight digits. -/
theorem exists_digits_of_isLiteral {text : List Char} (h : isLiteral text = true) :
    ∃ digits, text = '#' :: digits ∧ (∀ c ∈ digits, isHexDigit c = true) ∧
      digits.length ∈ [3, 4, 6, 8] := by
  unfold isLiteral at h
  split at h
  · next digits =>
    rw [Bool.and_eq_true, List.all_eq_true, List.contains_iff_mem] at h
    exact ⟨digits, rfl, h⟩
  · exact absurd h Bool.false_ne_true

/-- A literal is split into a canonical color and the digits of an opacity. -/
theorem expand_spec {text : List Char} (h : isLiteral text = true) :
    IsCanonical (String.ofList (expand text).1) ∧
      IsAlphaDigits (String.ofList (expand text).2) := by
  obtain ⟨digits, rfl, hdigits, hlength⟩ := exists_digits_of_isLiteral h
  have hascii : IsAscii ('#' :: digits) :=
    isAscii_cons.mpr ⟨by decide, fun c hc => toNat_lt_of_isHexDigit (hdigits c hc)⟩
  have hlower := lowerChars_of_isAscii hascii
  -- three and four digits are doubled, six and eight are taken as they are
  simp only [List.mem_cons, List.not_mem_nil, or_false] at hlength
  rcases hlength with hlength | hlength | hlength | hlength
  · match digits, hlength with
    | [a, b, c], _ =>
      have ha := hdigits a (by simp)
      have hb := hdigits b (by simp)
      have hc := hdigits c (by simp)
      simp only [expand, hlower, List.length_cons, List.length_nil]
      exact ⟨isCanonical_of_digits (by simp [ha, hb, hc]), .inl rfl⟩
  · match digits, hlength with
    | [a, b, c, d], _ =>
      have ha := hdigits a (by simp)
      have hb := hdigits b (by simp)
      have hc := hdigits c (by simp)
      have hd := hdigits d (by simp)
      simp only [expand, hlower, List.length_cons, List.length_nil]
      exact ⟨isCanonical_of_digits (by simp [ha, hb, hc]), isAlphaDigits_of_digits hd hd⟩
  · match digits, hlength with
    | [a, b, c, d, e, f], _ =>
      simp only [expand, hlower, List.length_cons, List.length_nil]
      exact ⟨isCanonical_of_digits hdigits, .inl rfl⟩
  · match digits, hlength with
    | [a, b, c, d, e, f, g, h], _ =>
      simp only [expand, hlower, List.length_cons, List.length_nil]
      refine ⟨isCanonical_of_digits fun digit hdigit => hdigits digit ?_,
        isAlphaDigits_of_digits (hdigits g (by simp)) (hdigits h (by simp))⟩
      simp only [List.mem_cons, List.not_mem_nil, or_false] at hdigit ⊢
      tauto

end HexLiteral

/-! ## Calls -/

namespace Call

/-- A percentage of 255, rounded half up, in whole numbers. -/
theorem floor_share (n : Nat) : ⌊(n : ℚ) * 255 / 100 + 1 / 2⌋₊ = (51 * n + 10) / 20 := by
  have hshare : (n : ℚ) * 255 / 100 + 1 / 2 = ((51 * n + 10 : ℕ) : ℚ) / (20 : ℕ) := by
    push_cast
    ring
  rw [hshare, Nat.floor_div_natCast, Nat.floor_natCast]

/-- The level that a component stands for, in exact arithmetic. An integer is moved below 256. A
percentage is moved below 101, and its share of 255 is rounded half up. -/
def exactLevel (component : List Char) : Fin 256 :=
  if component.getLast? = some '%' then
    let percent := min (Numeral.ofDigitText 10 component.dropLast) 100
    ⟨⌊(percent : ℚ) * 255 / 100 + 1 / 2⌋₊, by rw [floor_share]; omega⟩
  else ⟨min (Numeral.ofDigitText 10 component) 255, by omega⟩

/-- A component is encoded as its level. -/
theorem encodeComponent_eq {kept written : List Char} (h : Component kept written) :
    Channel.encodeComponent kept = .ok (Channel.hexPair (exactLevel kept)) := by
  obtain ⟨digits, sign, ⟨hne, hlength, hdigits⟩, hsign, rfl, rfl⟩ := h
  rcases hsign with rfl | rfl
  · have hlast : (digits ++ []).getLast? ≠ some '%' := by
      rw [List.append_nil]
      intro hlast
      exact absurd (hdigits '%' (List.mem_of_getLast? hlast)) (by decide)
    rw [exactLevel, if_neg hlast, List.append_nil,
      Channel.encodeComponent_digits hne hlength hdigits]
  · rw [exactLevel, if_pos (by simp), Channel.encodeComponent_percent hne hlength hdigits]
    simp only [List.dropLast_concat, floor_share]

/-- The levels that the arguments of a call of `rgb` or `rgba` stand for. -/
def exactLevels (call : Call) : Rgb (Fin 256) :=
  ⟨exactLevel call.first, exactLevel call.second, exactLevel call.third⟩

/-- The color of a call of `rgb` or `rgba` has exactly the levels of the arguments. -/
theorem rgbColor_eq {name : List Char} {layout : Layout}
    (h : layout.Valid name Component Component) :
    layout.toCall.rgbColor = .ok layout.toCall.exactLevels.literal := by
  simp [rgbColor, Rgb.ofComponents, encodeComponent_eq h.first, encodeComponent_eq h.second,
    encodeComponent_eq h.third, Rgb.literal, Rgb.map, exactLevels]

/-- Every call of `rgb` has a canonical color. -/
theorem rgbColor_spec {name : List Char} {layout : Layout}
    (h : layout.Valid name Component Component) :
    Yields layout.toCall.rgbColor IsCanonical :=
  ⟨_, rgbColor_eq h, _, rfl⟩

/-- A short number is read as an integer below a thousand. -/
theorem read_shortNumber {digits : List Char} (h : IsShortNumber digits) :
    Yields (Decimal.read digits) fun f => ∃ q, f.toRat? = some q ∧ |q| ≤ 1600 := by
  obtain ⟨hne, hlength, hdigits⟩ := h
  have hlt : Numeral.ofDigitText 10 digits < 10 ^ 3 :=
    (Numeral.ofDigitText_lt fun c hc => Decimal.value_lt_of_isDigit (hdigits c hc)).trans_le
      (Nat.pow_le_pow_right (by norm_num) hlength)
  refine ⟨_, Decimal.read_digits hne hdigits, _, Decimal.toRat?_nearest_digits hlength hdigits, ?_⟩
  rw [Nat.abs_cast]
  exact_mod_cast (show Numeral.ofDigitText 10 digits ≤ 1600 by omega)

/-- Every call of `hsl` has a canonical color. -/
theorem hslColor_spec {name : List Char} {layout : Layout}
    (h : layout.Valid name Degrees Percentage) :
    Yields layout.toCall.hslColor IsCanonical := by
  refine (read_shortNumber h.first.1).bind fun hue ⟨_, hhue, _⟩ => ?_
  refine (read_shortNumber h.second.1).bind fun saturation ⟨_, hsaturation, hs⟩ => ?_
  refine (read_shortNumber h.third.1).bind fun lightness ⟨_, hlightness, hl⟩ => ?_
  exact Hsl.toHex_spec (Number.toRat?_float hue ▸ hhue)
    (Number.toRat?_float saturation ▸ hsaturation)
    (Number.toRat?_float lightness ▸ hlightness) hs hl

/-- Calls are written again with commas or with blanks. -/
theorem separatorStyle_cases (call : Call) :
    call.separatorStyle = ", " ∨ call.separatorStyle = " " := by
  unfold separatorStyle
  split_ifs
  · exact .inl rfl
  · exact .inr rfl

/-- The recognition of a call is well-formed once its color is canonical. -/
theorem wellFormed_toRecognition {kind : Notation} (hkind : kind.isCall = true)
    {first other : List Char → List Char → Prop} {layout : Layout}
    (h : layout.Valid kind.name.toList first other) {color : String} (hcolor : IsCanonical color) :
    (layout.toCall.toRecognition kind color).WellFormed := by
  refine .call hkind hcolor ?_ (separatorStyle_cases _) ?_
  · rw [String.toList_ofList]
    exact h.function
  · rcases h.alpha with hnone | hsome
    · exact .inl (by rw [hnone])
    · exact .inr (by rwa [String.toList_ofList])

/-- When the arguments of a call give a canonical color, its recognition is well-formed. -/
theorem yields_toRecognition {kind : Notation} (hkind : kind.isCall = true)
    {first other : List Char → List Char → Prop} {layout : Layout}
    (h : layout.Valid kind.name.toList first other) {color : Except NumericError String}
    (hcolor : Yields color IsCanonical) :
    Yields (do return some (layout.toCall.toRecognition kind (← color)))
      fun outcome => ∀ found ∈ outcome, found.WellFormed := by
  refine hcolor.bind fun color hcolor => .ok fun found hfound => ?_
  obtain rfl := Option.some.inj hfound
  exact wellFormed_toRecognition hkind h hcolor

end Call

namespace Recognition

/-- The recognizer of `rgb` never fails, and what it recognizes is well formed. -/
theorem ofRgbCall?_spec (text : String) :
    Yields (ofRgbCall? text) fun outcome => ∀ found ∈ outcome, found.WellFormed := by
  unfold ofRgbCall?
  split
  · next call hcall =>
    obtain ⟨layout, hvalid, rfl, -⟩ :=
      (Call.read?_eq_some_iff Call.reads_component Call.reads_component).mp hcall
    have hname : Notation.rgb.name.toList = ['r', 'g', 'b'] := by decide
    exact Call.yields_toRecognition rfl (hname ▸ hvalid) (Call.rgbColor_spec hvalid)
  · exact .ok (by simp)

/-- The recognizer of `hsl` never fails, and what it recognizes is well formed. -/
theorem ofHslCall?_spec (text : String) :
    Yields (ofHslCall? text) fun outcome => ∀ found ∈ outcome, found.WellFormed := by
  unfold ofHslCall?
  split
  · next call hcall =>
    obtain ⟨layout, hvalid, rfl, -⟩ :=
      (Call.read?_eq_some_iff Call.reads_degrees Call.reads_percentage).mp hcall
    have hname : Notation.hsl.name.toList = ['h', 's', 'l'] := by decide
    exact Call.yields_toRecognition rfl (hname ▸ hvalid) (Call.hslColor_spec hvalid)
  · exact .ok (by simp)

/-- A recognized keyword is well formed. -/
theorem ofKeyword?_wellFormed {text : String} {found : Recognition}
    (h : ofKeyword? text = some found) :
    found.WellFormed := by
  obtain ⟨color, hcolor, rfl⟩ := Option.map_eq_some_iff.mp h
  exact .named (Keyword.isCanonical_of_color? hcolor)

/-- A recognized hex literal without a final newline is well formed. -/
theorem ofHexLiteral?_wellFormed {text : String} {found : Recognition}
    (hnewline : text.toList.getLast? ≠ some '\n') (h : ofHexLiteral? text = some found) :
    found.WellFormed := by
  rw [ofHexLiteral?, dropFinalNewline, if_neg hnewline] at h
  simp only [Option.ite_none_right_eq_some, Option.some.injEq] at h
  obtain ⟨hliteral, rfl⟩ := h
  obtain ⟨hcolor, halpha⟩ := HexLiteral.expand_spec hliteral
  exact .hex hcolor halpha

end Recognition

/-! ## Bare texts -/

/-- Recognizers do not fail, and what they find is well-formed. Only a hex literal must not have a
final newline for that. -/
theorem Recognizer.run_spec {recognizer : Recognizer} {text : String}
    (hnewline : recognizer = .hexLiteral → text.toList.getLast? ≠ some '\n') :
    Yields (recognizer.run text) fun outcome => ∀ found ∈ outcome, found.WellFormed := by
  cases recognizer with
  | hexLiteral =>
    exact .ok fun _ hfound => Recognition.ofHexLiteral?_wellFormed (hnewline rfl) hfound
  | keyword => exact .ok fun _ hfound => Recognition.ofKeyword?_wellFormed hfound
  | rgbCall => exact Recognition.ofRgbCall?_spec text
  | hslCall => exact Recognition.ofHslCall?_spec text

/-- What holds of all that each of several recognizers finds holds of what the first one of them
finds that accepts the text. -/
theorem Recognizer.firstMatch_yields {text : String} {recognizers : List Recognizer}
    {P : Recognition → Prop}
    (h : ∀ recognizer ∈ recognizers,
      Yields (recognizer.run text) fun outcome => ∀ found ∈ outcome, P found) :
    Yields (firstMatch text recognizers) fun outcome => ∀ found ∈ outcome, P found := by
  induction recognizers with
  | nil => exact .ok (by simp)
  | cons recognizer rest ih =>
    rw [firstMatch]
    refine (h recognizer (List.mem_cons_self ..)).bind fun outcome houtcome => ?_
    cases outcome with
    | none => exact ih fun other hother => h other (List.mem_cons_of_mem _ hother)
    | some found => exact .ok houtcome

/-- A text without the blanks at its ends has no final newline. -/
theorem getLast?_strip (text : String) : (strip text).toList.getLast? ≠ some '\n' := by
  intro hlast
  rw [strip, String.toList_ofList, trim] at hlast
  exact absurd (getLast?_dropRight hlast) (by decide)

/-- Recognition does not fail, and what it finds is well-formed. -/
theorem recognize_spec (text : String) :
    Yields (recognize text) fun outcome => ∀ found ∈ outcome, found.WellFormed := by
  have hrun (recognizer : Recognizer) :
      Yields (recognizer.run (strip text)) fun outcome => ∀ found ∈ outcome, found.WellFormed :=
    Recognizer.run_spec fun _ => getLast?_strip text
  refine (Recognizer.firstMatch_yields fun recognizer _ => hrun recognizer).bind
    fun outcome houtcome => ?_
  cases outcome with
  | some found => exact .ok houtcome
  | none =>
    -- a keyword is looked up once more, in lower case
    exact .ok fun found hfound => Recognition.ofKeyword?_wellFormed hfound

end CssColor
