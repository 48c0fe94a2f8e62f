import CssColor.Proofs.Number.Nearness
import CssColor.Proofs.Recognition.Acceptance
import CssColor.Rendering

/-!
# Rendering and recognition

A color that is rendered in place of a token is recognized again, in the notation and the spelling
of the token.

## Main definitions

* `Token.functionText`, `Token.separatorText`: the spelling of a call, with its defaults.
* `Token.Spells`: the spelling and the opacity of the token have the forms of a call.

## Main results

* `Token.render_rgb`, `Token.render_hsl`, `Token.render_named`, `Token.render_hex`: rendering in
  each notation, for tokens that need not come from a text.
* `Token.render_succeeds`: every color can be written in place of every token.
* `Token.recognize_render`: rendering a recognized color and recognizing it again.
-/

namespace CssColor

open Text

/-! ## Decimal text -/

/-- Numbers below a thousand are written as short numbers. -/
theorem isShortNumber_toDigits {n : Nat} (h : n < 1000) :
    Call.IsShortNumber (Nat.toDigits 10 n) :=
  ⟨Nat.toDigits_ne_nil, (Nat.length_toDigits_le_iff (by norm_num) (by norm_num)).mpr h,
    fun _ hc => Nat.isDigit_of_mem_toDigits (by norm_num) (by norm_num) hc⟩

/-! ## What a color decides on -/

/-- A fraction of one is written as the nearest whole percentage, up to one hundred. -/
theorem Token.percentText_spec {fraction : Binary64} (h : (Number.float fraction).InUnit) :
    ∃ percent : Nat, ∃ q, percent ≤ 100 ∧ fraction.toRat? = some q ∧
      |(percent : ℚ) / 100 - q| ≤ 1 / 200 + 1 / 2 ^ 38 ∧
      Token.percentText fraction = .ok (toString (percent : Int) ++ "%") := by
  obtain ⟨q, hq, hlow, hhigh⟩ := h
  obtain ⟨scaled, hscaled, hnear⟩ := Number.mul_near (k := 39) (i := 0) (j := 7)
    (Number.near_of_toRat? hq) (Number.near_ofNat 100) (Number.abs_le_two_pow ⟨hlow, hhigh⟩)
    (by norm_num) (by norm_num) le_rfl
  have hmagnitude : |q * 100| ≤ 2 ^ 10 := abs_le.mpr ⟨by linarith, by linarith⟩
  obtain ⟨n, hn, herror⟩ := Number.roundHalfUp_near hnear hmagnitude (by norm_num)
  obtain ⟨hbelow, habove⟩ := abs_le.mp herror
  have hsmall : (1 : ℚ) / 2 ^ 38 < 1 / 2 := by norm_num
  -- the error of the product and of the rounding stay together below one, at both ends of the range
  have hn0 : -1 < n := by
    have hcast : (-1 : ℚ) < n := by linarith
    exact_mod_cast hcast
  have hn1 : n < 101 := by
    have hcast : (n : ℚ) < 101 := by linarith
    exact_mod_cast hcast
  obtain ⟨percent, rfl⟩ := Int.eq_ofNat_of_zero_le (show 0 ≤ n by omega)
  rw [Int.cast_natCast] at hbelow habove
  refine ⟨percent, q, by omega, hq, abs_le.mpr ⟨by linarith, by linarith⟩, ?_⟩
  rw [Token.percentText, hscaled, ok_bind, hn]
  rfl

namespace Inscription

/-- The levels of a color are the arguments of a call of `rgb`. -/
theorem ofColor_rgb {color : String} {channels : Rgb Int} (h : Rgb.ofHex color = .ok channels) :
    ofColor color .rgb =
      .ok (.call (toString channels.red) (toString channels.green) (toString channels.blue)) := by
  rw [ofColor, h, ok_bind, pure_eq_ok]

/-- The whole hue of a color is the first argument of a call of `hsl`, and its two fractions are the
others, as the nearest percentages. -/
theorem ofColor_hsl_of_parts {color : String} {channels : Rgb Int} {parts : Hsl}
    (hchannels : Rgb.ofHex color = .ok channels)
    (hparts : Hsl.ofRgb (channels.map Number.int) = .ok parts) (hrange : parts.InRange) :
    ∃ hue saturation lightness : Nat, ∃ s l, (hue < 360 ∧ saturation ≤ 100 ∧ lightness ≤ 100) ∧
      ofColor color .hsl = .ok (.call (toString (hue : Int)) (toString (saturation : Int) ++ "%")
        (toString (lightness : Int) ++ "%")) ∧
      parts.hue = hue ∧ parts.saturation.toRat? = some s ∧ parts.lightness.toRat? = some l ∧
      |(saturation : ℚ) / 100 - s| ≤ 1 / 200 + 1 / 2 ^ 38 ∧
      |(lightness : ℚ) / 100 - l| ≤ 1 / 200 + 1 / 2 ^ 38 := by
  obtain ⟨⟨hhue0, hhue1⟩, hsaturation, hlightness⟩ := hrange
  obtain ⟨saturation, s, hs, hs', hserror, hstext⟩ := Token.percentText_spec hsaturation
  obtain ⟨lightness, l, hl, hl', hlerror, hltext⟩ := Token.percentText_spec hlightness
  obtain ⟨hue, hhue⟩ := Int.eq_ofNat_of_zero_le hhue0
  refine ⟨hue, saturation, lightness, s, l, ⟨by omega, hs, hl⟩, ?_, hhue, hs', hl', hserror,
    hlerror⟩
  rw [ofColor, hchannels, ok_bind, hparts, ok_bind, hstext, ok_bind, hltext, ok_bind, pure_eq_ok,
    hhue]

/-- A call of `hsl` has a hue from 0 to 359 and percentages up to 100. -/
theorem ofColor_hsl {color : String} (hcolor : Decode.isColor color.toList = true) :
    ∃ hue saturation lightness : Nat, hue < 360 ∧ saturation ≤ 100 ∧ lightness ≤ 100 ∧
      ofColor color .hsl = .ok (.call (toString (hue : Int)) (toString (saturation : Int) ++ "%")
        (toString (lightness : Int) ++ "%")) := by
  obtain ⟨levels, -, hlevels⟩ := exists_levels_of_isColor hcolor
  obtain ⟨parts, hparts, hrange⟩ := Hsl.ofRgb_spec levels
  obtain ⟨hue, saturation, lightness, -, -, ⟨hh, hs, hl⟩, hofColor, -⟩ :=
    ofColor_hsl_of_parts hlevels hparts hrange
  exact ⟨hue, saturation, lightness, hh, hs, hl, hofColor⟩

/-- In the notation of a call every color of six digits is written as three arguments. -/
theorem ofColor_of_isCall {color : String} (hcolor : Decode.isColor color.toList = true)
    {kind : Notation} (hkind : kind.isCall = true) :
    ∃ first second third, ofColor color kind = .ok (.call first second third) := by
  cases kind with
  | hex => simp [Notation.isCall] at hkind
  | named => simp [Notation.isCall] at hkind
  | rgb =>
    obtain ⟨levels, -, hlevels⟩ := exists_levels_of_isColor hcolor
    exact ⟨_, _, _, ofColor_rgb hlevels⟩
  | hsl =>
    obtain ⟨hue, saturation, lightness, -, -, -, hofColor⟩ := ofColor_hsl hcolor
    exact ⟨_, _, _, hofColor⟩

/-- Every color of six digits can be written in every notation. -/
theorem ofColor_succeeds {color : String} (hcolor : Decode.isColor color.toList = true)
    (kind : Notation) : ∃ inscription, ofColor color kind = .ok inscription := by
  by_cases hcall : kind.isCall = true
  · obtain ⟨first, second, third, hofColor⟩ := ofColor_of_isCall hcolor hcall
    exact ⟨_, hofColor⟩
  · cases kind with
    | hex => exact ⟨_, rfl⟩
    | named => exact ⟨_, rfl⟩
    | rgb => exact absurd rfl hcall
    | hsl => exact absurd rfl hcall

end Inscription

namespace Token

/-! ## Spelling of a call -/

/-- The name with which a call is written in place of the token. -/
def functionText (token : Token) : String :=
  if token.function = "" then token.kind.name else token.function

/-- The separator with which a call is written in place of the token. -/
def separatorText (token : Token) : String :=
  if token.separator = "" then ", " else token.separator

/-- The recognition of a call with the given color in the spelling of the token. -/
def spelling (token : Token) (color : String) : Recognition :=
  { kind := token.kind, color, alpha := token.alpha, function := token.functionText,
    separator := token.separatorText }

/-- The spelling and the opacity of the token have the forms of a call. -/
structure Spells (token : Token) : Prop where
  /-- The name is that of the notation. -/
  function : Call.IsFunctionName token.kind.name.toList token.functionText.toList
  /-- The separator is one of two. -/
  separator : token.separatorText = ", " ∨ token.separatorText = " "
  /-- An opacity comes with what stands before it. -/
  alpha : token.alpha = "" ∨ Call.IsOpacity token.alpha.toList

/-- The layout of a call that is written in place of the token. -/
def layout (token : Token) (first second third : List Char) (arguments : Rgb String) :
    Call.Layout where
  function := token.functionText.toList
  first := first
  separator := token.separatorText.toList
  second := second
  third := third
  alpha := token.alpha.toList
  leading := []
  firstText := arguments.red.toList
  secondText := arguments.green.toList
  nextSeparator := token.separatorText.toList
  thirdText := arguments.blue.toList
  trailing := []

/-- A call of three arguments is written with the spelling of the token, one text after another. -/
theorem callText_eq_append (token : Token) (first second third : String) :
    token.callText first second third =
      token.functionText ++ "(" ++ first ++ token.separatorText ++ second ++ token.separatorText ++
        third ++ token.alpha ++ ")" :=
  rfl

/-- A call of three arguments has the layout of the token, whatever numbers the arguments write. -/
theorem callText_eq (token : Token) (first second third : List Char)
    (firstText secondText thirdText : String) :
    token.callText firstText secondText thirdText =
      String.ofList (token.layout first second third ⟨firstText, secondText, thirdText⟩).text := by
  rw [callText_eq_append, ← String.toList_inj, String.toList_ofList]
  simp [Call.Layout.text, Call.Layout.closing, layout]

/-- What is written between arguments separates them. -/
theorem isSeparator_of_style {separator : String} (h : separator = ", " ∨ separator = " ") :
    Call.IsSeparator separator.toList := by
  rcases h with rfl | rfl
  · exact .inl ⟨[], ',', [' '], by decide, by simp [Call.AllBlank], rfl,
      by simp [Call.AllBlank, isAsciiBlank]⟩
  · exact .inr ⟨by decide, by simp [Call.AllBlank, isAsciiBlank]⟩

/-- A call that is written in the spelling of a token has the form of a call as soon as its
arguments have theirs. -/
theorem layout_valid {token : Token} (h : token.Spells) {first second third : List Char}
    (arguments : Rgb String) {firstForm otherForm : List Char → List Char → Prop}
    (hfirst : firstForm first arguments.red.toList)
    (hsecond : otherForm second arguments.green.toList)
    (hthird : otherForm third arguments.blue.toList) :
    (token.layout first second third arguments).Valid token.kind.name.toList firstForm
      otherForm where
  function := h.function
  leading := by simp [layout, Call.AllBlank]
  first := hfirst
  separator := isSeparator_of_style h.separator
  second := hsecond
  nextSeparator := isSeparator_of_style h.separator
  third := hthird
  alpha := h.alpha.imp_left fun hnone => by simp [layout, hnone]
  trailing := by simp [layout, Call.AllBlank]

/-- A call in the spelling of the token is recognized with that spelling. -/
theorem toRecognition_layout {token : Token} (h : token.Spells) (first second third : List Char)
    (arguments : Rgb String) (color : String) :
    (token.layout first second third arguments).toCall.toRecognition token.kind color =
      token.spelling color := by
  have hstyle : (token.layout first second third arguments).toCall.separatorStyle =
      token.separatorText := by
    rw [Call.separatorStyle]
    rcases h.separator with hs | hs <;> simp [layout, hs]
  rw [Call.toRecognition, hstyle]
  simp [layout, spelling, String.ofList_toList]

/-! ## Rendering in each notation -/

/-- A color is written by putting the texts of the token around what it decides on. -/
theorem render_eq {token : Token} {color : String} {inscription : Inscription}
    (h : Inscription.ofColor color token.kind = .ok inscription) :
    token.render color = .ok (token.wording.text id token.kind inscription) := by
  rw [render, h]
  rfl

/-- A color that gives the arguments of a call is written as one. -/
theorem render_call {token : Token} {color first second third : String}
    (h : Inscription.ofColor color token.kind = .ok (.call first second third)) :
    token.render color = .ok (token.callText first second third) :=
  render_eq h

/-- A byte is written as an argument of `rgb`. -/
theorem component_toString (level : Fin 256) :
    Call.Component (toString (level : Int)).toList (toString (level : Int)).toList := by
  refine ⟨_, [], ?_, .inl rfl, (List.append_nil _).symm, rfl⟩
  rw [Numeral.toList_toString]
  exact isShortNumber_toDigits (by omega)

/-- Bytes are written as components that write them. -/
theorem render_rgb {token : Token} (hkind : token.kind = .rgb) (h : token.Spells) {color : String}
    (hcolor : Decode.isColor color.toList = true) :
    ∃ written, token.render color = .ok written ∧
      recognize written = .ok (some (token.spelling (lower color))) := by
  obtain ⟨levels, hlower, hlevels⟩ := exists_levels_of_isColor hcolor
  refine ⟨token.callText (toString (levels.red : Int)) (toString (levels.green : Int))
    (toString (levels.blue : Int)), ?_, ?_⟩
  · exact render_call (by rw [hkind]; exact Inscription.ofColor_rgb hlevels)
  · have hvalid := layout_valid h ⟨toString (levels.red : Int), toString (levels.green : Int),
        toString (levels.blue : Int)⟩
      (component_toString levels.red) (component_toString levels.green)
      (component_toString levels.blue)
    have hname : token.kind.name.toList = ['r', 'g', 'b'] := by rw [hkind]; decide
    rw [hname] at hvalid
    -- each level is read back from its digits, so the color is the one that was written
    have hshown : (token.layout (toString (levels.red : Int)).toList
        (toString (levels.green : Int)).toList (toString (levels.blue : Int)).toList
        ⟨toString (levels.red : Int), toString (levels.green : Int),
          toString (levels.blue : Int)⟩).toCall.rgbColor = .ok (lower color) := by
      simp only [Call.rgbColor, Rgb.ofComponents, layout, Channel.encodeComponent_toString,
        ok_bind, hlower]
      rfl
    have hrecognize := Call.recognize_rgbCall hvalid hshown
    rwa [← callText_eq, ← hkind, toRecognition_layout h] at hrecognize

/-- A number of degrees on one turn is written as the hue of `hsl`. -/
theorem degrees_toString {n : Nat} (hn : n < 360) :
    Call.Degrees (Nat.toDigits 10 n) (toString (n : Int)).toList := by
  refine ⟨isShortNumber_toDigits (by omega), [], ?_, .inl rfl⟩
  rw [List.append_nil, Numeral.toList_toString]

/-- A whole percentage is written as an argument of `hsl`. -/
theorem percentage_toString {n : Nat} (hn : n ≤ 100) :
    Call.Percentage (Nat.toDigits 10 n) (toString (n : Int) ++ "%").toList := by
  refine ⟨isShortNumber_toDigits (by omega), ?_⟩
  rw [String.toList_append, Numeral.toList_toString]
  rfl

/-- The layout of a whole hue and two whole percentages in place of the token. -/
def hslLayout (token : Token) (hue saturation lightness : Nat) : Call.Layout :=
  token.layout (Nat.toDigits 10 hue) (Nat.toDigits 10 saturation) (Nat.toDigits 10 lightness)
    ⟨toString (hue : Int), toString (saturation : Int) ++ "%", toString (lightness : Int) ++ "%"⟩

/-- A call of `hsl` that is written in the spelling of a token has the form of one. -/
theorem hslLayout_valid {token : Token} (hkind : token.kind = .hsl) (h : token.Spells)
    {hue saturation lightness : Nat} (hhue : hue < 360) (hs : saturation ≤ 100)
    (hl : lightness ≤ 100) :
    (token.hslLayout hue saturation lightness).Valid ['h', 's', 'l'] Call.Degrees
      Call.Percentage := by
  have hname : token.kind.name.toList = ['h', 's', 'l'] := by rw [hkind]; decide
  have hvalid := layout_valid h ⟨toString (hue : Int), toString (saturation : Int) ++ "%",
      toString (lightness : Int) ++ "%"⟩
    (degrees_toString hhue) (percentage_toString hs) (percentage_toString hl)
  rwa [hname] at hvalid

/-- What is written for a hue and two percentages is recognized. -/
theorem render_hsl {token : Token} (hkind : token.kind = .hsl) (h : token.Spells) {color : String}
    (hcolor : Decode.isColor color.toList = true) :
    ∃ hue saturation lightness : Nat, hue < 360 ∧ saturation ≤ 100 ∧ lightness ≤ 100 ∧
      token.render color = .ok (token.callText (toString (hue : Int))
        (toString (saturation : Int) ++ "%") (toString (lightness : Int) ++ "%")) ∧
      ∃ shown, IsCanonical shown ∧ recognize (token.callText (toString (hue : Int))
        (toString (saturation : Int) ++ "%") (toString (lightness : Int) ++ "%")) =
          .ok (some (token.spelling shown)) := by
  obtain ⟨hue, saturation, lightness, hhue, hs, hl, hofColor⟩ := Inscription.ofColor_hsl hcolor
  refine ⟨hue, saturation, lightness, hhue, hs, hl, render_call (hkind ▸ hofColor), ?_⟩
  have hvalid := hslLayout_valid hkind h hhue hs hl
  obtain ⟨shown, hshown, hcanonical⟩ := Call.hslColor_spec hvalid
  refine ⟨shown, hcanonical, ?_⟩
  have hrecognize := Call.recognize_hslCall hvalid hshown
  rwa [hslLayout, ← callText_eq, ← hkind, toRecognition_layout h] at hrecognize

/-- A keyword is written when the color has one, and a hex literal when it has none. -/
theorem render_named {token : Token} (hkind : token.kind = .named) {color : String}
    (hcolor : Decode.isColor color.toList = true) :
    ∃ written, token.render color = .ok written ∧
      recognize written = .ok (some
        { kind := if lower color ∈ Keyword.table.map Prod.snd then .named else .hex
          color := lower color }) := by
  obtain ⟨levels, hlower, -⟩ := exists_levels_of_isColor hcolor
  cases hname : Keyword.ofColor? color with
  | some name =>
    have hmem : lower color ∈ Keyword.table.map Prod.snd :=
      Keyword.ofColor?_isSome_iff.mp (by rw [hname]; rfl)
    refine ⟨name, by simp [render, Inscription.ofColor, Wording.text, hkind, hname], ?_⟩
    rw [recognize_keyword (Keyword.color?_of_ofColor? hname), if_pos hmem]
  | none =>
    have hmem : lower color ∉ Keyword.table.map Prod.snd := by
      rw [← Keyword.ofColor?_isSome_iff, hname]
      exact Bool.false_ne_true
    refine ⟨lower color, by simp [render, Inscription.ofColor, Wording.text, hkind, hname], ?_⟩
    have hliteral := recognize_literal levels (.inl rfl)
    rw [String.append_empty, ← hlower] at hliteral
    rw [hliteral, if_neg hmem]

/-- A color in place of a hex literal is recognized as that color, with the opacity of the
literal. -/
theorem render_hex {token : Token} (hkind : token.kind = .hex) (halpha : IsAlphaDigits token.alpha)
    {color : String} (hcolor : Decode.isColor color.toList = true) :
    ∃ written, token.render color = .ok written ∧
      recognize written =
        .ok (some { kind := .hex, color := lower color, alpha := token.alpha }) := by
  obtain ⟨levels, hlower, -⟩ := exists_levels_of_isColor hcolor
  refine ⟨lower color ++ token.alpha, ?_, by rw [hlower, recognize_literal levels halpha]⟩
  have hofColor : Inscription.ofColor color token.kind = .ok (.literal (lower color)) := by
    rw [hkind]
    rfl
  exact render_eq hofColor

/-- Every color of six digits can be written in place of every token, wherever the token comes
from. -/
theorem render_succeeds (token : Token) {color : String}
    (hcolor : Decode.isColor color.toList = true) :
    ∃ written, token.render color = .ok written := by
  obtain ⟨inscription, hinscription⟩ := Inscription.ofColor_succeeds hcolor token.kind
  exact ⟨_, render_eq hinscription⟩

/-! ## Recognized colors -/

/-- A recognized call is written with the name and the separator that it records. -/
theorem spells_of_wellFormed {token : Token} (h : token.toRecognition.WellFormed)
    (hkind : token.kind.isCall = true) :
    token.Spells ∧ token.functionText = token.function ∧ token.separatorText = token.separator := by
  obtain ⟨hfunction, hseparator, halpha⟩ := h.call_fields hkind
  -- only what was not recorded is replaced by a default, and a recognized call has recorded both
  have hne : token.function ≠ "" := by
    intro hempty
    rw [hempty] at hfunction
    cases hname : token.kind with
    | rgb => rcases hfunction with h | h <;> simp [hname, Notation.name] at h
    | hsl => rcases hfunction with h | h <;> simp [hname, Notation.name] at h
    | hex => simp [hname, Notation.isCall] at hkind
    | named => simp [hname, Notation.isCall] at hkind
  have hne' : token.separator ≠ "" := by
    intro hempty
    rw [hempty] at hseparator
    exact absurd hseparator (by decide)
  have hfunctionText : token.functionText = token.function := if_neg hne
  have hseparatorText : token.separatorText = token.separator := if_neg hne'
  exact ⟨⟨hfunctionText ▸ hfunction, hseparatorText ▸ hseparator, halpha⟩, hfunctionText,
    hseparatorText⟩

/-- A color that is rendered in place of a recognized one is recognized again. In a hex literal and
in a call of `rgb` only the color changes. In a call of `hsl` the spelling and the opacity stay, the
hue is written from 0 to 359 and both percentages from 0 to 100. A keyword is kept where the color
has one, else a hex literal takes its place. -/
theorem recognize_render {text : String} {token : Token}
    (htext : recognize text = .ok (some token.toRecognition)) {color : String}
    (hcolor : Decode.isColor color.toList = true) :
    ∃ written shown, token.render color = .ok written ∧ recognize written = .ok (some shown) ∧
      match token.kind with
      | .hex | .rgb => shown = { token.toRecognition with color := lower color }
      | .named => shown.color = lower color ∧ shown.alpha = "" ∧
          shown.kind = if lower color ∈ Keyword.table.map Prod.snd then .named else .hex
      | .hsl => shown.kind = .hsl ∧ shown.alpha = token.alpha ∧ shown.function = token.function ∧
          shown.separator = token.separator ∧
          ∃ hue saturation lightness : Nat, hue ≤ 359 ∧ saturation ≤ 100 ∧ lightness ≤ 100 ∧
            written = token.function ++ "(" ++ toString hue ++ token.separator ++
              toString saturation ++ "%" ++ token.separator ++ toString lightness ++ "%" ++
              token.alpha ++ ")" := by
  -- what was recognized is well formed, and that is all that rendering asks for
  have hwell : token.toRecognition.WellFormed := by
    obtain ⟨outcome, houtcome, hfound⟩ := recognize_spec text
    rw [htext] at houtcome
    exact hfound _ (Option.mem_def.mpr (Except.ok.inj houtcome).symm)
  cases hkind : token.kind with
  | hex =>
    obtain ⟨halpha, hfunction, hseparator⟩ := hwell.hex_fields hkind
    obtain ⟨written, hwritten, hshown⟩ := render_hex hkind halpha hcolor
    refine ⟨written, _, hwritten, hshown, ?_⟩
    simp [hkind, hfunction, hseparator]
  | rgb =>
    obtain ⟨hspells, hfunction, hseparator⟩ := spells_of_wellFormed hwell (by rw [hkind]; rfl)
    obtain ⟨written, hwritten, hshown⟩ := render_rgb hkind hspells hcolor
    refine ⟨written, _, hwritten, hshown, ?_⟩
    rw [spelling, hfunction, hseparator]
  | named =>
    obtain ⟨written, hwritten, hshown⟩ := render_named hkind hcolor
    exact ⟨written, _, hwritten, hshown, rfl, rfl, rfl⟩
  | hsl =>
    obtain ⟨hspells, hfunction, hseparator⟩ := spells_of_wellFormed hwell (by rw [hkind]; rfl)
    obtain ⟨hue, saturation, lightness, hhue, hs, hl, hwritten, shown, -, hshown⟩ :=
      render_hsl hkind hspells hcolor
    refine ⟨_, _, hwritten, hshown, hkind, rfl, hfunction, hseparator, hue, saturation, lightness,
      by omega, hs, hl, ?_⟩
    -- the parts are numbers of degrees and percentages, none of which has a sign
    have htext : ∀ n : Nat, toString (n : Int) = toString n := fun _ => rfl
    simp only [callText_eq_append, hfunction, hseparator, htext, String.append_assoc]

/-- A call in capitals with a percentage among its components and an opacity behind a slash. -/
theorem recognize_render_capital_call :
    let token : Token := ⟨⟨.rgb, "#0a331e", " / .5%", "RGBA", ", "⟩, 4, 27⟩
    recognize "\tRGBA(10 ,20%,\n30 / .5%) " = .ok (some token.toRecognition) ∧
      Decode.isColor "#FFaa0c".toList = true ∧
      ∃ written shown, token.render "#FFaa0c" = .ok written ∧ recognize written = .ok (some shown) ∧
        shown = { token.toRecognition with color := lower "#FFaa0c" } := by
  have htext : recognize "\tRGBA(10 ,20%,\n30 / .5%) " =
      .ok (some ⟨.rgb, "#0a331e", " / .5%", "RGBA", ", "⟩) := by decide +kernel
  have hcolor : Decode.isColor "#FFaa0c".toList = true := by decide
  exact ⟨htext, hcolor, recognize_render htext hcolor⟩

end Token

end CssColor
