import CssColor.Conversion
import CssColor.Proofs.Opacity
import CssColor.Proofs.Rendering
import CssColor.Proofs.Token

/-!
# Conversion keeps the color

A recognized color that is converted to any notation is recognized again, in that notation and with
the same opacity, measured as a byte. Only a translucent color, or one without a keyword, becomes a
hex literal where a keyword is asked for. The color itself stays as well, save for a call of `hsl`,
whose whole numbers cannot hold every color.

## Main definitions

* `Recognition.alphaByte`: the opacity of a recognized color as the two digits of a byte.
* `Recognition.Converts`: a recognized color is another one in the notation that is asked for.

## Main results

* `Recognition.opacity_spec`: what conversion takes from the opacity of a recognized color.
* `Recognition.exists_render`: a color in a well-formed spelling is rendered and recognized.
* `convert_succeeds`: conversion does not fail.
* `convert_preserves`: conversion keeps the notation that is asked for, the opacity and the color.
-/

namespace CssColor

open Text

/-! ## The opacity as a byte -/

/-- The characters that stand between the third argument of a call and its opacity. -/
def isOpacityMargin (c : Char) : Bool := isBlank c || c == ',' || c == '/'

/-- The opacity of a recognized color as the two digits of a byte. A color without an opacity is
opaque. -/
def Recognition.alphaByte (found : Recognition) : Except NumericError String :=
  if found.alpha = "" then return "ff"
  else if found.kind = .hex then return found.alpha
  else do
    let opacity ← Opacity.ofText (trim isOpacityMargin found.alpha.toList)
    return String.ofList (← Opacity.toHexDigits opacity)

/-! ## The argument of a call -/

/-- The characters of a number with an optional percent sign are none of those around it. -/
theorem isOpacityMargin_of_mem {value sign : List Char} (hvalue : Call.IsFraction value)
    (hsign : Call.IsSign sign) : ∀ c ∈ value ++ sign, isOpacityMargin c = false := by
  have hdigit : ∀ c : Char, c.isDigit = true → isOpacityMargin c = false := fun c hc =>
    forall_ascii (P := fun c => c.isDigit = true → isOpacityMargin c = false) (by decide +kernel)
      (toNat_lt_of_isDigit hc) hc
  intro c hc
  rcases List.mem_append.mp hc with hc | hc
  · rcases Opacity.isDigit_or_point_of_isFraction hvalue c hc with h | rfl
    · exact hdigit c h
    · decide
  · rcases hsign with rfl | rfl
    · exact absurd hc List.not_mem_nil
    · rw [List.mem_singleton.mp hc]
      decide

theorem isBlank_of_isOpacityMargin {c : Char} (h : isOpacityMargin c = false) :
    isBlank c = false := by
  simp only [isOpacityMargin, Bool.or_eq_false_iff] at h
  exact h.1.1

theorem isBlank_of_isAsciiBlank {c : Char} (h : isAsciiBlank c = true) : isBlank c = true := by
  simp [isBlank, isWhiteSpace, h]

section Argument

variable {leading value sign : List Char}
  (hleading : Call.IsMarked (fun c => c == ',' || c == '/') leading)
  (hvalue : Call.IsFraction value) (hsign : Call.IsSign sign)

include hleading hvalue hsign

/-- Taking off all marks and blanks leaves the number and its sign. -/
theorem trim_isOpacityMargin :
    trim isOpacityMargin (leading ++ value ++ sign) = value ++ sign := by
  obtain ⟨before, mark, after, rfl, hbefore, hmark, hafter⟩ := hleading
  have hmargin : ∀ c ∈ before ++ mark :: after, isOpacityMargin c = true := by
    intro c hc
    rw [isOpacityMargin, Bool.or_assoc, Bool.or_eq_true]
    rcases List.mem_append.mp hc with hc | hc
    · exact .inl (isBlank_of_isAsciiBlank (hbefore c hc))
    · rcases List.mem_cons.mp hc with rfl | hc
      · exact .inr hmark
      · exact .inl (isBlank_of_isAsciiBlank (hafter c hc))
  rw [List.append_assoc, trim_append hmargin,
    trim_eq_self_of_forall (isOpacityMargin_of_mem hvalue hsign)]

/-- Taking off the blanks, then the marks, then the blanks again leaves the number and its sign. -/
theorem trim_dropWhile_mark :
    trim isBlank ((trim isBlank (leading ++ value ++ sign)).dropWhile
      fun c => c == ',' || c == '/') = value ++ sign := by
  obtain ⟨before, mark, after, rfl, hbefore, hmark, hafter⟩ := hleading
  have hbody := isOpacityMargin_of_mem hvalue hsign
  have hbody' : ∀ c ∈ value ++ sign, isBlank c = false :=
    fun c hc => isBlank_of_isOpacityMargin (hbody c hc)
  have hne : value ++ sign ≠ [] := by
    obtain ⟨c, rest, hcons, -⟩ := hvalue.startsWith
    simp [hcons]
  have hassoc : before ++ mark :: after ++ value ++ sign =
      before ++ mark :: (after ++ (value ++ sign)) := by simp
  -- the first trim ends at the mark in front and at the number or its sign behind
  have hmark' : isBlank mark = false := by
    rcases Bool.or_eq_true_iff.mp hmark with h | h <;> rw [beq_iff_eq.mp h] <;> decide
  have hlast : ∀ c ∈ (mark :: (after ++ (value ++ sign))).getLast?, isBlank c = false := by
    intro c hc
    rw [← List.cons_append, List.getLast?_append_of_ne_nil _ hne] at hc
    exact hbody' c (List.mem_of_getLast? hc)
  -- only one mark is dropped, for neither a blank nor the number holds another
  have hstop : ∀ c ∈ (after ++ (value ++ sign)).head?, (c == ',' || c == '/') = false := by
    intro c hc
    rcases List.mem_append.mp (List.mem_of_mem_head? hc) with hc | hc
    · have hascii := hafter c hc
      simp only [Bool.or_eq_false_iff, beq_eq_false_iff_ne]
      constructor <;> rintro rfl <;> exact absurd hascii (by decide)
    · have hmargin := hbody c hc
      rw [isOpacityMargin, Bool.or_assoc, Bool.or_eq_false_iff] at hmargin
      exact hmargin.2
  have hdrop := (takeWhile_append_of_stop [mark] (after ++ (value ++ sign))
    (by simpa using hmark) hstop).2
  rw [List.singleton_append] at hdrop
  rw [hassoc, trim_append fun c hc => isBlank_of_isAsciiBlank (hbefore c hc),
    trim_eq_self (by simpa using hmark') hlast, hdrop,
    trim_append fun c hc => isBlank_of_isAsciiBlank (hafter c hc), trim_eq_self_of_forall hbody']

end Argument

/-! ## What conversion takes from the opacity -/

namespace Recognition

variable {found : Recognition}

/-- A color without an opacity is opaque. -/
theorem alphaByte_of_empty (h : found.alpha = "") : found.alphaByte = .ok "ff" := by
  rw [alphaByte, if_pos h]
  rfl

/-- A hex literal writes its opacity as the digits of a byte. -/
theorem alphaByte_of_hex (hkind : found.kind = .hex) (h : found.alpha ≠ "") :
    found.alphaByte = .ok found.alpha := by
  rw [alphaByte, if_neg h, if_pos hkind]
  rfl

/-- The byte of an opacity depends on how the opacity is written, and on whether hex digits write
it. -/
theorem alphaByte_congr {shown : Recognition} (halpha : shown.alpha = found.alpha)
    (hkind : shown.kind = .hex ↔ found.kind = .hex) : shown.alphaByte = found.alphaByte := by
  simp only [alphaByte, halpha, hkind]

/-- The byte of a call is that of the number which stands behind its last separator. -/
theorem alphaByte_of_call (hkind : found.kind ≠ .hex) {leading value sign : List Char}
    (htext : found.alpha.toList = leading ++ value ++ sign)
    (hleading : Call.IsMarked (fun c => c == ',' || c == '/') leading)
    (hvalue : Call.IsFraction value) (hsign : Call.IsSign sign) {opacity : Number}
    {digits : List Char} (hread : Opacity.ofText (value ++ sign) = .ok opacity)
    (hdigits : Opacity.toHexDigits opacity = .ok digits) :
    found.alpha ≠ "" ∧ found.alphaByte = .ok (String.ofList digits) := by
  have hne : found.alpha ≠ "" := by
    intro hempty
    obtain ⟨before, mark, after, rfl, -⟩ := hleading
    rw [hempty] at htext
    simp at htext
  refine ⟨hne, ?_⟩
  rw [alphaByte, if_neg hne, if_neg hkind, htext, trim_isOpacityMargin hleading hvalue hsign, hread,
    ok_bind, hdigits]
  rfl

/-- Conversion reads the opacity of a call as a number from zero to one, the one from which its byte
is computed. -/
theorem opacity_of_call (hkind : found.kind ≠ .hex) (h : Call.IsOpacity found.alpha.toList) :
    ∃ opacity q, ∃ level : Fin 256, found.opacity? = .ok (some opacity) ∧
      opacity.toRat? = some q ∧ q ≤ 1 ∧
      Opacity.toHexDigits opacity = .ok (Channel.hexPair level) ∧
      found.alphaByte = .ok (String.ofList (Channel.hexPair level)) := by
  obtain ⟨leading, value, sign, htext, hleading, hvalue, hsign⟩ := h
  obtain ⟨opacity, hread, q, hq, -, hq'⟩ := Opacity.ofText_spec hvalue hsign
  obtain ⟨level, hlevel⟩ := Opacity.toHexDigits_spec opacity
  obtain ⟨hne, hbyte⟩ := alphaByte_of_call hkind htext hleading hvalue hsign hread hlevel
  refine ⟨opacity, q, level, ?_, hq, hq', hlevel, hbyte⟩
  rw [opacity?, if_neg hne, if_neg hkind, htext]
  dsimp only
  rw [trim_dropWhile_mark hleading hvalue hsign, hread]
  rfl

theorem opacity_of_empty (h : found.alpha = "") : found.opacity? = .ok none := by
  rw [opacity?, if_pos h]
  rfl

/-- Conversion reads the opacity of a hex literal as a byte divided by 255. -/
theorem opacity_of_literal (h : found.WellFormed) (hkind : found.kind = .hex)
    (halpha : found.alpha ≠ "") :
    ∃ level : Fin 256, ∃ f : Binary64, found.alpha = String.ofList (Channel.hexPair level) ∧
      found.opacity? = .ok (some (.float f)) ∧
      f.toRat? = some (Binary64.roundRat (level / 255)) := by
  obtain ⟨level, hlevel⟩ := (h.hex_fields hkind).1.resolve_left halpha
  obtain ⟨f, hf, hvalue⟩ := Opacity.ofHexDigits_hexPair level
  refine ⟨level, f, hlevel, ?_, hvalue⟩
  rw [opacity?, if_neg halpha, if_pos hkind, hlevel, String.toList_ofList, hf]
  rfl

/-- The digits that conversion writes into a hex literal are those of the opacity as a byte, or none
exactly for a color without an opacity. A color whose opacity is not below one is opaque. -/
theorem opacity_spec (h : found.WellFormed) :
    ∃ opacity digits alpha, found.opacity? = .ok opacity ∧ found.alphaByte = .ok digits ∧
      found.alphaDigits opacity = .ok alpha ∧ IsAlphaDigits alpha ∧
      (alpha = "" ↔ found.alpha = "") ∧ digits = (if alpha = "" then "ff" else alpha) ∧
      ((opacity.any fun value => value.lt 1) = false → digits = "ff") := by
  by_cases halpha : found.alpha = ""
  · exact ⟨none, "ff", "", opacity_of_empty halpha, alphaByte_of_empty halpha, rfl, .inl rfl,
      iff_of_true rfl halpha, rfl, fun _ => rfl⟩
  by_cases hkind : found.kind = .hex
  · obtain ⟨level, f, hlevel, hopacity, hvalue⟩ := opacity_of_literal h hkind halpha
    refine ⟨some (.float f), found.alpha, found.alpha, hopacity, alphaByte_of_hex hkind halpha,
      if_pos hkind, .inr ⟨level, hlevel⟩, Iff.rfl, (if_neg halpha).symm, fun hsolid => ?_⟩
    · -- every byte but the last is below one, even where the quotient is rounded
      have hlast : level = 255 := by
        by_contra hne
        rw [Option.any_some, (Opacity.lt_one_iff hvalue).mpr hne] at hsolid
        exact Bool.false_ne_true hsolid.symm
      rw [hlevel, hlast]
      decide
  · have hcall : Call.IsOpacity found.alpha.toList := by
      cases h with
      | hex _ _ => exact absurd rfl hkind
      | named _ => exact absurd rfl halpha
      | call _ _ _ _ h => exact h.resolve_left halpha
    obtain ⟨opacity, q, level, hopacity, hq, hq', hlevel, hbyte⟩ := opacity_of_call hkind hcall
    have hpair : String.ofList (Channel.hexPair level) ≠ "" := by simp [Channel.hexPair]
    refine ⟨some opacity, _, String.ofList (Channel.hexPair level), hopacity, hbyte, ?_,
      .inr ⟨level, rfl⟩, iff_of_false hpair halpha, (if_neg hpair).symm, fun hsolid => ?_⟩
    · rw [alphaDigits, if_neg hkind, hlevel]
      rfl
    · -- the opacity of a call never exceeds one, so this one is one
      have hdigits := Opacity.toHexDigits_of_not_lt hq hq' (by simpa using hsolid)
      rw [hlevel] at hdigits
      rw [Except.ok.inj hdigits]

/-! ## Rendering on its own -/

/-- A recognized color has the notation that is asked for and is otherwise as the given one. A hex
literal may take the place of a keyword, which writes no opacity, and a call of `hsl` may round the
color. -/
structure Converts (found : Recognition) (target : Notation) (shown : Recognition) : Prop where
  /-- The notation is the one that is asked for, or that of a hex literal in place of a keyword. -/
  kind : shown.kind = target ∨ target = .named ∧ shown.kind = .hex
  /-- The opacity is the same byte. -/
  alphaByte : shown.alphaByte = found.alphaByte
  /-- An opacity is written where one was. -/
  alpha_eq_empty_iff : target ≠ .named → (shown.alpha = "" ↔ found.alpha = "")
  /-- The color is the same. -/
  color : target ≠ .hsl → shown.color = found.color

/-- What converts a color also converts any other of the same color and opacity. -/
theorem Converts.of_eq {other shown : Recognition} {target : Notation}
    (h : other.Converts target shown) (halpha : other.alphaByte = found.alphaByte)
    (hempty : target ≠ .named → (other.alpha = "" ↔ found.alpha = ""))
    (hcolor : other.color = found.color) : found.Converts target shown where
  kind := h.kind
  alphaByte := h.alphaByte.trans halpha
  alpha_eq_empty_iff := fun htarget => (h.alpha_eq_empty_iff htarget).trans (hempty htarget)
  color := fun htarget => (h.color htarget).trans hcolor

/-- Rendering a recognition is rendering it as a token with some span, which is never looked at. -/
theorem render_eq (hcolor : IsCanonical found.color) (color : String) :
    found.render color = Error.ofNumeric ((found.spanning 0 1).render color) := by
  have hbuild : Token.build found 0 1 = .valid (found.spanning 0 1) :=
    Token.build_eq_valid_iff.mpr ⟨⟨le_rfl, Int.one_pos, hcolor.isColor⟩, rfl⟩
  rw [render, hbuild]
  rfl

/-- A color in a well-formed spelling is rendered, and the text is recognized with the same opacity.
A keyword that does not exist gives way to a hex literal. -/
theorem exists_render (found : Recognition) (hcolor : IsCanonical found.color)
    (hhex : found.kind = .hex → IsAlphaDigits found.alpha)
    (hnamed : found.kind = .named → found.alpha = "")
    (hcall : found.kind.isCall = true → (found.spanning 0 1).Spells) :
    ∃ written shown, found.render found.color = .ok written ∧ recognize written = .ok (some shown) ∧
      found.Converts found.kind shown := by
  rw [render_eq hcolor]
  have hlower := hcolor.lower_eq
  have hspanning : (found.spanning 0 1).kind = found.kind := rfl
  -- a canonical color is in lower case, so it comes back as it was given
  cases hkind : found.kind with
  | hex =>
    obtain ⟨written, hwritten, hshown⟩ :=
      Token.render_hex (hspanning.trans hkind) (hhex hkind) hcolor.isColor
    rw [hlower] at hshown
    refine ⟨written, _, by rw [hwritten]; rfl, hshown, .inl rfl, ?_, fun _ => Iff.rfl, fun _ => rfl⟩
    exact alphaByte_congr rfl (iff_of_true rfl hkind)
  | rgb =>
    obtain ⟨written, hwritten, hshown⟩ := Token.render_rgb (hspanning.trans hkind)
      (hcall (by rw [hkind]; rfl)) hcolor.isColor
    rw [hlower] at hshown
    refine ⟨written, _, by rw [hwritten]; rfl, hshown, .inl hkind, ?_, fun _ => Iff.rfl,
      fun _ => rfl⟩
    exact alphaByte_congr rfl Iff.rfl
  | hsl =>
    obtain ⟨hue, saturation, lightness, -, -, -, hwritten, shown, -, hshown⟩ :=
      Token.render_hsl (hspanning.trans hkind) (hcall (by rw [hkind]; rfl)) hcolor.isColor
    refine ⟨_, _, by rw [hwritten]; rfl, hshown, .inl hkind, ?_, fun _ => Iff.rfl,
      fun h => absurd rfl h⟩
    exact alphaByte_congr rfl Iff.rfl
  | named =>
    obtain ⟨written, hwritten, hshown⟩ :=
      Token.render_named (hspanning.trans hkind) hcolor.isColor
    rw [hlower] at hshown
    refine ⟨written, _, by rw [hwritten]; rfl, hshown, ?_, ?_, fun h => absurd rfl h, fun _ => rfl⟩
    · dsimp only
      split_ifs
      · exact .inl rfl
      · exact .inr ⟨rfl, rfl⟩
    · rw [alphaByte_of_empty rfl, alphaByte_of_empty (hnamed hkind)]

/-! ## Conversion -/

/-- A call without a recorded name is written with the name of its notation. -/
theorem spells_of_call (hkind : found.kind.isCall = true) (hfunction : found.function = "")
    (hseparator : found.separator = "" ∨ found.separator = ", " ∨ found.separator = " ")
    (halpha : found.alpha = "" ∨ Call.IsOpacity found.alpha.toList) :
    (found.spanning 0 1).Spells where
  function := by
    have hname : (found.spanning 0 1).functionText = found.kind.name := if_pos hfunction
    rw [hname]
    refine .inl ?_
    change found.kind.name.toList.map Char.toLower = found.kind.name.toList
    cases hkind' : found.kind with
    | rgb => decide
    | hsl => decide
    | hex => simp [hkind', Notation.isCall] at hkind
    | named => simp [hkind', Notation.isCall] at hkind
  separator := by
    have hseparatorText : (found.spanning 0 1).separatorText =
        if found.separator = "" then ", " else found.separator := rfl
    rw [hseparatorText]
    rcases hseparator with h | h | h <;> simp [h]
  alpha := halpha

/-- A decimal behind a comma and a blank is an opacity. -/
theorem isOpacity_of_isFraction {text : List Char} (h : Call.IsFraction text) :
    Call.IsMarked (fun c => c == ',' || c == '/') [',', ' '] ∧
      Call.IsOpacity (", " ++ String.ofList text).toList := by
  have hmarked : Call.IsMarked (fun c => c == ',' || c == '/') [',', ' '] :=
    ⟨[], ',', [' '], rfl, by simp [Call.AllBlank], rfl, by simp [Call.AllBlank, isAsciiBlank]⟩
  refine ⟨hmarked, [',', ' '], text, [], ?_, hmarked, h, .inl rfl⟩
  simp

/-- A call is rendered from a well-formed spelling with the same color and the same opacity. -/
theorem template_spec (h : found.WellFormed) {target : Notation} (htarget : target.isCall = true)
    {opacity : Option Number} (hopacity : found.opacity? = .ok opacity) :
    Yields (found.template target opacity) fun template =>
      template.kind = target ∧ template.color = found.color ∧ (template.spanning 0 1).Spells ∧
        template.alphaByte = found.alphaByte ∧ (template.alpha = "" ↔ found.alpha = "") := by
  have hnamed : target ≠ .named := by rintro rfl; simp [Notation.isCall] at htarget
  have hhex : target ≠ .hex := by rintro rfl; simp [Notation.isCall] at htarget
  rw [template.eq_def, if_neg hnamed]
  by_cases hkind : found.kind.isCall = true
  · -- between calls the opacity stays as written, with what stands before it
    obtain ⟨-, hseparator, halpha⟩ := h.call_fields hkind
    rw [if_pos hkind]
    refine .ok ⟨rfl, rfl, spells_of_call htarget rfl (.inr hseparator) halpha, ?_, Iff.rfl⟩
    refine alphaByte_congr rfl (iff_of_false hhex ?_)
    intro hfound
    simp [hfound, Notation.isCall] at hkind
  rw [if_neg hkind]
  by_cases halpha : found.alpha = ""
  · obtain rfl : none = opacity := by
      rw [opacity_of_empty halpha] at hopacity
      exact Except.ok.inj hopacity
    refine .ok ⟨rfl, rfl, spells_of_call htarget rfl (.inl rfl) (.inl rfl), ?_,
      iff_of_true rfl halpha⟩
    rw [alphaByte_of_empty rfl, alphaByte_of_empty halpha]
  · -- only a hex literal is left, whose byte is written with three decimals
    have hfound : found.kind = .hex := by
      cases h with
      | hex _ _ => rfl
      | named _ => exact absurd rfl halpha
      | call hcall _ _ _ _ => exact absurd hcall hkind
    obtain ⟨level, f, hlevel, hopacity', hvalue⟩ := opacity_of_literal h hfound halpha
    obtain rfl : some (.float f) = opacity := by
      rw [hopacity'] at hopacity
      exact Except.ok.inj hopacity
    obtain ⟨text, htext, hfraction, value, hread, hdigits⟩ := Opacity.write_hexPair hvalue
    obtain ⟨hmarked, hform⟩ := isOpacity_of_isFraction hfraction
    dsimp only
    rw [htext, ok_bind]
    let call : Recognition :=
      { kind := target, color := found.color, alpha := ", " ++ String.ofList text }
    have halpha' : call.alpha.toList = [',', ' '] ++ text ++ [] := by simp [call]
    obtain ⟨hne, hbyte⟩ := alphaByte_of_call (show call.kind ≠ .hex from hhex) halpha' hmarked
      hfraction (.inl rfl) (by rwa [List.append_nil]) hdigits
    refine .ok ⟨rfl, rfl, spells_of_call htarget rfl (.inl rfl) (.inr hform), ?_,
      iff_of_false hne halpha⟩
    rw [alphaByte_of_hex hfound halpha, hlevel]
    exact hbyte

/-- The byte of the opacity that a hex literal writes. -/
theorem alphaByte_literal {color alpha : String} :
    alphaByte { kind := .hex, color, alpha } = .ok (if alpha = "" then "ff" else alpha) := by
  by_cases halpha : alpha = ""
  · rw [alphaByte_of_empty halpha, if_pos halpha]
  · rw [alphaByte_of_hex rfl halpha, if_neg halpha]

/-- The hex literal of a color, with the digits of its opacity, converts it to a hex literal and in
place of a keyword. -/
theorem converts_literal {target : Notation} (htarget : target = .hex ∨ target = .named)
    (h : IsCanonical found.color) {digits alpha : String} (hbyte : found.alphaByte = .ok digits)
    (halpha : IsAlphaDigits alpha) (hempty : alpha = "" ↔ found.alpha = "")
    (hdigits : digits = if alpha = "" then "ff" else alpha) :
    ∃ shown, recognize (hexLiteralText found.color alpha) = .ok (some shown) ∧
      found.Converts target shown := by
  have hliteral : recognize (hexLiteralText found.color alpha) =
      .ok (some { kind := .hex, color := found.color, alpha }) := by
    have hlower := h.lower_eq
    obtain ⟨levels, hlevels⟩ := h
    rw [hexLiteralText, hlower, hlevels]
    exact recognize_literal levels halpha
  refine ⟨_, hliteral, htarget.imp Eq.symm fun hnamed => ⟨hnamed, rfl⟩, ?_, fun _ => hempty,
    fun _ => rfl⟩
  rw [alphaByte_literal, hbyte, hdigits]

/-- A keyword writes no opacity, and none is lost where the color is opaque. -/
theorem converts_keyword (h : IsCanonical found.color) (hsolid : found.alphaByte = .ok "ff") :
    ∃ written shown, render { kind := .named, color := found.color } found.color = .ok written ∧
      recognize written = .ok (some shown) ∧ found.Converts .named shown := by
  obtain ⟨written, shown, hwritten, hshown, hconverts⟩ :=
    exists_render { kind := .named, color := found.color } h (fun h => by simp at h) (fun _ => rfl)
      (fun h => by simp [Notation.isCall] at h)
  refine ⟨written, shown, hwritten, hshown, hconverts.of_eq ?_ (fun h => absurd rfl h) rfl⟩
  rw [alphaByte_of_empty rfl, hsolid]

/-- The template of a call converts a color to that call. -/
theorem converts_call (h : found.WellFormed) {target : Notation} (htarget : target.isCall = true)
    {opacity : Option Number} (hopacity : found.opacity? = .ok opacity) :
    ∃ template written shown, found.template target opacity = .ok template ∧
      template.render found.color = .ok written ∧ recognize written = .ok (some shown) ∧
      found.Converts target shown := by
  obtain ⟨template, htemplate, hkind, hcolor, hspells, hbyte, hempty⟩ :=
    template_spec h htarget hopacity
  subst hkind
  obtain ⟨written, shown, hwritten, hshown, hconverts⟩ :=
    exists_render template (hcolor ▸ h.isCanonical)
      (fun h => by simp [h, Notation.isCall] at htarget)
      (fun h => by simp [h, Notation.isCall] at htarget) (fun _ => hspells)
  rw [hcolor] at hwritten
  exact ⟨template, written, shown, htemplate, hwritten, hshown,
    hconverts.of_eq hbyte (fun _ => hempty) hcolor⟩

/-- A well-formed color is converted to a text that is recognized in the target notation, with the
same opacity and, save for a call of `hsl`, the same color. -/
theorem convert_spec (h : found.WellFormed) (target : Notation) :
    ∃ written shown, found.convert target = .ok written ∧ recognize written = .ok (some shown) ∧
      found.Converts target shown := by
  obtain ⟨opacity, digits, alpha, hopacity, hbyte, hwritten, halpha, hempty, hdigits, hsolid⟩ :=
    opacity_spec h
  rw [convert]
  by_cases hsame : target = found.kind
  · -- the notation stays, and so does the spelling
    have htoken : (found.spanning 0 1).toRecognition.WellFormed := h
    rw [if_pos hsame, hsame]
    exact exists_render found h.isCanonical (fun hhex => (h.hex_fields hhex).1) h.named_fields
      fun hcall => (Token.spells_of_wellFormed htoken hcall).1
  rw [if_neg hsame, hopacity, Error.ofNumeric_ok, ok_bind]
  dsimp only
  by_cases hliteral : target = .hex ∨
      (target = .named ∧ (opacity.any fun value => value.lt 1) = true)
  · obtain ⟨shown, hshown, hconverts⟩ :=
      converts_literal (hliteral.imp_right And.left) h.isCanonical hbyte halpha hempty hdigits
    rw [if_pos hliteral, hwritten, Error.ofNumeric_ok, ok_bind]
    exact ⟨_, shown, rfl, hshown, hconverts⟩
  rw [if_neg hliteral]
  obtain ⟨hhex, htranslucent⟩ := not_or.mp hliteral
  by_cases hnamed : target = .named
  · -- a translucent color has become a hex literal above, so this one is opaque
    subst hnamed
    have hdigits' : digits = "ff" := hsolid (by simpa using htranslucent)
    rw [template.eq_def, if_pos rfl]
    exact converts_keyword h.isCanonical (hdigits' ▸ hbyte)
  · have htarget : target.isCall = true := by
      cases target with
      | rgb => rfl
      | hsl => rfl
      | hex => exact absurd rfl hhex
      | named => exact absurd rfl hnamed
    obtain ⟨template, written, shown, htemplate, hwritten', hshown, hconverts⟩ :=
      converts_call h htarget hopacity
    rw [htemplate, Error.ofNumeric_ok, ok_bind]
    exact ⟨written, shown, hwritten', hshown, hconverts⟩

end Recognition

/-- A text is converted as the color that it is recognized as. -/
theorem convert_of_recognize {text : String} {found : Recognition}
    (h : recognize text = .ok (some found)) (target : Notation) :
    convert text target = (found.convert target).map some := by
  rw [convert, h, Error.ofNumeric_ok, ok_bind]
  dsimp only
  cases found.convert target <;> rfl

/-- A text that is no color is converted to nothing. -/
theorem convert_of_recognize_none {text : String} (h : recognize text = .ok none)
    (target : Notation) : convert text target = .ok none := by
  rw [convert, h]
  rfl

/-- Conversion does not fail, whatever the text and the notation. -/
theorem convert_succeeds (text : String) (target : Notation) :
    ∃ outcome, convert text target = .ok outcome := by
  obtain ⟨outcome, houtcome, hwell⟩ := recognize_spec text
  cases outcome with
  | none => exact ⟨none, convert_of_recognize_none houtcome target⟩
  | some found =>
    obtain ⟨written, -, hwritten, -⟩ := Recognition.convert_spec (hwell found rfl) target
    exact ⟨some written, by rw [convert_of_recognize houtcome, hwritten]; rfl⟩

/-- Conversion of any text to any notation. Recognizing the text does not fail, and there is a
result exactly when it is a color. The result is a color again: in the notation that was asked for,
where a hex literal may take the place of a keyword, with the same opacity as a byte, and of the
same color unless a call of `hsl` was asked for. -/
theorem convert_preserves (text : String) (target : Notation) :
    (∃ outcome, recognize text = .ok outcome) ∧
      (convert text target = .ok none ↔ recognize text = .ok none) ∧
      ∀ found, recognize text = .ok (some found) →
        ∃ written shown digits, convert text target = .ok (some written) ∧
          recognize written = .ok (some shown) ∧
          (shown.kind = target ∨ target = .named ∧ shown.kind = .hex) ∧
          found.alphaByte = .ok digits ∧ shown.alphaByte = .ok digits ∧
          (target ∈ [Notation.hex, .rgb, .named] → shown.color = found.color) := by
  obtain ⟨outcome, houtcome, hwell⟩ := recognize_spec text
  rw [convert, houtcome, Error.ofNumeric_ok, ok_bind]
  refine ⟨⟨outcome, rfl⟩, ?_⟩
  cases outcome with
  | none => simp
  | some found =>
    obtain ⟨-, digits, -, -, hbyte, -⟩ := Recognition.opacity_spec (hwell found rfl)
    obtain ⟨written, shown, hwritten, hshown, hconverts⟩ :=
      Recognition.convert_spec (hwell found rfl) target
    dsimp only
    rw [hwritten, ok_bind]
    -- recognizing has one outcome, so this is the color that was converted
    refine ⟨by simp, fun found' hfound => ?_⟩
    obtain rfl : found = found' := Option.some.inj (Except.ok.inj hfound)
    refine ⟨written, shown, digits, rfl, hshown, hconverts.kind, hbyte,
      hconverts.alphaByte.trans hbyte, fun htarget => hconverts.color ?_⟩
    rintro rfl
    simp at htarget

/-- A translucent hex literal with four digits, in capitals and between blanks. -/
theorem convert_preserves_short_literal :
    recognize " #369C\n" = .ok (some ⟨.hex, "#336699", "cc", "", ""⟩) ∧
      ∃ written shown, convert " #369C\n" .rgb = .ok (some written) ∧
        recognize written = .ok (some shown) ∧ shown.kind = .rgb ∧ shown.alphaByte = .ok "cc" ∧
        shown.color = "#336699" := by
  have htext : recognize " #369C\n" = .ok (some ⟨.hex, "#336699", "cc", "", ""⟩) := by
    decide +kernel
  obtain ⟨written, shown, digits, hwritten, hshown, hkind, hbyte, hbyte', hcolor⟩ :=
    (convert_preserves " #369C\n" .rgb).2.2 _ htext
  have hdigits : digits = "cc" := by
    rw [Recognition.alphaByte_of_hex rfl (by decide)] at hbyte
    exact (Except.ok.inj hbyte).symm
  exact ⟨htext, written, shown, hwritten, hshown, by simpa using hkind, hdigits ▸ hbyte',
    hcolor (by decide)⟩

end CssColor
