import CssColor.Proofs.Conversion

/-!
# Asking for a keyword twice

A color that is asked for as a keyword becomes its keyword, the hex literal of an opaque color, or
the hex literal of a translucent one. Whether it counts as translucent is decided on the opacity as
it is read, while the literal carries the opacity as a byte. The two agree for every literal and
keyword. They differ for a call whose opacity is read as a number below one that rounds to the last
byte: its literal ends in `ff`, and asking for a keyword once more drops these digits.

## Main definitions

* `Keyword.orLiteral`: the keyword of a color, or its hex literal.
* `Recognition.Translucent`: the opacity is read as a number below one.
* `Recognition.NearlyOpaque`: it is, and its byte is that of an opaque color.

## Main results

* `Recognition.convert_named`: the keyword form of a recognized color.
* `convert_orLiteral`: the keyword form of an opaque color is its own keyword form.
* `convert_named_eq_self_iff`: asking twice changes the result for nearly opaque colors only, and
  asking a third time changes nothing.
* `convert_named_not_idempotent`: there are nearly opaque colors.
-/

namespace CssColor

open Text

/-- The keyword of a color, or its hex literal when it has none. -/
def Keyword.orLiteral (color : String) : String := (Keyword.ofColor? color).getD color

/-- The opacity of the color is read as a number below one. -/
def Recognition.Translucent (found : Recognition) : Prop :=
  ∃ opacity, found.opacity? = .ok (some opacity) ∧ opacity.lt 1 = true

/-- The opacity is read as a number below one, but the nearest byte is the last one. -/
def Recognition.NearlyOpaque (found : Recognition) : Prop :=
  found.Translucent ∧ found.alphaByte = .ok "ff"

/-! ## The keyword form of a recognized color -/

namespace Recognition

variable {found : Recognition}

/-- The keyword form of an opaque color, in whichever notation it was. -/
theorem render_named_eq {color : String} (h : IsCanonical color) (hkind : found.kind = .named)
    (hcolor : found.color = color) : found.render color = .ok (Keyword.orLiteral color) := by
  subst hcolor
  have hspanning : (found.spanning 0 1).kind = .named := hkind
  rw [render_eq h, Token.render, hspanning]
  show Except.ok ((Keyword.ofColor? found.color).getD (lower found.color)) = _
  rw [h.lower_eq, Keyword.orLiteral]

theorem not_translucent_of_empty (h : found.alpha = "") : ¬ found.Translucent := by
  rintro ⟨opacity, hopacity, -⟩
  rw [opacity_of_empty h] at hopacity
  exact absurd (Except.ok.inj hopacity) (by simp)

/-- The digits of a hex literal say whether it is translucent. -/
theorem translucent_literal_iff (h : found.WellFormed) (hkind : found.kind = .hex)
    (halpha : found.alpha ≠ "") : found.Translucent ↔ found.alpha ≠ "ff" := by
  obtain ⟨level, f, hlevel, hopacity, hvalue⟩ := opacity_of_literal h hkind halpha
  have hlast : level = 255 ↔ found.alpha = "ff" := by
    rw [hlevel]
    constructor
    · rintro rfl
      decide
    · intro hdigits
      have hpair : Channel.hexPair level = Channel.hexPair (255 : Fin 256) := by
        rw [← String.toList_ofList (l := Channel.hexPair level), hdigits]
        decide
      -- two digits are read as the byte that they were written for
      have hread := Channel.read_hexPair level
      rw [hpair, Channel.read_hexPair] at hread
      have hvalue : ((255 : Fin 256) : Int) = (level : Int) := Except.ok.inj hread
      omega
  rw [ne_eq, ← hlast, ← ne_eq, ← Opacity.lt_one_iff hvalue, Translucent, hopacity]
  constructor
  · rintro ⟨opacity, heq, hlt⟩
    obtain rfl : .float f = opacity := Option.some.inj (Except.ok.inj heq)
    exact hlt
  · intro hlt
    exact ⟨_, rfl, hlt⟩

/-- The keyword form of a recognized color: without its opacity when it is not translucent, and with
the byte of the opacity when it is. -/
theorem convert_named (h : found.WellFormed) :
    (¬ found.Translucent ∧ found.convert .named = .ok (Keyword.orLiteral found.color)) ∨
      (found.Translucent ∧ ∃ digits, found.alphaByte = .ok digits ∧ IsAlphaDigits digits ∧
        digits ≠ "" ∧ found.convert .named = .ok (found.color ++ digits)) := by
  by_cases hkind : found.kind = .named
  · -- a keyword is rendered anew, which may choose another keyword of the same color
    refine .inl ⟨not_translucent_of_empty (h.named_fields hkind), ?_⟩
    rw [convert, if_pos hkind.symm]
    exact render_named_eq h.isCanonical hkind rfl
  obtain ⟨opacity, digits, alpha, hopacity, hbyte, hwritten, halpha, hempty, hdigits, -⟩ :=
    opacity_spec h
  rw [convert, if_neg (Ne.symm hkind), hopacity, Error.ofNumeric_ok, ok_bind]
  dsimp only
  by_cases hlow : ∃ value, opacity = some value ∧ value.lt 1 = true
  · obtain ⟨value, rfl, hlt⟩ := hlow
    have htranslucent : found.Translucent := ⟨value, hopacity, hlt⟩
    have hne : alpha ≠ "" := by
      intro hnone
      exact not_translucent_of_empty (hempty.mp hnone) htranslucent
    rw [if_neg hne] at hdigits
    subst hdigits
    refine .inr ⟨htranslucent, digits, hbyte, halpha, hne, ?_⟩
    rw [if_pos (.inr ⟨rfl, by simpa using hlt⟩), hwritten, Error.ofNumeric_ok, ok_bind,
      hexLiteralText, h.isCanonical.lower_eq]
    rfl
  · have hsolid : ¬ found.Translucent := by
      rintro ⟨value, hvalue, hlt⟩
      exact hlow ⟨value, Except.ok.inj (hopacity.symm.trans hvalue), hlt⟩
    refine .inl ⟨hsolid, ?_⟩
    have hany : ¬ (Notation.named = .hex ∨
        (Notation.named = .named ∧ (opacity.any fun value => value.lt 1) = true)) := by
      simpa [Option.any_eq_true] using hlow
    rw [if_neg hany, template.eq_def, if_pos rfl, pure_eq_ok, Error.ofNumeric_ok, ok_bind]
    exact render_named_eq h.isCanonical rfl rfl

end Recognition

/-! ## Asking again -/

/-- The keyword form of an opaque color is recognized as that color without an opacity. -/
theorem recognize_orLiteral {color : String} (h : IsCanonical color) :
    ∃ kind, recognize (Keyword.orLiteral color) = .ok (some { kind, color }) := by
  cases hname : Keyword.ofColor? color with
  | some name =>
    have hcolor := Keyword.color?_of_ofColor? hname
    rw [h.lower_eq] at hcolor
    refine ⟨.named, ?_⟩
    rw [Keyword.orLiteral, hname]
    exact recognize_keyword hcolor
  | none =>
    obtain ⟨levels, rfl⟩ := h
    refine ⟨.hex, ?_⟩
    rw [Keyword.orLiteral, hname, ← recognize_literal levels (.inl rfl), String.append_empty]
    rfl

/-- The keyword form of an opaque color is its own keyword form. -/
theorem convert_orLiteral {color : String} (h : IsCanonical color) :
    convert (Keyword.orLiteral color) .named = .ok (some (Keyword.orLiteral color)) := by
  obtain ⟨kind, hshown⟩ := recognize_orLiteral h
  have hwell := (recognize_spec _).of_eq_ok hshown _ rfl
  rw [convert_of_recognize hshown]
  rcases Recognition.convert_named hwell with ⟨-, hwritten⟩ | ⟨htranslucent, -⟩
  · rw [hwritten]
    rfl
  · exact absurd htranslucent (Recognition.not_translucent_of_empty rfl)

/-- The hex literal of a color and its opacity is its own keyword form, save for the digits of an
opaque color, which are dropped. -/
theorem convert_literal_named {color digits : String} (h : IsCanonical color)
    (halpha : IsAlphaDigits digits) (hne : digits ≠ "") :
    convert (color ++ digits) .named =
      .ok (some (if digits = "ff" then Keyword.orLiteral color else color ++ digits)) := by
  have hshown : recognize (color ++ digits) =
      .ok (some { kind := .hex, color, alpha := digits }) := by
    obtain ⟨levels, rfl⟩ := h
    exact recognize_literal levels halpha
  have hwell := Recognition.WellFormed.hex h halpha
  -- only the last byte is opaque, so the digits decide whether a keyword may be written
  have htranslucent := Recognition.translucent_literal_iff hwell rfl hne
  rw [convert_of_recognize hshown]
  rcases Recognition.convert_named hwell with
    ⟨hsolid, hwritten⟩ | ⟨hlow, byte, hbyte, -, -, hwritten⟩
  · rw [hwritten, if_pos (by simpa using htranslucent.not.mp hsolid)]
    rfl
  · rw [Recognition.alphaByte_of_hex rfl hne] at hbyte
    obtain rfl : digits = byte := Except.ok.inj hbyte
    rw [hwritten, if_neg (htranslucent.mp hlow)]
    rfl

/-- The digits of an opaque color are dropped. -/
theorem convert_opaque_literal {color : String} (h : IsCanonical color) :
    convert (color ++ "ff") .named = .ok (some (Keyword.orLiteral color)) := by
  have hdigits : IsAlphaDigits "ff" := .inr ⟨255, by decide⟩
  rw [convert_literal_named h hdigits (by decide), if_pos rfl]

/-- No keyword form of an opaque color carries the digits of an opacity. -/
theorem orLiteral_ne_append {color digits : String} (h : IsCanonical color) (hne : digits ≠ "") :
    Keyword.orLiteral color ≠ color ++ digits := by
  cases hname : Keyword.ofColor? color with
  | some name =>
    obtain ⟨-, hletters⟩ := Keyword.isLower_of_color? (Keyword.color?_of_ofColor? hname)
    rw [Keyword.orLiteral, hname]
    intro heq
    -- a color starts with a number sign, which is no letter
    have hsign : '#' ∈ name.toList := by
      obtain ⟨levels, rfl⟩ := h
      have heq' : name = levels.literal ++ digits := heq
      rw [heq', String.toList_append, Rgb.toList_literal]
      simp
    exact absurd (hletters '#' hsign) (by decide)
  | none =>
    rw [Keyword.orLiteral, hname]
    intro heq
    have heq' : color = color ++ digits := heq
    have hlength := congrArg String.length heq'
    rw [String.length_append] at hlength
    have hzero : digits.length = 0 := by omega
    exact hne (String.length_eq_zero_iff.mp hzero)

/-- Asking for a keyword a second time changes the result exactly for a nearly opaque color. Then
the first result is its hex literal with the digits of an opaque one, and the second is the keyword
form of the color without them. From the second result on nothing changes. -/
theorem convert_named_eq_self_iff {text written : String}
    (h : convert text .named = .ok (some written)) :
    ∃ found again, recognize text = .ok (some found) ∧
      convert written .named = .ok (some again) ∧
      (again = written ↔ ¬ found.NearlyOpaque) ∧
      (found.NearlyOpaque →
        written = found.color ++ "ff" ∧ again = Keyword.orLiteral found.color) ∧
      convert again .named = .ok (some again) := by
  obtain ⟨outcome, houtcome, hwell⟩ := recognize_spec text
  cases outcome with
  | none =>
    rw [convert_of_recognize_none houtcome] at h
    simp at h
  | some found =>
    have hfound : found.WellFormed := hwell found rfl
    have hcanonical := hfound.isCanonical
    rw [convert_of_recognize houtcome] at h
    rcases Recognition.convert_named hfound with
      ⟨hsolid, hwritten⟩ | ⟨hlow, digits, hbyte, halpha, hne, hwritten⟩
    · -- the opacity is dropped at once
      obtain rfl : Keyword.orLiteral found.color = written := by
        rw [hwritten] at h
        exact Option.some.inj (Except.ok.inj h)
      have hstable := convert_orLiteral hcanonical
      have hnot : ¬ found.NearlyOpaque := fun hnear => hsolid hnear.1
      exact ⟨found, _, houtcome, hstable, iff_of_true rfl hnot, fun hnear => absurd hnear hnot,
        hstable⟩
    · obtain rfl : found.color ++ digits = written := by
        rw [hwritten] at h
        exact Option.some.inj (Except.ok.inj h)
      have hnear : found.NearlyOpaque ↔ digits = "ff" := by
        rw [Recognition.NearlyOpaque, hbyte, and_iff_right hlow, Except.ok.injEq]
      have hagain := convert_literal_named hcanonical halpha hne
      refine ⟨found, _, houtcome, hagain, ?_⟩
      by_cases hlast : digits = "ff"
      · rw [if_pos hlast]
        refine ⟨iff_of_false (orLiteral_ne_append hcanonical hne) (not_not.mpr (hnear.mpr hlast)),
          fun _ => ⟨by rw [hlast], rfl⟩, convert_orLiteral hcanonical⟩
      · rw [if_neg hlast] at hagain ⊢
        exact ⟨iff_of_true rfl (hnear.not.mpr hlast), fun h => absurd (hnear.mp h) hlast, hagain⟩

/-- A nearly opaque call of `rgb`, of a color that has a keyword. -/
theorem convert_named_eq_self_iff_nearly_opaque :
    convert "rgb(255 0 0 / 99.9%)" .named = .ok (some "#ff0000ff") ∧
      ∃ found, recognize "rgb(255 0 0 / 99.9%)" = .ok (some found) ∧ found.NearlyOpaque ∧
        convert "#ff0000ff" .named = .ok (some "red") ∧
        convert "red" .named = .ok (some "red") := by
  have hfirst : convert "rgb(255 0 0 / 99.9%)" .named = .ok (some "#ff0000ff") := by decide +kernel
  have hred : Keyword.orLiteral "#ff0000" = "red" := by
    rw [Keyword.orLiteral, Keyword.ofColor?_eq]
    decide +kernel
  have htext : "#ff0000ff" = "#ff0000" ++ "ff" := by decide
  have hsecond : convert "#ff0000ff" .named = .ok (some "red") := by
    rw [htext, convert_opaque_literal ⟨⟨255, 0, 0⟩, by decide⟩, hred]
  obtain ⟨found, again, hfound, hagain, hiff, -, hstable⟩ := convert_named_eq_self_iff hfirst
  obtain rfl : "red" = again := Option.some.inj (Except.ok.inj (hsecond.symm.trans hagain))
  refine ⟨hfirst, found, hfound, ?_, hsecond, hstable⟩
  by_contra hnot
  exact absurd (hiff.mpr hnot) (by decide)

/-- Asking for a keyword is not idempotent: an opacity of 0.999 becomes digits that the second time
are dropped. -/
theorem convert_named_not_idempotent :
    ¬ ∀ text written, convert text .named = .ok (some written) →
      convert written .named = .ok (some written) := by
  intro h
  have hfirst : convert "rgb(255 0 0 / 0.999)" .named = .ok (some "#ff0000ff") := by decide +kernel
  have hcanonical : IsCanonical "#ff0000" := ⟨⟨255, 0, 0⟩, by decide⟩
  have htext : "#ff0000ff" = "#ff0000" ++ "ff" := by decide
  have hsecond := h _ _ hfirst
  rw [htext, convert_opaque_literal hcanonical] at hsecond
  exact orLiteral_ne_append hcanonical (by decide) (Option.some.inj (Except.ok.inj hsecond))

end CssColor
