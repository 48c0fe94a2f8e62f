import CssColor.Proofs.Conversion

/-!
# Conversion through several notations

A text that is converted from one notation to the next is written and recognized anew at every
step. Hex literals and calls of `rgb` lose nothing on the way: neither the color, nor the opacity as
a byte, nor whether there is an opacity at all. These three decide the hex literal of a color, so it
does not matter through how many of them a text has gone.

## Main definitions

* `convertThrough`: a text converted to one notation after another.

## Main results

* `Recognition.convert_hex`: the hex literal of a recognized color.
* `convert_step`: one conversion to a hex literal or a call of `rgb` keeps the hex literal.
* `convertThrough_hex`: so does any number of them.
-/

namespace CssColor

namespace Recognition

variable {found shown : Recognition} {target : Notation}

/-- The hex literal of a recognized color: the canonical color, and the digits of the opacity if
there is one. -/
theorem convert_hex (h : found.WellFormed) :
    ∃ digits, found.alphaByte = .ok digits ∧
      found.convert .hex = .ok (found.color ++ if found.alpha = "" then "" else digits) := by
  have hlower := h.isCanonical.lower_eq
  by_cases hkind : found.kind = .hex
  · -- the literal is rendered with the digits that it has
    have hwritten : found.convert .hex = .ok (found.color ++ found.alpha) := by
      have hspanning : (found.spanning 0 1).kind = .hex := hkind
      rw [convert, if_pos hkind.symm, render_eq h.isCanonical, Token.render, hspanning]
      show Except.ok (Text.lower found.color ++ found.alpha) = _
      rw [hlower]
    by_cases halpha : found.alpha = ""
    · exact ⟨"ff", alphaByte_of_empty halpha, by rw [hwritten, if_pos halpha, halpha]⟩
    · exact ⟨found.alpha, alphaByte_of_hex hkind halpha, by rw [hwritten, if_neg halpha]⟩
  · obtain ⟨opacity, digits, alpha, hopacity, hbyte, halpha, -, hempty, hdigits, -⟩ :=
      opacity_spec h
    have hwritten : found.convert .hex = .ok (found.color ++ alpha) := by
      rw [convert, if_neg (Ne.symm hkind), hopacity, Error.ofNumeric_ok, ok_bind]
      dsimp only
      rw [if_pos (.inl rfl), halpha, Error.ofNumeric_ok, ok_bind, hexLiteralText, hlower]
      rfl
    refine ⟨digits, hbyte, ?_⟩
    rw [hwritten, hdigits]
    by_cases hnone : found.alpha = ""
    · rw [if_pos hnone, hempty.mpr hnone]
    · rw [if_neg hnone, if_neg (hempty.not.mpr hnone)]

/-- What a color is converted to has the same hex literal, unless a keyword has dropped its opacity
or a call of `hsl` has rounded it. -/
theorem Converts.convert_hex_eq (h : found.Converts target shown) (hfound : found.WellFormed)
    (hshown : shown.WellFormed) (hnamed : target ≠ .named) (hhsl : target ≠ .hsl) :
    shown.convert .hex = found.convert .hex := by
  obtain ⟨digits, hbyte, hwritten⟩ := convert_hex hfound
  obtain ⟨digits', hbyte', hwritten'⟩ := convert_hex hshown
  obtain rfl : digits' = digits :=
    Except.ok.inj (hbyte'.symm.trans (h.alphaByte.trans hbyte))
  rw [hwritten', hwritten, h.color hhsl]
  simp only [h.alpha_eq_empty_iff hnamed]

end Recognition

/-- A text converted to one notation after another. Once it is no color, it stays none. -/
def convertThrough (text : String) : List Notation → Except Error (Option String)
  | [] => return some text
  | target :: rest => do
    match ← convert text target with
    | some written => convertThrough written rest
    | none => return none

/-- One conversion to a hex literal or to a call of `rgb` keeps the hex literal of a text. A text
that is no color is none before and after. -/
theorem convert_step (text : String) {target : Notation} (htarget : target = .hex ∨ target = .rgb) :
    (convert text target = .ok none ∧ convert text .hex = .ok none) ∨
      ∃ written, convert text target = .ok (some written) ∧
        convert written .hex = convert text .hex := by
  obtain ⟨outcome, houtcome, hwell⟩ := recognize_spec text
  cases outcome with
  | none =>
    exact .inl ⟨convert_of_recognize_none houtcome target, convert_of_recognize_none houtcome .hex⟩
  | some found =>
    have hfound : found.WellFormed := hwell found rfl
    obtain ⟨written, shown, hwritten, hrecognize, hconverts⟩ :=
      Recognition.convert_spec hfound target
    -- what is written is read again before the next step, so it is well-formed once more
    have hshown : shown.WellFormed := (recognize_spec written).of_eq_ok hrecognize shown rfl
    refine .inr ⟨written, by rw [convert_of_recognize houtcome, hwritten]; rfl, ?_⟩
    rw [convert_of_recognize hrecognize, convert_of_recognize houtcome,
      hconverts.convert_hex_eq hfound hshown (by rcases htarget with rfl | rfl <;> decide)
        (by rcases htarget with rfl | rfl <;> decide)]

/-- A text that goes through any number of hex literals and calls of `rgb` and ends as a hex literal
ends as the one to which it is converted at once. Neither way fails, and both lead to nothing
exactly for a text that is no color. -/
theorem convertThrough_hex (text : String) {path : List Notation}
    (hpath : ∀ target ∈ path, target = .hex ∨ target = .rgb) :
    ∃ outcome, convert text .hex = .ok outcome ∧
      convertThrough text (path ++ [.hex]) = .ok outcome := by
  induction path generalizing text with
  | nil =>
    obtain ⟨outcome, houtcome⟩ := convert_succeeds text .hex
    refine ⟨outcome, houtcome, ?_⟩
    rw [List.nil_append, convertThrough, houtcome, ok_bind]
    cases outcome <;> rfl
  | cons target rest ih =>
    have hrest : ∀ other ∈ rest, other = .hex ∨ other = .rgb :=
      fun other hother => hpath other (List.mem_cons_of_mem _ hother)
    rw [List.cons_append, convertThrough]
    -- one step does not change what the text converts to in the end
    rcases convert_step text (hpath target List.mem_cons_self) with ⟨hnone, hhex⟩ |
      ⟨written, hwritten, hhex⟩
    · exact ⟨none, hhex, by rw [hnone]; rfl⟩
    · obtain ⟨outcome, houtcome, hthrough⟩ := ih written hrest
      exact ⟨outcome, hhex ▸ houtcome, by rw [hwritten]; exact hthrough⟩

/-- A translucent call of `hsl` that goes through four texts before its last one. -/
theorem convertThrough_hex_translucent :
    (∀ target ∈ [Notation.rgb, .hex, .rgb, .rgb], target = .hex ∨ target = .rgb) ∧
      convert "HSL(210deg 50% 40%/33.3%)" .hex = .ok (some "#33669955") ∧
      convertThrough "HSL(210deg 50% 40%/33.3%)" [.rgb, .hex, .rgb, .rgb, .hex] =
        .ok (some "#33669955") := by
  have hpath : ∀ target ∈ [Notation.rgb, .hex, .rgb, .rgb], target = .hex ∨ target = .rgb := by
    decide
  have hhex : convert "HSL(210deg 50% 40%/33.3%)" .hex = .ok (some "#33669955") := by decide +kernel
  obtain ⟨outcome, houtcome, hthrough⟩ := convertThrough_hex "HSL(210deg 50% 40%/33.3%)" hpath
  obtain rfl : some "#33669955" = outcome := Except.ok.inj (hhex.symm.trans houtcome)
  exact ⟨hpath, hhex, hthrough⟩

end CssColor
