import CssColor.Proofs.Conversion.Chain
import CssColor.Proofs.Conversion.KeywordForm
import CssColor.Proofs.Recognition.LetterCase

/-!
# Conversion of texts in other cases

A text that is written in another case and with other blanks around it is recognized as the same
color, and only the name of a called function keeps the case in which it is written. Hex literals
and keywords have no such name, so both texts are converted to the same.

## Main results

* `Recognition.Alike.convert_hex_eq`, `Recognition.Alike.convert_named_eq`: recognitions that are
  alike are converted to the same hex literal and to the same keyword.
* `convert_ignores_case_and_blanks`: case and outer blanks do not matter.
-/

namespace CssColor

namespace Recognition

variable {found other : Recognition}

namespace Alike

/-- The case of a function name does not matter for the byte of the opacity. -/
theorem alphaByte_eq (h : found.Alike other) : found.alphaByte = other.alphaByte :=
  alphaByte_congr h.alpha (by rw [h.kind])

/-- Nor does it matter for whether a color is translucent. -/
theorem translucent_iff (h : found.Alike other) : found.Translucent ↔ other.Translucent := by
  have hopacity : found.opacity? = other.opacity? := by
    unfold opacity?
    rw [h.alpha, h.kind]
  rw [Translucent, Translucent, hopacity]

/-- Recognitions that are alike are converted to the same hex literal. -/
theorem convert_hex_eq (h : found.Alike other) (hfound : found.WellFormed)
    (hother : other.WellFormed) : found.convert .hex = other.convert .hex := by
  obtain ⟨digits, hdigits, hwritten⟩ := convert_hex hfound
  obtain ⟨digits', hdigits', hwritten'⟩ := convert_hex hother
  obtain rfl : digits = digits' :=
    Except.ok.inj (hdigits.symm.trans (h.alphaByte_eq.trans hdigits'))
  rw [hwritten, hwritten', h.color, h.alpha]

/-- Recognitions that are alike are converted to the same keyword, or to the same hex literal. -/
theorem convert_named_eq (h : found.Alike other) (hfound : found.WellFormed)
    (hother : other.WellFormed) : found.convert .named = other.convert .named := by
  rcases convert_named hfound with ⟨hsolid, hwritten⟩ |
    ⟨htranslucent, digits, hdigits, -, -, hwritten⟩
  · obtain ⟨-, hwritten'⟩ := (convert_named hother).resolve_right
      fun hright => hsolid (h.translucent_iff.mpr hright.1)
    rw [hwritten, hwritten', h.color]
  · obtain ⟨-, digits', hdigits', -, -, hwritten'⟩ := (convert_named hother).resolve_left
      fun hleft => hleft.1 (h.translucent_iff.mp htranslucent)
    obtain rfl : digits = digits' :=
      Except.ok.inj (hdigits.symm.trans (h.alphaByte_eq.trans hdigits'))
    rw [hwritten, hwritten', h.color]

end Alike

end Recognition

/-- The case of ASCII letters and the blanks around a text do not matter. Two texts that differ in
these only are both no colors, or they are recognized as the same but for the case of the called
function. They are converted to the same hex literal and to the same keyword. -/
theorem convert_ignores_case_and_blanks {text other : String} (h : Text.Alike text other) :
    ((recognize text = .ok none ∧ recognize other = .ok none) ∨
      ∃ found found', recognize text = .ok (some found) ∧ recognize other = .ok (some found') ∧
        found.Alike found') ∧
      ∀ target, target = .hex ∨ target = .named →
        ∃ outcome, convert text target = .ok outcome ∧ convert other target = .ok outcome := by
  have hrecognize := recognize_alike h
  refine ⟨hrecognize, fun target htarget => ?_⟩
  obtain ⟨outcome, houtcome⟩ := convert_succeeds text target
  refine ⟨outcome, houtcome, ?_⟩
  rcases hrecognize with ⟨hnone, hnone'⟩ | ⟨found, found', hfound, hfound', halike⟩
  · rw [convert_of_recognize_none hnone] at houtcome
    rw [convert_of_recognize_none hnone', houtcome]
  · have hwell := (recognize_spec text).of_eq_ok hfound found rfl
    have hwell' := (recognize_spec other).of_eq_ok hfound' found' rfl
    -- neither of the two targets writes the name of a function, where the texts may differ
    have hconvert : found.convert target = found'.convert target := by
      rcases htarget with rfl | rfl
      · exact halike.convert_hex_eq hwell hwell'
      · exact halike.convert_named_eq hwell hwell'
    rw [convert_of_recognize hfound] at houtcome
    rw [convert_of_recognize hfound', ← hconvert, houtcome]

/-- A call in mixed case between an information separator and an em space, and the same call in
lower case with a newline behind it. -/
theorem convert_ignores_case_and_blanks_call :
    let text := "\x1c HSLa(210DEG 50% 40%/33.3%)\u2003"
    let other := "hsla(210deg 50% 40%/33.3%)\n"
    let found : Recognition :=
      { kind := .hsl, color := "#336699", alpha := "/33.3%", function := "HSLa", separator := " " }
    Text.Alike text other ∧ recognize text = .ok (some found) ∧
      (∃ found', recognize other = .ok (some found') ∧ found.Alike found') ∧
      convert other .hex = .ok (some "#33669955") ∧ convert text .hex = .ok (some "#33669955") ∧
      convert text .named = convert other .named := by
  intro text other found
  have h : Text.Alike text other := by decide +kernel
  have hfound : recognize text = .ok (some found) := by decide +kernel
  have hother : convert other .hex = .ok (some "#33669955") := by decide +kernel
  obtain ⟨hrecognize, hconvert⟩ := convert_ignores_case_and_blanks h
  obtain ⟨outcome, htext, hsame⟩ := hconvert .hex (.inl rfl)
  obtain rfl : outcome = some "#33669955" := Except.ok.inj (hsame.symm.trans hother)
  obtain ⟨keyword, hnamed, hnamed'⟩ := hconvert .named (.inr rfl)
  refine ⟨h, hfound, ?_, hother, htext, hnamed.trans hnamed'.symm⟩
  rw [hfound] at hrecognize
  rcases hrecognize with ⟨hnone, -⟩ | ⟨same, found', hsame, hfound', halike⟩
  · exact absurd hnone (by simp)
  · obtain rfl : found = same := Option.some.inj (Except.ok.inj hsame)
    exact ⟨found', hfound', halike⟩

end CssColor
