import CssColor.Conversion
import CssColor.Proofs.Recognition.Disjointness
import CssColor.Text.Raw

/-!
# Recognition of raw texts

Recognizers accept ASCII texts only. A lone surrogate is shown as a character that is not one, that
is no blank and that has no lower case, so a raw text with a lone surrogate is recognized as
nothing, neither as it stands nor stripped and in lower case. It makes no difference to a reader of
colors that it reads what is shown of a raw text.

## Main results

* `Recognizer.isAscii_of_run`: accepted texts are ASCII texts.
* `Recognizer.isUnicode_of_run`: a raw text that is accepted holds no lone surrogate.
* `RawText.convert_shown`: a raw text with a lone surrogate is converted to nothing.
-/

namespace CssColor

open Text

/-! ## Accepted texts -/

namespace Call

/-- Blanks are ASCII characters. -/
theorem AllBlank.isAscii {text : List Char} (h : AllBlank text) : IsAscii text :=
  fun c hc => toNat_lt_of_isAsciiBlank (h c hc)

/-- Digits are ASCII characters. -/
theorem AllDigits.isAscii {text : List Char} (h : AllDigits text) : IsAscii text :=
  fun c hc => toNat_lt_of_isDigit (h c hc)

/-- A text whose lower case is an ASCII text is one itself. -/
theorem isAscii_of_toLower {text lowered : List Char} (h : text.map Char.toLower = lowered)
    (hlowered : IsAscii lowered) : IsAscii text := by
  intro c hc
  exact toNat_lt_of_toLower (hlowered _ (h ▸ List.mem_map_of_mem hc))

/-- A mark with blanks around it is an ASCII text if the mark is one. -/
theorem IsMarked.isAscii {isMark : Char → Bool} {text : List Char} (h : IsMarked isMark text)
    (hmark : ∀ c, isMark c = true → c.toNat < 128) : IsAscii text := by
  obtain ⟨leading, c, trailing, rfl, hleading, hc, htrailing⟩ := h
  simp [hleading.isAscii, hmark c hc, htrailing.isAscii]

/-- Arguments are separated by ASCII characters. -/
theorem IsSeparator.isAscii {text : List Char} (h : IsSeparator text) : IsAscii text := by
  rcases h with hmarked | ⟨-, hblank⟩
  · refine hmarked.isAscii fun c hc => ?_
    rw [beq_iff_eq.mp hc]
    decide
  · exact hblank.isAscii

/-- Numbers are written in ASCII characters. -/
theorem IsFraction.isAscii {text : List Char} (h : IsFraction text) : IsAscii text := by
  rcases h with ⟨whole, decimals, rfl, hwhole, -, hdecimals⟩ | ⟨-, hdigits⟩
  · have hpoint : '.'.toNat < 128 := by decide
    exact isAscii_append.mpr ⟨hwhole.isAscii, isAscii_cons.mpr ⟨hpoint, hdecimals.isAscii⟩⟩
  · exact hdigits.isAscii

/-- A percent sign is an ASCII character. -/
theorem IsSign.isAscii {text : List Char} (h : IsSign text) : IsAscii text := by
  rcases h with rfl | rfl <;> simp [IsAscii]

/-- Opacities are written in ASCII characters. -/
theorem IsOpacity.isAscii {text : List Char} (h : IsOpacity text) : IsAscii text := by
  obtain ⟨leading, value, sign, rfl, hleading, hvalue, hsign⟩ := h
  have hmark : ∀ c : Char, (c == ',' || c == '/') = true → c.toNat < 128 := by
    intro c hc
    rcases Bool.or_eq_true _ _ ▸ hc with hc | hc <;> rw [beq_iff_eq.mp hc] <;> decide
  simp [hleading.isAscii hmark, hvalue.isAscii, hsign.isAscii]

/-- Components are written in ASCII characters. -/
theorem Component.isAscii {kept written : List Char} (h : Component kept written) :
    IsAscii written := by
  obtain ⟨digits, sign, hdigits, hsign, rfl, -⟩ := h
  exact isAscii_append.mpr ⟨hdigits.2.2.isAscii, hsign.isAscii⟩

/-- Degrees are written in ASCII characters. -/
theorem Degrees.isAscii {kept written : List Char} (h : Degrees kept written) :
    IsAscii written := by
  obtain ⟨hdigits, unit, rfl, hunit⟩ := h
  refine isAscii_append.mpr ⟨hdigits.2.2.isAscii, ?_⟩
  rcases hunit with rfl | hunit
  · exact isAscii_nil
  · exact isAscii_of_toLower hunit (by simp [IsAscii])

/-- Percentages are written in ASCII characters. -/
theorem Percentage.isAscii {kept written : List Char} (h : Percentage kept written) :
    IsAscii written := by
  obtain ⟨hdigits, rfl⟩ := h
  exact isAscii_append.mpr ⟨hdigits.2.2.isAscii, by simp [IsAscii]⟩

/-- A call whose name and arguments are ASCII texts is one as a whole. -/
theorem Layout.Valid.isAscii {name : List Char} {first other : List Char → List Char → Prop}
    {layout : Layout} (h : layout.Valid name first other) (hname : IsAscii name)
    (hfirst : ∀ {kept written}, first kept written → IsAscii written)
    (hother : ∀ {kept written}, other kept written → IsAscii written) : IsAscii layout.text := by
  have hfunction : IsAscii layout.function := by
    rcases h.function with hlower | hlower
    · exact isAscii_of_toLower hlower hname
    · exact isAscii_of_toLower hlower (isAscii_append.mpr ⟨hname, by simp [IsAscii]⟩)
  have halpha : IsAscii layout.alpha := by
    rcases h.alpha with hnone | halpha
    · rw [hnone]
      exact isAscii_nil
    · exact halpha.isAscii
  simp [Layout.text, Layout.closing, hfunction, h.leading.isAscii, hfirst h.first,
    h.separator.isAscii, hother h.second, h.nextSeparator.isAscii, hother h.third, halpha,
    h.trailing.isAscii]

end Call

namespace Recognizer

/-- The texts of a grammar are ASCII texts, since it names all characters that may occur. -/
theorem Grammar.isAscii {recognizer : Recognizer} {body : List Char}
    (h : recognizer.Grammar body) : IsAscii body := by
  cases h with
  | hexLiteral h =>
    obtain ⟨digits, rfl, hdigits, -⟩ := HexLiteral.exists_digits_of_isLiteral h
    have hsign : '#'.toNat < 128 := by decide
    exact isAscii_cons.mpr ⟨hsign, fun c hc => toNat_lt_of_isHexDigit (hdigits c hc)⟩
  | keyword h => exact fun c hc => (toLower_of_isLower ((Keyword.isLower_of_color? h).2 c hc)).1
  | rgbCall h => exact h.isAscii (by simp [IsAscii]) Call.Component.isAscii Call.Component.isAscii
  | hslCall h => exact h.isAscii (by simp [IsAscii]) Call.Degrees.isAscii Call.Percentage.isAscii

/-- Every text that a recognizer accepts is an ASCII text. -/
theorem isAscii_of_run {recognizer : Recognizer} {text : String} {found : Recognition}
    (h : recognizer.run text = .ok (some found)) : IsAscii text.toList := by
  obtain ⟨body, ending, htext, hnewline, hgrammar⟩ := exists_grammar_of_run h
  have hending : IsAscii ending := by
    rcases hnewline with rfl | rfl <;> simp [IsAscii]
  rw [htext]
  exact isAscii_append.mpr ⟨hgrammar.isAscii, hending⟩

end Recognizer

/-! ## Lone surrogates -/

/-- A text with a lone surrogate is shown with the replacement character. -/
theorem RawText.replacement_mem_shown {text : RawText} (h : ¬ text.isUnicode = true) :
    '\uFFFD' ∈ text.shown.toList := by
  simp only [isUnicode, List.all_eq_true, not_forall] at h
  obtain ⟨point, hpoint, hchar⟩ := h
  cases point with
  | char c => exact absurd rfl hchar
  | surrogate index =>
    rw [shown, String.toList_ofList]
    exact List.mem_map_of_mem hpoint

/-- A raw text that a recognizer accepts as it is shown holds no lone surrogate. -/
theorem Recognizer.isUnicode_of_run {recognizer : Recognizer} {text : RawText}
    {found : Recognition} (h : recognizer.run text.shown = .ok (some found)) :
    text.isUnicode = true := by
  by_contra hunicode
  have hreplacement := isAscii_of_run h _ (RawText.replacement_mem_shown hunicode)
  exact absurd hreplacement (by decide)

namespace Text

/-- Trimming takes nothing away that it does not look for. -/
theorem mem_trim {p : Char → Bool} {text : List Char} {c : Char} (hc : p c = false)
    (h : c ∈ text) : c ∈ trim p text := by
  have hdropWhile : ∀ {text : List Char}, c ∈ text → c ∈ text.dropWhile p := by
    intro text hmem
    rw [← List.takeWhile_append_dropWhile (p := p) (l := text), List.mem_append] at hmem
    refine hmem.resolve_left fun htake => ?_
    simp [List.mem_takeWhile_imp htake] at hc
  rw [trim, dropRight, List.mem_reverse]
  exact hdropWhile (List.mem_reverse.mpr (hdropWhile h))

/-- The replacement character has no lower case. -/
theorem replacement_mem_lowerAfter {text : List Char} (h : '\uFFFD' ∈ text) (afterCased : Bool) :
    '\uFFFD' ∈ lowerAfter afterCased text := by
  induction text generalizing afterCased with
  | nil => simp at h
  | cons c rest ih =>
    rw [lowerAfter, List.mem_append]
    rcases List.mem_cons.mp h with rfl | hrest
    · have hsigma : '\uFFFD'.toNat ≠ 0x3A3 := by decide
      have hlower : lowerChar '\uFFFD' = ['\uFFFD'] := by decide +kernel
      left
      rw [if_neg fun hfinal => hsigma hfinal.1, hlower]
      exact List.mem_singleton_self _
    · exact .inr (ih hrest _)

end Text

/-- A text with the replacement character in it is recognized as nothing. -/
theorem recognize_of_replacement {text : String} (h : '\uFFFD' ∈ text.toList) :
    recognize text = .ok none := by
  have hstrip : '\uFFFD' ∈ (strip text).toList := by
    rw [strip, String.toList_ofList]
    exact mem_trim (by decide) h
  obtain ⟨outcome, houtcome⟩ := Recognizer.firstMatch_succeeds (strip text) Recognizer.all
  rw [recognize, houtcome, ok_bind]
  cases outcome with
  | some found =>
    obtain ⟨recognizer, -, hrun⟩ := Recognizer.firstMatch_eq_some_iff.mp houtcome
    exact absurd (Recognizer.isAscii_of_run hrun _ hstrip) (by decide)
  | none =>
    -- lower case leaves the character where it is, and no keyword has it
    have hlower : '\uFFFD' ∈ (lower (strip text)).toList := by
      rw [lower, String.toList_ofList]
      exact replacement_mem_lowerAfter hstrip false
    cases hkeyword : Recognition.ofKeyword? (lower (strip text)) with
    | none => rfl
    | some found =>
      have hrun : Recognizer.keyword.run (lower (strip text)) = .ok (some found) :=
        congrArg Except.ok hkeyword
      exact absurd (Recognizer.isAscii_of_run hrun _ hlower) (by decide)

/-- A raw text is converted as it is shown, which is as nothing when it holds a lone surrogate. -/
theorem RawText.convert_shown (text : RawText) (target : Notation) :
    convert text.shown target = text.toString?.elim (.ok none) (convert · target) := by
  by_cases hunicode : text.isUnicode = true
  · rw [toString?, if_pos hunicode]
    rfl
  · have hrecognize := recognize_of_replacement (replacement_mem_shown hunicode)
    rw [toString?, if_neg hunicode, convert, hrecognize]
    rfl

end CssColor
