import CssColor.Proofs.Recognition.Forms

/-!
# The grammar of color calls

The recognizers of color calls against a grammar. A call is laid out in one way at most, although
blanks may stand nearly everywhere and a comma may come before an argument or before the opacity.
What a recognizer keeps of a text is therefore determined by the layout alone.

## Main definitions

* `Call.IsLaidOut`: the text is a call with the given layout, which one newline may follow.
* `Call.Recognizes`: a recognizer accepts exactly the texts of a grammar and keeps their parts.

## Main results

* `Call.recognizes_of_reads`: what is read piece by piece is recognized as a whole.
* `Call.recognizes_rgb_and_hsl`: the grammars of both notations.
-/

namespace CssColor

open Text

/-- At most one newline stands between a text and what is left without it. -/
theorem Text.dropFinalNewline_eq_iff {text body : List Char} (hbody : body.getLast? ≠ some '\n') :
    dropFinalNewline text = body ↔
      ∃ ending, (ending = [] ∨ ending = ['\n']) ∧ text = body ++ ending := by
  constructor
  · intro h
    rw [dropFinalNewline] at h
    split_ifs at h with hlast
    · -- the newline that was dropped is the last character
      refine ⟨['\n'], .inr rfl, ?_⟩
      rw [← h, List.dropLast_append_getLast? _ hlast]
    · exact ⟨[], .inl rfl, by rw [h, List.append_nil]⟩
  · rintro ⟨ending, rfl | rfl, rfl⟩
    · rw [List.append_nil, dropFinalNewline, if_neg hbody]
    · exact dropFinalNewline_concat body

namespace Call

/-- The text is a call with the given layout, which one newline may follow. -/
structure IsLaidOut (name : List Char) (first other : List Char → List Char → Prop) (text : String)
    (layout : Layout) : Prop where
  /-- Each part of the layout has its form. -/
  valid : layout.Valid name first other
  /-- The parts make up the text. -/
  text_eq : dropFinalNewline text.toList = layout.text

/-- A recognizer accepts exactly the texts of a grammar, never fails, and keeps the parts of a text
as they are written. The color is the one that the layout has. -/
structure Recognizes (recognizer : String → Except NumericError (Option Recognition))
    (kind : Notation) (name : List Char) (first other : List Char → List Char → Prop)
    (IsColor : Layout → String → Prop) : Prop where
  /-- A text is laid out in one way at most. -/
  unique : ∀ {text : String} {layout layout' : Layout}, IsLaidOut name first other text layout →
    IsLaidOut name first other text layout' → layout = layout'
  /-- A text that is laid out is recognized. -/
  accepts : ∀ {text : String} {layout : Layout}, IsLaidOut name first other text layout →
    ∃ color, IsColor layout color ∧ recognizer text = .ok (some {
      kind, color
      alpha := String.ofList layout.alpha
      function := String.ofList layout.function
      separator := if ',' ∈ layout.separator then ", " else " " })
  /-- No other text is. -/
  refuses : ∀ {text : String}, (∀ layout, ¬ IsLaidOut name first other text layout) →
    recognizer text = .ok none

section

variable {name : List Char} {first other : Reader (List Char)}
  {firstForm otherForm : List Char → List Char → Prop}

/-- A text is read as the call of its layout. -/
theorem read?_eq_some_iff_isLaidOut (hfirst : Reads first firstForm)
    (hother : Reads other otherForm) {text : String} {call : Call} :
    read? name first other text.toList = some call ↔
      ∃ layout, IsLaidOut name firstForm otherForm text layout ∧ layout.toCall = call := by
  -- a call ends in its parenthesis, so the newline to drop is never one of its own blanks
  have hlast (layout : Layout) : layout.text.getLast? ≠ some '\n' := by
    rw [layout.getLast?_text]
    decide
  rw [read?_eq_some_iff hfirst hother]
  constructor
  · rintro ⟨layout, hvalid, hcall, htext⟩
    exact ⟨layout, ⟨hvalid, (dropFinalNewline_eq_iff (hlast layout)).mpr htext⟩, hcall⟩
  · rintro ⟨layout, ⟨hvalid, htext⟩, hcall⟩
    exact ⟨layout, hvalid, hcall, (dropFinalNewline_eq_iff (hlast layout)).mp htext⟩

/-- What is read piece by piece is recognized as a whole, once every layout has a color. -/
theorem recognizes_of_reads {kind : Notation} {color : Call → Except NumericError String}
    {IsColor : Layout → String → Prop} (hfirst : Reads first firstForm)
    (hother : Reads other otherForm)
    (hcolor : ∀ {layout : Layout}, layout.Valid name firstForm otherForm →
      Yields (color layout.toCall) (IsColor layout)) :
    Recognizes (fun text => match read? name first other text.toList with
      | some call => do return some (call.toRecognition kind (← color call))
      | none => return none) kind name firstForm otherForm IsColor where
  unique := by
    intro text layout layout' h h'
    exact h.valid.eq_of_text_eq hfirst hother h'.valid (h.text_eq.symm.trans h'.text_eq)
  accepts := by
    intro text layout h
    have hread := (read?_eq_some_iff_isLaidOut hfirst hother).mpr ⟨layout, h, rfl⟩
    obtain ⟨shown, hshown, hcolor⟩ := hcolor h.valid
    refine ⟨shown, hcolor, ?_⟩
    -- the separator is kept as a style, which shows no more than whether it has a comma
    simp [hread, hshown, toRecognition, separatorStyle]
  refuses := by
    intro text hnone
    -- whatever is read comes from a layout, and there is none
    have hread : read? name first other text.toList = none := by
      rw [Option.eq_none_iff_forall_ne_some]
      intro call hcall
      obtain ⟨layout, hlayout, -⟩ := (read?_eq_some_iff_isLaidOut hfirst hother).mp hcall
      exact hnone layout hlayout
    simp [hread]

end

/-- Calls of `rgb` and `rgba` have three components, and their levels are exact. Calls of `hsl` and
`hsla` have a hue, with or without its unit, and two percentages. -/
theorem recognizes_rgb_and_hsl :
    Recognizes Recognition.ofRgbCall? .rgb ['r', 'g', 'b'] Component Component
      (fun layout color => color = layout.toCall.exactLevels.literal) ∧
    Recognizes Recognition.ofHslCall? .hsl ['h', 's', 'l'] Degrees Percentage
      (fun _ color => IsCanonical color) :=
  ⟨recognizes_of_reads reads_component reads_component fun h => ⟨_, rgbColor_eq h, rfl⟩,
    recognizes_of_reads reads_degrees reads_percentage hslColor_spec⟩

/-- Blanks of all kinds, a comma and a slash, and components of both kinds. -/
theorem recognizes_rgb_and_hsl_mixed :
    let text := "RgBa( 300,20%\t 30\n/ .5% )\n"
    let layout : Layout := {
      function := "RgBa".toList, leading := [' ']
      first := "300".toList, firstText := "300".toList, separator := [',']
      second := "20%".toList, secondText := "20%".toList, nextSeparator := ['\t', ' ']
      third := "30".toList, thirdText := "30".toList
      alpha := "\n/ .5%".toList, trailing := [' '] }
    IsLaidOut ['r', 'g', 'b'] Component Component text layout ∧
      Recognition.ofRgbCall? text = .ok (some ⟨.rgb, "#ff331e", "\n/ .5%", "RgBa", ", "⟩) := by
  intro text layout
  -- the slash introduces the opacity, and the comma before it a component
  have halpha : IsOpacity layout.alpha :=
    ⟨['\n', '/', ' '], ['.', '5'], ['%'], by decide,
      ⟨['\n'], '/', [' '], rfl, by decide, rfl, by decide⟩,
      .inl ⟨[], ['5'], rfl, by decide, by decide, by decide⟩, .inr rfl⟩
  have hvalid : layout.Valid ['r', 'g', 'b'] Component Component := {
    function := .inr (by decide)
    leading := by decide
    first := ⟨['3', '0', '0'], [], by decide, .inl rfl, by decide, rfl⟩
    separator := .inl ⟨[], ',', [], rfl, by decide, rfl, by decide⟩
    second := ⟨['2', '0'], ['%'], by decide, .inr rfl, by decide, rfl⟩
    nextSeparator := .inr ⟨by decide, by decide⟩
    third := ⟨['3', '0'], [], by decide, .inl rfl, by decide, rfl⟩
    alpha := .inr halpha
    trailing := by decide }
  have hlayout : IsLaidOut ['r', 'g', 'b'] Component Component text layout := ⟨hvalid, by decide⟩
  obtain ⟨color, rfl, hcall⟩ := recognizes_rgb_and_hsl.1.accepts hlayout
  refine ⟨hlayout, ?_⟩
  rw [hcall]
  decide +kernel

end Call

end CssColor
