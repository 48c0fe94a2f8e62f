import CssColor.Proofs.Recognition.CallGrammar
import CssColor.Scan

/-!
# One recognizer for each text

The four ways to write a color have no text in common, and the first character of a text together
with an opening parenthesis tells which of them it can be. It is therefore of no importance in
which order recognizers are tried, and a text that some recognizer accepts as it stands is
recognized as the same color when it is taken as a bare text.

## Main definitions

* `Recognizer.guess`: the only recognizer that may accept a text.
* `Recognizer.Grammar`: the texts that a recognizer accepts.
* `Recognizer.Suits`: what these texts look like.

## Main results

* `Recognizer.exists_grammar_of_run`: an accepted text is in the grammar, but for a newline.
* `Recognizer.suits_of_grammar`: the texts of a grammar suit its recognizer.
* `Recognizer.firstMatch_eq_some_iff`: the first recognizer that accepts a text is the only one.
* `Recognizer.run_disjoint`: recognizers are disjoint, their order does not matter, and recognition
  of bare texts agrees with all of them.
-/

namespace CssColor

open Text

/-! ## Ends of a text -/

/-- A text without blanks at its ends is not changed by stripping it. -/
theorem strip_eq_self {text : String} (hfirst : ∀ c ∈ text.toList.head?, isBlank c = false)
    (hlast : ∀ c ∈ text.toList.getLast?, isBlank c = false) : strip text = text := by
  rw [strip, trim_eq_self hfirst hlast, String.ofList_toList]

theorem getLast?_ne_newline {text : List Char} (h : ∀ c ∈ text.getLast?, isBlank c = false) :
    text.getLast? ≠ some '\n' :=
  fun hlast => absurd (h '\n' hlast) (by decide)

theorem isBlank_of_isHexDigit {c : Char} (h : isHexDigit c = true) : isBlank c = false :=
  forall_ascii (P := fun c => isHexDigit c = true → isBlank c = false) (by decide)
    (toNat_lt_of_isHexDigit h) h

theorem getLast?_literal_not_blank {digits : List Char}
    (hdigits : ∀ c ∈ digits, isHexDigit c = true) :
    ∀ c ∈ ('#' :: digits).getLast?, isBlank c = false := by
  intro c hc
  rcases List.mem_cons.mp (List.mem_of_getLast? hc) with rfl | hmem
  · decide
  · exact isBlank_of_isHexDigit (hdigits c hmem)

theorem isLower_not_blank {c : Char} (h : c.isLower = true) :
    isBlank c = false ∧ c ≠ '#' ∧ c ≠ '(' :=
  forall_ascii (P := fun c => c.isLower = true → isBlank c = false ∧ c ≠ '#' ∧ c ≠ '(')
    (by decide) (toLower_of_isLower h).1 h

namespace Call

/-- The text of a call starts with the first letter of its name and ends in a parenthesis. -/
theorem ends_of_valid {e : Char} {name : List Char} {first other : List Char → List Char → Prop}
    {layout : Layout} (h : layout.Valid (e :: name) first other) :
    (∃ c rest, layout.text = c :: rest ∧ c.toLower = e) ∧ layout.text.getLast? = some ')' ∧
      '(' ∈ layout.text := by
  refine ⟨?_, layout.getLast?_text, ?_⟩
  · obtain ⟨c, rest, hfunction, hc⟩ : ∃ c rest, layout.function = c :: rest ∧ c.toLower = e := by
      rcases h.function with h | h
      · obtain ⟨c, rest, hfunction, hc, -⟩ := List.map_eq_cons_iff.mp h
        exact ⟨c, rest, hfunction, hc⟩
      · obtain ⟨c, rest, hfunction, hc, -⟩ := List.map_eq_cons_iff.mp h
        exact ⟨c, rest, hfunction, hc⟩
    rw [Layout.text, hfunction]
    exact ⟨c, _, rfl, hc⟩
  · simp [Layout.text]

/-- The first letter of a call may be a capital, so it is known only through its lower case. -/
theorem letter_of_toLower {c : Char} (h : c.toLower = 'r' ∨ c.toLower = 'h') :
    isBlank c = false ∧ c ≠ '#' := by
  have hascii : c.toNat < 128 := by
    refine toNat_lt_of_toLower ?_
    rcases h with h | h <;> rw [h] <;> decide
  exact forall_ascii (P := fun c => c.toLower = 'r' ∨ c.toLower = 'h' → isBlank c = false ∧ c ≠ '#')
    (by decide) hascii h

end Call

/-- What is recognized as a call of `rgb` can be read as one. -/
theorem Recognition.exists_call_of_ofRgbCall? {text : String} {found : Recognition}
    (h : ofRgbCall? text = .ok (some found)) : ∃ call, Call.readRgb? text.toList = some call := by
  cases hread : Call.readRgb? text.toList with
  | some call => exact ⟨call, rfl⟩
  | none => simp [ofRgbCall?, hread] at h

theorem Recognition.exists_call_of_ofHslCall? {text : String} {found : Recognition}
    (h : ofHslCall? text = .ok (some found)) : ∃ call, Call.readHsl? text.toList = some call := by
  cases hread : Call.readHsl? text.toList with
  | some call => exact ⟨call, rfl⟩
  | none => simp [ofHslCall?, hread] at h

namespace Recognizer

/-- The only recognizer that may accept a text. -/
def guess (text : List Char) : Recognizer :=
  if text.head? = some '#' then .hexLiteral
  else if '(' ∉ text then .keyword
  else if text.head?.map Char.toLower = some 'r' then .rgbCall
  else .hslCall

/-- The text has no blanks at its ends, and it looks like a text for the recognizer. -/
structure Suits (recognizer : Recognizer) (text : List Char) : Prop where
  /-- The text has a first character, which is no blank. -/
  first : ∃ c ∈ text.head?, isBlank c = false
  /-- The last character is no blank. -/
  last : ∀ c ∈ text.getLast?, isBlank c = false
  /-- No other recognizer comes into question. -/
  guess_eq : guess text = recognizer

/-! ## The texts that are accepted -/

/-- The texts that a recognizer accepts, a final newline taken off. -/
inductive Grammar : Recognizer → List Char → Prop
  /-- A number sign and three, four, six or eight digits. -/
  | hexLiteral {text : List Char} (h : HexLiteral.isLiteral text = true) : Grammar .hexLiteral text
  /-- A keyword in lower case. -/
  | keyword {name color : String} (h : Keyword.color? name = some color) :
    Grammar .keyword name.toList
  /-- A call of `rgb` or `rgba`. -/
  | rgbCall {layout : Call.Layout}
    (h : layout.Valid ['r', 'g', 'b'] Call.Component Call.Component) : Grammar .rgbCall layout.text
  /-- A call of `hsl` or `hsla`. -/
  | hslCall {layout : Call.Layout}
    (h : layout.Valid ['h', 's', 'l'] Call.Degrees Call.Percentage) : Grammar .hslCall layout.text

/-- Literals look like texts for the recognizer of literals. -/
theorem suits_hexLiteral {text : List Char} (h : HexLiteral.isLiteral text = true) :
    Suits .hexLiteral text := by
  obtain ⟨digits, rfl, hdigits, -⟩ := HexLiteral.exists_digits_of_isLiteral h
  exact ⟨⟨'#', rfl, by decide⟩, getLast?_literal_not_blank hdigits, rfl⟩

theorem suits_keyword {name color : String} (h : Keyword.color? name = some color) :
    Suits .keyword name.toList := by
  obtain ⟨hne, hletters⟩ := Keyword.isLower_of_color? h
  have hplain : ∀ c ∈ name.toList, isBlank c = false ∧ c ≠ '#' ∧ c ≠ '(' :=
    fun c hc => isLower_not_blank (hletters c hc)
  refine ⟨?_, fun c hc => (hplain c (List.mem_of_getLast? hc)).1, ?_⟩
  · exact ⟨name.toList.head hne, List.head?_eq_some_head hne, (hplain _ (List.head_mem hne)).1⟩
  · have hsign : name.toList.head? ≠ some '#' := fun hhead =>
      (hplain '#' (List.mem_of_mem_head? hhead)).2.1 rfl
    have hopening : '(' ∉ name.toList := fun hmem => (hplain '(' hmem).2.2 rfl
    rw [guess, if_neg hsign, if_pos hopening]

/-- The first letter of a call tells which of the two functions is called. -/
theorem suits_call {e : Char} {name : List Char} {first other : List Char → List Char → Prop}
    {layout : Call.Layout} (h : layout.Valid (e :: name) first other) (he : e = 'r' ∨ e = 'h') :
    Suits (if e = 'r' then .rgbCall else .hslCall) layout.text := by
  obtain ⟨⟨c, rest, htext, hc⟩, hlast, hopening⟩ := Call.ends_of_valid h
  obtain ⟨hblank, hsign⟩ := Call.letter_of_toLower (hc ▸ he)
  refine ⟨⟨c, by rw [htext]; rfl, hblank⟩, ?_, ?_⟩
  · rw [hlast]
    rintro d hd
    obtain rfl : ')' = d := by simpa using hd
    decide
  · have hsign' : layout.text.head? ≠ some '#' := by simpa [htext] using hsign
    have hletter : layout.text.head?.map Char.toLower = some e := by simp [htext, hc]
    rw [guess, if_neg hsign', if_neg (not_not_intro hopening), hletter]
    simp only [Option.some.injEq]

/-- The texts of a grammar suit its recognizer. -/
theorem suits_of_grammar {recognizer : Recognizer} {body : List Char}
    (h : recognizer.Grammar body) : recognizer.Suits body := by
  cases h with
  | hexLiteral h => exact suits_hexLiteral h
  | keyword h => exact suits_keyword h
  | rgbCall h => exact suits_call h (.inl rfl)
  | hslCall h => exact suits_call h (.inr rfl)

/-- A text that a recognizer accepts is in its grammar, once a final newline is taken off. -/
theorem exists_grammar_of_run {recognizer : Recognizer} {text : String} {found : Recognition}
    (h : recognizer.run text = .ok (some found)) :
    ∃ body ending, text.toList = body ++ ending ∧ (ending = [] ∨ ending = ['\n']) ∧
      recognizer.Grammar body := by
  cases recognizer with
  | hexLiteral =>
    have hfound : Recognition.ofHexLiteral? text = some found := Except.ok.inj h
    rw [Recognition.ofHexLiteral?, Option.ite_none_right_eq_some] at hfound
    -- the literal is what is left after a final newline was dropped
    obtain ⟨ending, hending, htext⟩ :=
      (dropFinalNewline_eq_iff (getLast?_ne_newline (suits_hexLiteral hfound.1).last)).mp rfl
    exact ⟨_, ending, htext, hending, .hexLiteral hfound.1⟩
  | keyword =>
    have hfound : Recognition.ofKeyword? text = some found := Except.ok.inj h
    obtain ⟨color, hcolor, -⟩ := Option.map_eq_some_iff.mp hfound
    exact ⟨text.toList, [], by simp, .inl rfl, .keyword hcolor⟩
  | rgbCall =>
    obtain ⟨call, hread⟩ := Recognition.exists_call_of_ofRgbCall? h
    obtain ⟨layout, hvalid, -, ending, hending, htext⟩ :=
      (Call.read?_eq_some_iff Call.reads_component Call.reads_component).mp hread
    exact ⟨layout.text, ending, htext, hending, .rgbCall hvalid⟩
  | hslCall =>
    obtain ⟨call, hread⟩ := Recognition.exists_call_of_ofHslCall? h
    obtain ⟨layout, hvalid, -, ending, hending, htext⟩ :=
      (Call.read?_eq_some_iff Call.reads_degrees Call.reads_percentage).mp hread
    exact ⟨layout.text, ending, htext, hending, .hslCall hvalid⟩

/-- What follows a text does not change the recognizer that may accept it, as long as no parenthesis
opens there. -/
theorem guess_append {body ending : List Char} (hbody : body ≠ []) (hending : '(' ∉ ending) :
    guess (body ++ ending) = guess body := by
  rw [guess, guess, List.head?_append_of_ne_nil _ hbody]
  simp [hending]

/-- The recognizer that accepts a text is the one to be guessed. -/
theorem eq_guess_of_run {recognizer : Recognizer} {text : String} {found : Recognition}
    (h : recognizer.run text = .ok (some found)) : recognizer = guess text.toList := by
  obtain ⟨body, ending, htext, hending, hgrammar⟩ := exists_grammar_of_run h
  have hsuits := suits_of_grammar hgrammar
  have hbody : body ≠ [] := by
    rintro rfl
    obtain ⟨c, hc, -⟩ := hsuits.first
    simp at hc
  have hopening : '(' ∉ ending := by
    rcases hending with rfl | rfl <;> decide
  rw [htext, guess_append hbody hopening, hsuits.guess_eq]

/-- A text without a final newline that a recognizer accepts has no blanks at its ends. -/
theorem strip_eq_self_of_run {recognizer : Recognizer} {text : String} {found : Recognition}
    (hnewline : text.toList.getLast? ≠ some '\n') (h : recognizer.run text = .ok (some found)) :
    strip text = text := by
  obtain ⟨body, ending, htext, hending, hgrammar⟩ := exists_grammar_of_run h
  have hsuits := suits_of_grammar hgrammar
  rcases hending with rfl | rfl
  · rw [List.append_nil] at htext
    obtain ⟨c, hc, hblank⟩ := hsuits.first
    refine strip_eq_self ?_ (htext ▸ hsuits.last)
    rw [htext, Option.mem_def.mp hc]
    rintro d hd
    obtain rfl : c = d := by simpa using hd
    exact hblank
  · rw [htext, List.getLast?_concat] at hnewline
    exact absurd rfl hnewline

/-! ## Several recognizers -/

/-- Whichever recognizer accepts a text, it is found among others, and it is the only one. -/
theorem firstMatch_eq_some_iff {text : String} {recognizers : List Recognizer}
    {found : Recognition} :
    firstMatch text recognizers = .ok (some found) ↔
      ∃ recognizer ∈ recognizers, recognizer.run text = .ok (some found) := by
  induction recognizers with
  | nil => simp [firstMatch]
  | cons recognizer rest ih =>
    obtain ⟨outcome, houtcome⟩ := run_succeeds recognizer text
    rw [firstMatch, houtcome, ok_bind, List.exists_mem_cons_iff]
    cases outcome with
    | none => simp [houtcome, ih]
    | some first =>
      -- a recognizer further back that accepts the text is the one that stands here
      have hrest : (∃ other ∈ rest, other.run text = .ok (some found)) →
          recognizer.run text = .ok (some found) := by
        rintro ⟨other, -, hother⟩
        rw [eq_guess_of_run houtcome, ← eq_guess_of_run hother]
        exact hother
      rw [or_iff_left_of_imp hrest, houtcome]
      simp

/-- Recognizers that are tried one after the other never fail, since none of them does. -/
theorem firstMatch_succeeds (text : String) (recognizers : List Recognizer) :
    ∃ outcome, firstMatch text recognizers = .ok outcome := by
  have hyields : Yields (firstMatch text recognizers) fun outcome => ∀ found ∈ outcome, True :=
    firstMatch_yields fun recognizer _ => (run_succeeds recognizer text).imp fun _ h =>
      ⟨h, fun _ _ => trivial⟩
  exact hyields.imp fun _ h => h.1

/-- Only which recognizers are tried matters, not how often or in which order. -/
theorem firstMatch_congr {text : String} {recognizers others : List Recognizer}
    (h : ∀ recognizer, recognizer ∈ recognizers ↔ recognizer ∈ others) :
    firstMatch text recognizers = firstMatch text others := by
  obtain ⟨outcome, houtcome⟩ := firstMatch_succeeds text recognizers
  obtain ⟨outcome', houtcome'⟩ := firstMatch_succeeds text others
  rw [houtcome, houtcome']
  congr 1
  ext found
  have hiff : firstMatch text recognizers = .ok (some found) ↔
      firstMatch text others = .ok (some found) := by
    rw [firstMatch_eq_some_iff, firstMatch_eq_some_iff]
    simp only [h]
  rwa [houtcome, houtcome', Except.ok.injEq, Except.ok.injEq] at hiff

/-- A text without a final newline that a recognizer accepts is recognized by it, also as a bare
text. -/
theorem recognize_of_run {recognizer : Recognizer} {text : String} {found : Recognition}
    (hnewline : text.toList.getLast? ≠ some '\n') (h : recognizer.run text = .ok (some found)) :
    recognize text = .ok (some found) := by
  have hmem : recognizer ∈ Recognizer.all := by cases recognizer <;> decide
  have hfirst : firstMatch text Recognizer.all = .ok (some found) :=
    firstMatch_eq_some_iff.mpr ⟨recognizer, hmem, h⟩
  simp [recognize, strip_eq_self_of_run hnewline h, hfirst]

/-- At most one recognizer accepts a text, and all others refuse it. Recognizers may therefore be
tried in any order, those for bare texts as well as those for a node of a syntax tree. A text
without a final newline that a recognizer accepts is recognized in the same way as a bare text. -/
theorem run_disjoint (text : String) :
    (∀ (recognizer : Recognizer) (found : Recognition), recognizer.run text = .ok (some found) →
      ∀ other : Recognizer, other ≠ recognizer → other.run text = .ok none) ∧
    (∀ order : List Recognizer, order.Perm Recognizer.all →
      firstMatch text order = firstMatch text Recognizer.all) ∧
    (∀ (name : RawText) (order : List Recognizer), order.Perm (SyntaxTree.recognizers name) →
      firstMatch text order = firstMatch text (SyntaxTree.recognizers name)) ∧
    (text.toList.getLast? ≠ some '\n' →
      ∀ (recognizer : Recognizer) (found : Recognition), recognizer.run text = .ok (some found) →
        recognize text = .ok (some found)) := by
  refine ⟨fun recognizer found h other hne => ?_, fun order horder => ?_,
    fun name order horder => ?_, fun hnewline recognizer found h => ?_⟩
  · obtain ⟨outcome, houtcome⟩ := run_succeeds other text
    cases outcome with
    | none => exact houtcome
    -- both would be the one recognizer that the text admits
    | some found' => exact absurd ((eq_guess_of_run houtcome).trans (eq_guess_of_run h).symm) hne
  · exact firstMatch_congr fun _ => horder.mem_iff
  · exact firstMatch_congr fun _ => horder.mem_iff
  · exact recognize_of_run hnewline h

/-- A call in capitals, with the recognizers tried from the last one to the first. -/
theorem run_disjoint_capital_call :
    let text := "HSLA(120DEG 50% 50% / .5)"
    let found : Recognition := ⟨.hsl, "#40bf40", " / .5", "HSLA", " "⟩
    Recognizer.hslCall.run text = .ok (some found) ∧ Recognizer.rgbCall.run text = .ok none ∧
      firstMatch text [.hslCall, .rgbCall, .keyword, .hexLiteral] =
        firstMatch text Recognizer.all ∧
      firstMatch text [.hslCall, .rgbCall] =
        firstMatch text (SyntaxTree.recognizers "CallExpression") ∧
      recognize text = .ok (some found) := by
  intro text found
  obtain ⟨hdisjoint, hall, hnode, hbare⟩ := run_disjoint text
  have hrun : Recognizer.hslCall.run text = .ok (some found) := by decide +kernel
  exact ⟨hrun, hdisjoint .hslCall found hrun .rgbCall (by decide), hall _ (by decide),
    hnode "CallExpression" _ (by decide), hbare (by decide) .hslCall found hrun⟩

end Recognizer

end CssColor
