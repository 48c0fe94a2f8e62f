import CssColor.Proofs.Recognition.Acceptance
import CssColor.Proofs.Text.Case

/-!
# Recognition without regard to case

The four recognizers treat case in ways of their own: a hex literal is expanded in lower case, the
words of a call are compared in lower case, and a keyword is looked up as it is written and then in
lower case. What they have in common is found by comparing a text to the text in lower case. Nothing
but the name of a called function is different then, and that is the name in lower case. Two texts
that are the same in lower case are compared through that.

## Main definitions

* `Call.CaseBlind`: a reader takes no notice of case.
* `Recognition.Alike`: two recognitions are the same up to the case of the called function.
* `recognizeBare`: recognition of a text without outer blanks, with keywords in either case at once.

## Main results

* `Call.read?_map_toLower`: a call is read from a text in lower case with its name in lower case.
* `recognize_eq_bare`: keywords need to be looked up in lower case only.
* `recognizeBare_asciiLower`: recognition of a text in lower case.
* `recognize_alike`: texts that are alike are recognized alike.
-/

namespace CssColor

open Text

/-! ## Readers -/

namespace Call

/-- A reader takes no notice of case. From a text in lower case it reads what it reads from the text
itself, seen through `view`, and leaves what it leaves of the text, in lower case. -/
def CaseBlind (view : List Char → List Char) (reader : Reader (List Char)) : Prop :=
  ∀ text, reader (text.map Char.toLower) =
    (reader text).map (Prod.map view (List.map Char.toLower))

section

variable {view : List Char → List Char} {reader : Reader (List Char)}

/-- What follows a reader may go on with the text in lower case. -/
theorem CaseBlind.bind (h : CaseBlind view reader) {α : Type} {change : α → α}
    {next next' : List Char × List Char → Option α} (text : List Char)
    (hnext : ∀ found rest, next' (view found, rest.map Char.toLower) =
      (next (found, rest)).map change) :
    (reader (text.map Char.toLower)).bind next' = ((reader text).bind next).map change := by
  rw [h text]
  cases reader text with
  | none => rfl
  | some outcome => exact hnext outcome.1 outcome.2

/-- A part that is read without notice of case is optional without notice of case. -/
theorem CaseBlind.optional (h : CaseBlind view reader) (hview : view [] = []) (text : List Char) :
    optional reader (text.map Char.toLower) =
      Prod.map view (List.map Char.toLower) (Call.optional reader text) := by
  rw [Call.optional, Call.optional, h text]
  cases reader text with
  | none => rw [Option.map_none, Option.getD_none, Option.getD_none, Prod.map_apply, hview]
  | some outcome => rfl

end

/-- A word is read in any case and keeps its own. -/
theorem caseBlind_word (expected : List Char) :
    CaseBlind (List.map Char.toLower) (word expected) := by
  intro text
  simp only [word, ← List.map_take, ← List.map_drop, map_toLower_map_toLower]
  split_ifs <;> rfl

/-- A mark is read as it is. -/
theorem caseBlind_word_mark {e : Char} (he : Letterless (· == e)) : CaseBlind id (word [e]) := by
  intro text
  rw [caseBlind_word [e] text]
  cases hread : word [e] text with
  | none => rfl
  | some outcome =>
    obtain ⟨found, rest⟩ := outcome
    obtain ⟨c, tail, rfl, hc, htail⟩ := List.map_eq_cons_iff.mp (eq_append_of_word hread).2
    obtain rfl := List.map_eq_nil_iff.mp htail
    have hmark : (c == e) = true := (he.caseFree c).symm.trans (beq_iff_eq.mpr hc)
    simp [he.toLower_eq hmark]

theorem caseBlind_shortNumber : CaseBlind id shortNumber := by
  intro text
  simp only [shortNumber, letterless_isDigit.takeWhile_map,
    letterless_isDigit.caseFree.dropWhile_map]
  split_ifs <;> rfl

theorem caseBlind_percentSign : CaseBlind id (word ['%']) :=
  caseBlind_word_mark (by decide)

theorem caseBlind_component : CaseBlind id component := by
  intro text
  refine caseBlind_shortNumber.bind text fun digits rest => ?_
  simp [caseBlind_percentSign.optional rfl]

/-- The unit of a hue may be in any case, and is not kept. -/
theorem caseBlind_degrees : CaseBlind id degrees := by
  intro text
  refine caseBlind_shortNumber.bind text fun digits rest => ?_
  simp [(caseBlind_word ['d', 'e', 'g']).optional rfl]

theorem caseBlind_percentage : CaseBlind id percentage := by
  intro text
  refine caseBlind_shortNumber.bind text fun digits rest => ?_
  exact caseBlind_percentSign.bind rest fun sign rest => rfl

theorem blanks_map_toLower (text : List Char) :
    blanks (text.map Char.toLower) = ((blanks text).1, (blanks text).2.map Char.toLower) := by
  rw [blanks, letterless_isAsciiBlank.takeWhile_map, letterless_isAsciiBlank.caseFree.dropWhile_map]
  rfl

/-- Marks that are no letters have no case. -/
theorem caseBlind_mark {isMark : Char → Bool} (h : Letterless isMark) :
    CaseBlind id (mark isMark) := by
  intro text
  rw [mark, mark, blanks_map_toLower]
  obtain ⟨leading, rest⟩ := blanks text
  cases rest with
  | nil => rfl
  | cons c rest =>
    simp only [List.map_cons, h.caseFree c, blanks_map_toLower]
    split_ifs with hc
    · simp [h.toLower_eq hc]
    · rfl

theorem caseBlind_argumentSeparator : CaseBlind id argumentSeparator := by
  intro text
  rw [argumentSeparator, argumentSeparator, caseBlind_mark (by decide) text]
  cases mark (· == ',') text with
  | some found => rfl
  | none =>
    simp only [Option.map_none, blanks_map_toLower]
    split_ifs <;> rfl

/-! A fraction is read in one of two ways, by what stands behind its first digits. -/

/-- Digits with a point behind them are a decimal when digits follow the point. -/
theorem fraction_of_point {text rest : List Char} (h : text.dropWhile Char.isDigit = '.' :: rest) :
    fraction text = if rest.takeWhile Char.isDigit = [] then none
      else some (text.takeWhile Char.isDigit ++ '.' :: rest.takeWhile Char.isDigit,
        rest.dropWhile Char.isDigit) := by
  rw [fraction, h]
  rfl

/-- Without a point, digits alone are a decimal. -/
theorem fraction_of_no_point {text : List Char}
    (h : ¬ ∃ rest, text.dropWhile Char.isDigit = '.' :: rest) :
    fraction text = if text.takeWhile Char.isDigit = [] then none
      else some (text.takeWhile Char.isDigit, text.dropWhile Char.isDigit) := by
  rw [fraction]
  split
  · next rest hrest => exact absurd ⟨rest, hrest⟩ h
  · rfl

theorem caseBlind_fraction : CaseBlind id fraction := by
  intro text
  have hdrop := letterless_isDigit.caseFree.dropWhile_map text
  by_cases hpoint : ∃ rest, text.dropWhile Char.isDigit = '.' :: rest
  · obtain ⟨rest, hrest⟩ := hpoint
    rw [hrest] at hdrop
    rw [fraction_of_point hrest, fraction_of_point hdrop]
    simp only [letterless_isDigit.takeWhile_map, letterless_isDigit.caseFree.dropWhile_map]
    split_ifs <;> rfl
  · -- lower case makes no point where there is none
    have hlower : ¬ ∃ rest, (text.map Char.toLower).dropWhile Char.isDigit = '.' :: rest := by
      rintro ⟨_, hrest⟩
      obtain ⟨c, rest, htext, hc, -⟩ := List.map_eq_cons_iff.mp (hdrop.symm.trans hrest)
      obtain rfl : c = '.' := eq_of_toLower_eq (by decide) hc
      exact hpoint ⟨rest, htext⟩
    rw [fraction_of_no_point hpoint, fraction_of_no_point hlower, hdrop,
      letterless_isDigit.takeWhile_map]
    split_ifs <;> rfl

theorem caseBlind_opacity : CaseBlind id opacity := by
  intro text
  refine (caseBlind_mark (by decide)).bind text fun leading rest => ?_
  refine caseBlind_fraction.bind rest fun value rest => ?_
  simp [caseBlind_percentSign.optional rfl]

/-- A function name is read in any case and keeps its own. -/
theorem caseBlind_functionName (name : List Char) :
    CaseBlind (List.map Char.toLower) (functionName name) := by
  intro text
  refine (caseBlind_word name).bind text fun base rest => ?_
  simp [(caseBlind_word ['a']).optional rfl]

/-- A call is closed by a parenthesis behind blanks, which one newline may follow. -/
theorem closes_iff_blanks {text : List Char} :
    closes text = true ↔ (blanks text).2 = [')'] ∨ (blanks text).2 = [')', '\n'] := by
  rw [closes]
  split <;> simp_all

theorem closes_map_toLower (text : List Char) : closes (text.map Char.toLower) = closes text := by
  have hclosing (c : Char) : c.toLower = ')' ↔ c = ')' :=
    ⟨eq_of_toLower_eq (by decide), by rintro rfl; rfl⟩
  have hnewline (c : Char) : c.toLower = '\n' ↔ c = '\n' :=
    ⟨eq_of_toLower_eq (by decide), by rintro rfl; rfl⟩
  rw [Bool.eq_iff_iff, closes_iff_blanks, closes_iff_blanks, blanks_map_toLower]
  simp [List.map_eq_cons_iff, hclosing, hnewline]

/-! ## Calls -/

/-- The call with its name in lower case. -/
def lowerName (call : Call) : Call := { call with function := call.function.map Char.toLower }

/-- A call is read from a text in lower case with its name in lower case. -/
theorem read?_map_toLower {name : List Char} {first other : Reader (List Char)}
    (hfirst : CaseBlind id first) (hother : CaseBlind id other) (text : List Char) :
    read? name first other (text.map Char.toLower) =
      (read? name first other text).map lowerName := by
  -- part by part, each read from what the one before it has left
  refine (caseBlind_functionName name).bind text fun function rest => ?_
  refine (caseBlind_word ['(']).bind rest fun opening rest => ?_
  dsimp only
  rw [blanks_map_toLower]
  refine hfirst.bind (blanks rest).2 fun first rest => ?_
  refine caseBlind_argumentSeparator.bind rest fun separator rest => ?_
  refine hother.bind rest fun second rest => ?_
  refine caseBlind_argumentSeparator.bind rest fun nextSeparator rest => ?_
  refine hother.bind rest fun third rest => ?_
  simp only [caseBlind_opacity.optional rfl, Prod.map_fst, Prod.map_snd, closes_map_toLower]
  split_ifs <;> rfl

/-- In lower case the same call of `rgb` is read, with its name in lower case. -/
theorem readRgb?_map_toLower (text : List Char) :
    readRgb? (text.map Char.toLower) = (readRgb? text).map lowerName :=
  read?_map_toLower caseBlind_component caseBlind_component text

theorem readHsl?_map_toLower (text : List Char) :
    readHsl? (text.map Char.toLower) = (readHsl? text).map lowerName :=
  read?_map_toLower caseBlind_degrees caseBlind_percentage text

end Call

/-! ## Hex literals -/

namespace HexLiteral

/-- A hex literal may be in any case. -/
theorem isLiteral_map_toLower (text : List Char) :
    isLiteral (text.map Char.toLower) = isLiteral text := by
  cases text with
  | nil => rfl
  | cons c digits =>
    rw [List.map_cons]
    by_cases hc : c = '#'
    · subst hc
      have hdigits : (digits.map Char.toLower).all isHexDigit = digits.all isHexDigit := by
        rw [List.all_map, caseFree_isHexDigit.comp_toLower]
      simp [isLiteral, hdigits]
    · have hlower : c.toLower ≠ '#' := fun h => hc (eq_of_toLower_eq (by decide) h)
      simp [isLiteral, hc, hlower]

/-- A literal is expanded in lower case. A text of another length would stay as it is. -/
theorem expand_map_toLower {text : List Char} (h : isLiteral text = true) :
    expand (text.map Char.toLower) = expand text := by
  obtain ⟨digits, rfl, -, hlength⟩ := exists_digits_of_isLiteral h
  rw [expand, expand, List.length_map, lowerChars_map_toLower, List.length_cons]
  simp only [List.mem_cons, List.not_mem_nil, or_false] at hlength
  rcases hlength with hlength | hlength | hlength | hlength <;> simp [hlength]

end HexLiteral

/-! ## Recognizers -/

namespace Recognition

/-- The recognition with the name of the called function in lower case. -/
def lowerName (found : Recognition) : Recognition :=
  { found with function := asciiLower found.function }

/-- Without a call there is no name. -/
theorem lowerName_eq_self {found : Recognition} (h : found.function = "") :
    found.lowerName = found := by
  have hname : asciiLower found.function = found.function := by rw [h]; rfl
  rw [lowerName, hname]

/-- In lower case the same hex literal is recognized. A final newline is left out, since it would be
taken for a digit of the opacity. -/
theorem ofHexLiteral?_asciiLower {text : String} (hlast : text.toList.getLast? ≠ some '\n') :
    ofHexLiteral? (asciiLower text) = (ofHexLiteral? text).map lowerName := by
  have hlower : (text.toList.map Char.toLower).getLast? ≠ some '\n' := by
    rw [List.getLast?_map]
    intro h
    obtain ⟨c, hc, hnewline⟩ := Option.map_eq_some_iff.mp h
    exact hlast (hc.trans (congrArg some (eq_of_toLower_eq (by decide) hnewline)))
  rw [ofHexLiteral?, ofHexLiteral?, toList_asciiLower, dropFinalNewline, if_neg hlower,
    dropFinalNewline, if_neg hlast, HexLiteral.isLiteral_map_toLower]
  split_ifs with hliteral
  · rw [HexLiteral.expand_map_toLower hliteral, Option.map_some, lowerName_eq_self rfl]
  · rfl

/-- A recognized keyword has no function name. -/
theorem map_lowerName_ofKeyword? (text : String) :
    (ofKeyword? text).map lowerName = ofKeyword? text := by
  rw [ofKeyword?, Option.map_map]
  exact congrArg (Option.map · _) (funext fun color => lowerName_eq_self rfl)

/-- The recognition of a call takes the name from it. -/
theorem toRecognition_lowerName (call : Call) (kind : Notation) (color : String) :
    call.lowerName.toRecognition kind color = (call.toRecognition kind color).lowerName := by
  simp [Call.toRecognition, lowerName, asciiLower, Call.lowerName, Call.separatorStyle]

/-- A call that is read with its name in lower case is recognized with its name in lower case, as
long as its color does not depend on the name. -/
theorem recognition_lowerName (kind : Notation) {color : Call → Except NumericError String}
    (hcolor : ∀ call, color call.lowerName = color call) (read : Option Call) :
    (match read.map Call.lowerName with
      | some call => (do return some (call.toRecognition kind (← color call)))
      | none => return none) =
      (match read with
        | some call => (do return some (call.toRecognition kind (← color call)))
        | none => return none : Except NumericError (Option Recognition)).map
          (Option.map lowerName) := by
  cases read with
  | none => rfl
  | some call =>
    simp only [Option.map_some, hcolor, toRecognition_lowerName]
    cases color call <;> rfl

/-- In lower case the same call of `rgb` is recognized, with its name in lower case. -/
theorem ofRgbCall?_asciiLower (text : String) :
    ofRgbCall? (asciiLower text) = (ofRgbCall? text).map (Option.map lowerName) := by
  rw [ofRgbCall?, ofRgbCall?, toList_asciiLower, Call.readRgb?_map_toLower]
  exact recognition_lowerName .rgb (fun _ => rfl) _

theorem ofHslCall?_asciiLower (text : String) :
    ofHslCall? (asciiLower text) = (ofHslCall? text).map (Option.map lowerName) := by
  rw [ofHslCall?, ofHslCall?, toList_asciiLower, Call.readHsl?_map_toLower]
  exact recognition_lowerName .hsl (fun _ => rfl) _

end Recognition

namespace Recognizer

/-- All recognizers but that of keywords take no notice of case. -/
theorem run_asciiLower {recognizer : Recognizer} (h : recognizer ≠ .keyword) {text : String}
    (hlast : text.toList.getLast? ≠ some '\n') :
    recognizer.run (asciiLower text) =
      (recognizer.run text).map (Option.map Recognition.lowerName) := by
  cases recognizer with
  | hexLiteral => exact congrArg Except.ok (Recognition.ofHexLiteral?_asciiLower hlast)
  | keyword => exact absurd rfl h
  | rgbCall => exact Recognition.ofRgbCall?_asciiLower text
  | hslCall => exact Recognition.ofHslCall?_asciiLower text

/-- All recognizers but that of keywords take no notice of case. -/
theorem firstMatch_asciiLower {recognizers : List Recognizer}
    (h : ∀ recognizer ∈ recognizers, recognizer ≠ .keyword) {text : String}
    (hlast : text.toList.getLast? ≠ some '\n') :
    firstMatch (asciiLower text) recognizers =
      (firstMatch text recognizers).map (Option.map Recognition.lowerName) := by
  induction recognizers with
  | nil => rfl
  | cons recognizer rest ih =>
    obtain ⟨hrecognizer, hrest⟩ := List.forall_mem_cons.mp h
    rw [firstMatch, firstMatch, run_asciiLower hrecognizer hlast]
    cases recognizer.run text with
    | error cause => rfl
    | ok outcome =>
      cases outcome with
      | none => exact ih hrest
      | some found => rfl

end Recognizer

/-! ## Bare texts -/

/-- The color that a text without blanks at its ends writes, where keywords are looked up in lower
case only. -/
def recognizeBare (bare : String) : Except NumericError (Option Recognition) := do
  match ← Recognizer.firstMatch bare [.hexLiteral, .rgbCall, .hslCall] with
  | some found => return some found
  | none => return Recognition.ofKeyword? (lower bare)

theorem lower_eq_self {text : String} (h : ∀ c ∈ text.toList, c.isLower = true) :
    lower text = text := by
  rw [lower, lowerChars_of_isAscii fun c hc => (toLower_of_isLower (h c hc)).1,
    map_toLower_eq_self fun c hc => (toLower_of_isLower (h c hc)).2, String.ofList_toList]

/-- Without a parenthesis there is no call. -/
theorem Call.read?_eq_none_of_notMem {name text : List Char} {first other : Reader (List Char)}
    {firstForm otherForm : List Char → List Char → Prop} (hfirst : Reads first firstForm)
    (hother : Reads other otherForm) (h : '(' ∉ text) : read? name first other text = none := by
  refine Option.eq_none_iff_forall_ne_some.mpr fun call hcall => h ?_
  obtain ⟨layout, -, -, ending, -, rfl⟩ := (read?_eq_some_iff hfirst hother).mp hcall
  simp [Layout.text]

/-- Keywords need to be looked up in lower case only: a text that is a keyword as it is written is
in lower case, and the recognizers of calls, which come in between, do not accept it. -/
theorem recognize_eq_bare (text : String) : recognize text = recognizeBare (strip text) := by
  rw [recognize, recognizeBare]
  generalize strip text = bare
  simp only [Recognizer.all, Recognizer.firstMatch, Recognizer.run, pure_eq_ok, ok_bind]
  cases Recognition.ofHexLiteral? bare with
  | some found => rfl
  | none =>
    cases hkeyword : Recognition.ofKeyword? bare with
    | none => rfl
    | some found =>
      obtain ⟨color, hcolor, -⟩ := Option.map_eq_some_iff.mp hkeyword
      have hletters := (Keyword.isLower_of_color? hcolor).2
      -- a keyword is no call, and it is found again when it is looked up in lower case
      have hcall : '(' ∉ bare.toList := fun hmem => (isLower_not_blank (hletters _ hmem)).2.2 rfl
      have hrgb : Call.readRgb? bare.toList = none :=
        Call.read?_eq_none_of_notMem Call.reads_component Call.reads_component hcall
      have hhsl : Call.readHsl? bare.toList = none :=
        Call.read?_eq_none_of_notMem Call.reads_degrees Call.reads_percentage hcall
      simp [Recognition.ofRgbCall?, Recognition.ofHslCall?, hrgb, hhsl, lower_eq_self hletters,
        hkeyword]

/-- Recognition of a text in lower case. -/
theorem recognizeBare_asciiLower {bare : String} (hlast : bare.toList.getLast? ≠ some '\n') :
    recognizeBare (asciiLower bare) =
      (recognizeBare bare).map (Option.map Recognition.lowerName) := by
  rw [recognizeBare, recognizeBare, Recognizer.firstMatch_asciiLower (by decide) hlast,
    lower_asciiLower]
  cases Recognizer.firstMatch bare [.hexLiteral, .rgbCall, .hslCall] with
  | error cause => rfl
  | ok outcome =>
    cases outcome with
    | none => exact congrArg Except.ok (Recognition.map_lowerName_ofKeyword? _).symm
    | some found => rfl

/-- Two recognitions are the same up to the case of the called function. -/
structure Recognition.Alike (found other : Recognition) : Prop where
  /-- The color is written in the same way. -/
  kind : found.kind = other.kind
  /-- The color is the same. -/
  color : found.color = other.color
  /-- The opacity is written in the same way. -/
  alpha : found.alpha = other.alpha
  /-- The name of the called function may be written in another case. -/
  function : asciiLower found.function = asciiLower other.function
  /-- The arguments are separated in the same way. -/
  separator : found.separator = other.separator

/-- Recognitions that agree with their names in lower case are the same up to the case of the
name. -/
theorem Recognition.alike_of_lowerName_eq {found other : Recognition}
    (h : found.lowerName = other.lowerName) : found.Alike other := by
  simp only [lowerName, mk.injEq] at h
  exact ⟨h.1, h.2.1, h.2.2.1, h.2.2.2.1, h.2.2.2.2⟩

/-- Texts that are alike are recognized alike, or both are no colors. -/
theorem recognize_alike {text other : String} (h : Text.Alike text other) :
    (recognize text = .ok none ∧ recognize other = .ok none) ∨
      ∃ found found', recognize text = .ok (some found) ∧ recognize other = .ok (some found') ∧
        found.Alike found' := by
  -- both texts become the same one when they are stripped and put into lower case
  have hlower : (recognize text).map (Option.map Recognition.lowerName) =
      (recognize other).map (Option.map Recognition.lowerName) := by
    rw [recognize_eq_bare, recognize_eq_bare, ← recognizeBare_asciiLower (getLast?_strip text),
      ← recognizeBare_asciiLower (getLast?_strip other), alike_iff.mp h]
  obtain ⟨outcome, houtcome, -⟩ := recognize_spec text
  obtain ⟨outcome', houtcome', -⟩ := recognize_spec other
  rw [houtcome, houtcome'] at hlower ⊢
  have hsame : outcome.map Recognition.lowerName = outcome'.map Recognition.lowerName :=
    Except.ok.inj hlower
  cases outcome with
  | none =>
    obtain rfl : outcome' = none := Option.map_eq_none_iff.mp hsame.symm
    exact .inl ⟨rfl, rfl⟩
  | some found =>
    obtain ⟨found', rfl, hname⟩ := Option.map_eq_some_iff.mp hsame.symm
    exact .inr ⟨found, found', rfl, rfl, Recognition.alike_of_lowerName_eq hname.symm⟩

end CssColor
