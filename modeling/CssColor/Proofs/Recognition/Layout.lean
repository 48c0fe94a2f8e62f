import CssColor.Proofs.Recognition.Grammar

/-!
# Color calls as a whole

A call is read exactly from a text in which its pieces are laid out one after another. In one
direction the pieces are followed from the front, where each reader says what it has taken off; in
the other from the back, where each piece has to end before what comes next.

## Main definitions

* `Call.Layout`: the parts of a call with all that stands around them.
* `Call.Layout.Valid`: each part has its form.

## Main results

* `Call.read?_eq_some_iff`: a call is read exactly from the texts of its layouts, which one newline
  may follow.
* `Call.Layout.Valid.eq_of_text_eq`: a text is laid out in one way only.
-/

namespace CssColor.Call

open Text

/-- The parts of a call with all that stands around them. The arguments are given twice, as they are
kept and as they are written. -/
@[ext] structure Layout extends Call where
  /-- The blanks after the opening parenthesis. -/
  leading : List Char
  /-- The first argument as written. -/
  firstText : List Char
  /-- The second argument as written. -/
  secondText : List Char
  /-- What stands between the second and the third argument. -/
  nextSeparator : List Char
  /-- The third argument as written. -/
  thirdText : List Char
  /-- The blanks before the closing parenthesis. -/
  trailing : List Char

namespace Layout

/-- The part of the text behind the third argument. -/
def closing (layout : Layout) : List Char := layout.alpha ++ (layout.trailing ++ [')'])

/-- The text of the call. -/
def text (layout : Layout) : List Char :=
  layout.function ++ '(' :: (layout.leading ++ (layout.firstText ++ (layout.separator ++
    (layout.secondText ++ (layout.nextSeparator ++ (layout.thirdText ++ layout.closing))))))

/-- A call ends in its closing parenthesis. -/
theorem getLast?_text (layout : Layout) : layout.text.getLast? = some ')' := by
  have htext : layout.text = (layout.function ++ '(' :: (layout.leading ++ layout.firstText ++
      layout.separator ++ layout.secondText ++ layout.nextSeparator ++ layout.thirdText ++
      layout.alpha ++ layout.trailing)) ++ [')'] := by
    simp [text, closing]
  rw [htext, List.getLast?_concat]

/-- Each part of the layout has its form. -/
structure Valid (name : List Char) (first other : List Char → List Char → Prop)
    (layout : Layout) : Prop where
  /-- The function has the given name. -/
  function : IsFunctionName name layout.function
  /-- Blanks may follow the opening parenthesis. -/
  leading : AllBlank layout.leading
  /-- The first argument has its form. -/
  first : first layout.first layout.firstText
  /-- The first two arguments are separated. -/
  separator : IsSeparator layout.separator
  /-- The second argument has the form of the others. -/
  second : other layout.second layout.secondText
  /-- The last two arguments are separated. -/
  nextSeparator : IsSeparator layout.nextSeparator
  /-- The third argument has the form of the others. -/
  third : other layout.third layout.thirdText
  /-- An opacity may follow. -/
  alpha : layout.alpha = [] ∨ IsOpacity layout.alpha
  /-- Blanks may stand before the closing parenthesis. -/
  trailing : AllBlank layout.trailing

end Layout

/-- What follows the third argument starts with no character of a number. -/
theorem startsWith_closing {alpha trailing : List Char} (ending : List Char)
    (halpha : alpha = [] ∨ IsOpacity alpha)
    (htrailing : AllBlank trailing) :
    StartsWith isBoundary (alpha ++ (trailing ++ ')' :: ending)) := by
  rcases halpha with rfl | ⟨leading, value, sign, rfl, hleading, -, -⟩
  · cases trailing with
    | nil => exact ⟨')', ending, rfl, rfl⟩
    | cons c rest =>
      exact ⟨c, _, rfl, isBoundary_of_isAsciiBlank c (htrailing c List.mem_cons_self)⟩
  · have hmark : ∀ c, (c == ',' || c == '/') = true → isBoundary c = true := by
      intro c hc
      simp only [Bool.or_eq_true, beq_iff_eq] at hc
      rcases hc with rfl | rfl <;> rfl
    exact ((hleading.startsWith hmark).append value).append sign |>.append _

/-- A separator starts with a character that may follow a number. -/
theorem startsWith_separator {text : List Char} (h : IsSeparator text) :
    StartsWith isBoundary text := by
  rcases h with h | ⟨hne, hblank⟩
  · refine h.startsWith fun c hc => ?_
    obtain rfl : c = ',' := by simpa using hc
    rfl
  · exact (startsWith_of_forall hne hblank).mono isBoundary_of_isAsciiBlank

/-- The opacity is read where it stands, and nothing is where none stands. -/
theorem optional_opacity_append {alpha trailing ending : List Char}
    (halpha : alpha = [] ∨ IsOpacity alpha) (htrailing : AllBlank trailing) :
    optional opacity (alpha ++ (trailing ++ ')' :: ending)) =
      (alpha, trailing ++ ')' :: ending) := by
  rcases halpha with rfl | halpha
  · have hnone : opacity (trailing ++ ')' :: ending) = none := by
      have hmark := mark_eq_none (fun c => c == ',' || c == '/') (')' :: ending) htrailing
         (by simp [isAsciiBlank])
      simp [opacity, hmark]
    exact optional_of_none hnone
  · have hrest := startsWith_closing ending (.inl rfl) htrailing
    exact optional_of_some (opacity_append halpha hrest)

/-! ## What is left of the text at each part -/

namespace Layout

variable (layout : Layout) (ending : List Char)

/-- The text from the blanks before the closing parenthesis on. -/
def fromTrailing : List Char := layout.trailing ++ ')' :: ending

/-- The text from the opacity on. -/
def fromAlpha : List Char := layout.alpha ++ layout.fromTrailing ending

/-- The text from the third argument on. -/
def fromThird : List Char := layout.thirdText ++ layout.fromAlpha ending

/-- The text from the separator of the last two arguments on. -/
def fromNextSeparator : List Char := layout.nextSeparator ++ layout.fromThird ending

/-- The text from the second argument on. -/
def fromSecond : List Char := layout.secondText ++ layout.fromNextSeparator ending

/-- The text from the separator of the first two arguments on. -/
def fromSeparator : List Char := layout.separator ++ layout.fromSecond ending

/-- The text from the first argument on. -/
def fromFirst : List Char := layout.firstText ++ layout.fromSeparator ending

/-- The text from the blanks after the opening parenthesis on. -/
def fromLeading : List Char := layout.leading ++ layout.fromFirst ending

/-- The text of a call starts with the function name and the parenthesis. -/
theorem text_append :
    layout.text ++ ending = layout.function ++ '(' :: layout.fromLeading ending := by
  simp [text, closing, fromLeading, fromFirst, fromSeparator, fromSecond, fromNextSeparator,
    fromThird, fromAlpha, fromTrailing]

end Layout

/-! ## Reading part by part -/

section Read

variable {name : List Char} {first other : Reader (List Char)}
  {firstForm otherForm : List Char → List Char → Prop}

namespace Layout.Valid

variable {layout : Layout}

/-! Every part is read up to the next one, whatever follows the call. -/

/-- The opacity is read behind the third argument. -/
theorem read_alpha (h : layout.Valid name firstForm otherForm) (ending : List Char) :
    optional opacity (layout.fromAlpha ending) = (layout.alpha, layout.fromTrailing ending) :=
  optional_opacity_append h.alpha h.trailing

theorem read_third (hother : Reads other otherForm) (h : layout.Valid name firstForm otherForm)
    (ending : List Char) :
    other (layout.fromThird ending) = some (layout.third, layout.fromAlpha ending) :=
  hother.complete h.third (startsWith_closing ending h.alpha h.trailing)

theorem read_nextSeparator (hother : Reads other otherForm)
    (h : layout.Valid name firstForm otherForm) (ending : List Char) :
    argumentSeparator (layout.fromNextSeparator ending) =
      some (layout.nextSeparator, layout.fromThird ending) :=
  argumentSeparator_append h.nextSeparator
    (((hother.startsWith h.third).append _).mono startsNumber_of_isDigit)

theorem read_second (hother : Reads other otherForm) (h : layout.Valid name firstForm otherForm)
    (ending : List Char) :
    other (layout.fromSecond ending) = some (layout.second, layout.fromNextSeparator ending) :=
  hother.complete h.second ((startsWith_separator h.nextSeparator).append _)

theorem read_separator (hother : Reads other otherForm)
    (h : layout.Valid name firstForm otherForm) (ending : List Char) :
    argumentSeparator (layout.fromSeparator ending) =
      some (layout.separator, layout.fromSecond ending) :=
  argumentSeparator_append h.separator
    (((hother.startsWith h.second).append _).mono startsNumber_of_isDigit)

theorem read_first (hfirst : Reads first firstForm) (h : layout.Valid name firstForm otherForm)
    (ending : List Char) :
    first (layout.fromFirst ending) = some (layout.first, layout.fromSeparator ending) :=
  hfirst.complete h.first ((startsWith_separator h.separator).append _)

theorem read_leading (hfirst : Reads first firstForm) (h : layout.Valid name firstForm otherForm)
    (ending : List Char) :
    blanks (layout.fromLeading ending) = (layout.leading, layout.fromFirst ending) :=
  blanks_append h.leading (head_of_startsWith ((hfirst.startsWith h.first).append _)
    fun _ hc => (isDigit_not_blank hc).1)

/-- The function name is read at the front of the call. -/
theorem read_function (h : layout.Valid name firstForm otherForm) (ending : List Char) :
    functionName name (layout.text ++ ending) =
      some (layout.function, '(' :: layout.fromLeading ending) := by
  rw [layout.text_append]
  exact functionName_append h.function

end Layout.Valid

/-- The text of a layout is read as its call. -/
theorem read?_text (hfirst : Reads first firstForm) (hother : Reads other otherForm)
    {layout : Layout} (h : layout.Valid name firstForm otherForm) {ending : List Char}
    (hending : ending = [] ∨ ending = ['\n']) :
    read? name first other (layout.text ++ ending) = some layout.toCall := by
  have hopening : word ['('] ('(' :: layout.fromLeading ending) =
      some (['('], layout.fromLeading ending) :=
    word_append ['('] rfl (layout.fromLeading ending)
  have hcloses : closes (layout.fromTrailing ending) = true :=
    closes_iff.mpr ⟨layout.trailing, ending, h.trailing, hending, rfl⟩
  simp [read?, h.read_function, hopening, h.read_leading hfirst, h.read_first hfirst,
    h.read_separator hother, h.read_second hother, h.read_nextSeparator hother,
    h.read_third hother, h.read_alpha, hcloses]

/-- A call is read exactly from the texts of its layouts, which one newline may follow. -/
theorem read?_eq_some_iff (hfirst : Reads first firstForm) (hother : Reads other otherForm)
    {text : List Char} {call : Call} :
    read? name first other text = some call ↔
      ∃ layout : Layout, layout.Valid name firstForm otherForm ∧ layout.toCall = call ∧
        ∃ ending, (ending = [] ∨ ending = ['\n']) ∧ text = layout.text ++ ending := by
  constructor
  · intro h
    simp only [read?, Option.bind_eq_bind, Option.bind_eq_some_iff, Prod.exists,
      Option.ite_none_right_eq_some, Option.some.injEq] at h
    obtain ⟨function, rest₁, readFunction, opening, rest₂, readOpening, first', rest₃, readFirst,
      separator, rest₄, readSeparator, second, rest₅, readSecond, next, rest₆, readNext, third,
      rest₇, readThird, hcloses, rfl⟩ := h
    -- from the front: every part that is read stands before what is left
    obtain ⟨rfl, hfunction⟩ := eq_append_of_functionName readFunction
    obtain ⟨rfl, hopening⟩ := eq_append_of_word readOpening
    obtain ⟨leading, hleading, hrest₂⟩ := exists_blanks rest₂
    obtain ⟨firstText, hfirstText, hfirst'⟩ := hfirst.sound readFirst
    obtain ⟨rfl, hseparator⟩ := eq_append_of_argumentSeparator readSeparator
    obtain ⟨secondText, rfl, hsecond⟩ := hother.sound readSecond
    obtain ⟨rfl, hnext⟩ := eq_append_of_argumentSeparator readNext
    obtain ⟨thirdText, rfl, hthird⟩ := hother.sound readThird
    obtain ⟨hrest₇, halpha⟩ := optional_spec opacity eq_append_of_opacity rest₇
    obtain ⟨trailing, ending, htrailing, hending, hclosing⟩ := closes_iff.mp hcloses
    obtain rfl : opening = ['('] := eq_singleton_of_toLower (by decide) hopening
    refine ⟨⟨⟨function, first', separator, second, third, _⟩, leading, firstText, secondText, next,
      thirdText, trailing⟩, ⟨hfunction, hleading, hfirst', hseparator, hsecond, hnext, hthird,
      halpha, htrailing⟩, rfl, ending, hending, ?_⟩
    rw [hfirstText] at hrest₂
    rw [hclosing] at hrest₇
    rw [hrest₂]
    simpa [Layout.text, Layout.closing] using hrest₇
  · rintro ⟨layout, hvalid, rfl, ending, hending, rfl⟩
    exact read?_text hfirst hother hvalid hending

/-- What is read off a text is determined by the text, and so is how it is written. -/
theorem eq_of_read {α : Type} (reader : Reader α) {kept kept' : α}
    {written written' rest rest' : List Char} (h : reader (written ++ rest) = some (kept, rest))
    (h' : reader (written' ++ rest') = some (kept', rest'))
    (heq : written ++ rest = written' ++ rest') :
    kept = kept' ∧ written = written' ∧ rest = rest' := by
  rw [heq, h', Option.some.injEq, Prod.mk.injEq] at h
  obtain ⟨rfl, rfl⟩ := h
  exact ⟨rfl, List.append_cancel_right heq, rfl⟩

/-- A text is laid out in one way only. -/
theorem Layout.Valid.eq_of_text_eq (hfirst : Reads first firstForm)
    (hother : Reads other otherForm) {layout layout' : Layout}
    (h : layout.Valid name firstForm otherForm) (h' : layout'.Valid name firstForm otherForm)
    (heq : layout.text = layout'.text) : layout = layout' := by
  have htext := congrArg (· ++ []) heq
  simp only [layout.text_append, layout'.text_append] at htext
  -- from the front: both layouts have the same part, so the same text is left behind it
  obtain ⟨hfunction, -, hrest⟩ := eq_of_read (functionName name)
    (functionName_append h.function) (functionName_append h'.function) htext
  obtain ⟨-, hleading, hrest⟩ := eq_of_read (fun text => some (blanks text))
    (congrArg some (h.read_leading hfirst [])) (congrArg some (h'.read_leading hfirst []))
    (List.cons.inj hrest).2
  obtain ⟨hfirstKept, hfirstText, hrest⟩ :=
    eq_of_read first (h.read_first hfirst []) (h'.read_first hfirst []) hrest
  obtain ⟨hseparator, -, hrest⟩ := eq_of_read argumentSeparator
    (h.read_separator hother []) (h'.read_separator hother []) hrest
  obtain ⟨hsecondKept, hsecondText, hrest⟩ :=
    eq_of_read other (h.read_second hother []) (h'.read_second hother []) hrest
  obtain ⟨hnext, -, hrest⟩ := eq_of_read argumentSeparator
    (h.read_nextSeparator hother []) (h'.read_nextSeparator hother []) hrest
  obtain ⟨hthirdKept, hthirdText, hrest⟩ :=
    eq_of_read other (h.read_third hother []) (h'.read_third hother []) hrest
  obtain ⟨halpha, -, hrest⟩ := eq_of_read (fun text => some (optional opacity text))
    (congrArg some (h.read_alpha [])) (congrArg some (h'.read_alpha [])) hrest
  have htrailing : layout.trailing = layout'.trailing := List.append_cancel_right hrest
  exact Layout.ext hfunction hfirstKept hseparator hsecondKept hthirdKept halpha hleading
    hfirstText hsecondText hnext hthirdText htrailing

end Read

end CssColor.Call
