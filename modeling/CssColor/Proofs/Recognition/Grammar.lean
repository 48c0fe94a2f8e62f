import CssColor.Proofs.Text.Ascii
import CssColor.Recognition.Call

/-!
# The pieces of color calls

The texts that the readers of a color call accept, piece by piece. For every reader there are two
facts: what it reads stands at the front of the text and has the form of the piece, and what has
that form is read wherever something may follow that does not go on with it.

## Main definitions

* `Call.IsShortNumber`, `IsSeparator`, `IsFraction`, `IsOpacity`, `IsFunctionName`: the pieces.
* `Call.Reads`: a reader of arguments reads a form, which relates what is kept to what is written.

## Main results

* `Call.reads_component`, `reads_degrees`, `reads_percentage`: the forms of the arguments.
* `Call.argumentSeparator_append`, `opacity_append`, `functionName_append`: pieces are read.
* `Call.eq_append_of_argumentSeparator`, `eq_append_of_opacity`, `eq_append_of_functionName`: only
  pieces are read.
-/

namespace CssColor.Call

open Text

/-! ## Pieces -/

/-- A run of blanks, possibly empty. -/
def AllBlank (text : List Char) : Prop := ∀ c ∈ text, isAsciiBlank c = true

/-- The characters of a run of blanks are checked one by one. -/
instance (text : List Char) : Decidable (AllBlank text) := List.decidableBAll _ text

/-- A run of digits, possibly empty. -/
def AllDigits (text : List Char) : Prop := ∀ c ∈ text, c.isDigit = true

/-- The characters of a run of digits are checked one by one. -/
instance (text : List Char) : Decidable (AllDigits text) := List.decidableBAll _ text

/-- One to three digits. -/
def IsShortNumber (text : List Char) : Prop := text ≠ [] ∧ text.length ≤ 3 ∧ AllDigits text

/-- A short number is checked by its length and its digits. -/
instance (text : List Char) : Decidable (IsShortNumber text) :=
  inferInstanceAs (Decidable (text ≠ [] ∧ text.length ≤ 3 ∧ AllDigits text))

/-- One of the given marks with blanks around it. -/
def IsMarked (isMark : Char → Bool) (text : List Char) : Prop :=
  ∃ leading c trailing, text = leading ++ c :: trailing ∧ AllBlank leading ∧ isMark c = true ∧
    AllBlank trailing

/-- A comma with blanks around it, or at least one blank. -/
def IsSeparator (text : List Char) : Prop :=
  IsMarked (· == ',') text ∨ (text ≠ [] ∧ AllBlank text)

/-- Digits with a fraction, whose whole part may be missing, or digits alone. -/
def IsFraction (text : List Char) : Prop :=
  (∃ whole decimals, text = whole ++ '.' :: decimals ∧ AllDigits whole ∧ decimals ≠ [] ∧
    AllDigits decimals) ∨ (text ≠ [] ∧ AllDigits text)

/-- Nothing or a percent sign. -/
def IsSign (text : List Char) : Prop := text = [] ∨ text = ['%']

/-- A comma or a slash with blanks around it, a number and an optional percent sign. -/
def IsOpacity (text : List Char) : Prop :=
  ∃ leading value sign, text = leading ++ value ++ sign ∧
    IsMarked (fun c => c == ',' || c == '/') leading ∧ IsFraction value ∧ IsSign sign

/-- The name of a function in either case, with or without a final `a`. -/
def IsFunctionName (name text : List Char) : Prop :=
  text.map Char.toLower = name ∨ text.map Char.toLower = name ++ ['a']

/-! ## What may follow a piece -/

/-- Whether a character may follow a number: a blank, a mark or the closing parenthesis. -/
def isBoundary (c : Char) : Bool := isAsciiBlank c || c == ',' || c == '/' || c == ')'

/-- The text starts with a character that satisfies `p`. -/
def StartsWith (p : Char → Bool) (text : List Char) : Prop :=
  ∃ c rest, text = c :: rest ∧ p c = true

/-- A text that starts with a character does so whatever follows it. -/
theorem StartsWith.append {p : Char → Bool} {text : List Char} (h : StartsWith p text)
    (rest : List Char) : StartsWith p (text ++ rest) := by
  obtain ⟨c, tail, rfl, hc⟩ := h
  exact ⟨c, tail ++ rest, rfl, hc⟩

/-- A text that starts with a character of a class starts with one of every larger class. -/
theorem StartsWith.mono {p q : Char → Bool} {text : List Char} (h : StartsWith p text)
    (hpq : ∀ c, p c = true → q c = true) : StartsWith q text := by
  obtain ⟨c, tail, rfl, hc⟩ := h
  exact ⟨c, tail, rfl, hpq c hc⟩

/-- A nonempty run of one class starts with a character of that class. -/
theorem startsWith_of_forall {p : Char → Bool} {text : List Char} (hne : text ≠ [])
    (h : ∀ c ∈ text, p c = true) : StartsWith p text := by
  obtain ⟨c, rest, rfl⟩ := List.exists_cons_of_ne_nil hne
  exact ⟨c, rest, rfl, h c List.mem_cons_self⟩

theorem isBoundary_of_isAsciiBlank (c : Char) (h : isAsciiBlank c = true) :
    isBoundary c = true := by
  simp [isBoundary, h]

/-- A mark with blanks around it starts with a blank or with the mark. -/
theorem IsMarked.startsWith {isMark : Char → Bool} {text : List Char} (h : IsMarked isMark text)
    (hmark : ∀ c, isMark c = true → isBoundary c = true) : StartsWith isBoundary text := by
  obtain ⟨leading, c, trailing, rfl, hleading, hc, -⟩ := h
  cases leading with
  | nil => exact ⟨c, trailing, rfl, hmark c hc⟩
  | cons d rest =>
    exact ⟨d, _, rfl, isBoundary_of_isAsciiBlank d (hleading d List.mem_cons_self)⟩

/-- What may follow a number does not continue it, and is neither a percent sign nor the start of a
unit. -/
theorem isBoundary_not_digit {c : Char} (h : isBoundary c = true) :
    c.isDigit = false ∧ c ≠ '.' ∧ c.toLower ≠ '%' ∧ c.toLower ≠ 'd' := by
  have hc : c.toNat < 128 := by
    simp only [isBoundary, Bool.or_eq_true, beq_iff_eq] at h
    rcases h with ((h | rfl) | rfl) | rfl
    · exact toNat_lt_of_isAsciiBlank h
    all_goals decide
  exact forall_ascii (P := fun c => isBoundary c = true →
    c.isDigit = false ∧ c ≠ '.' ∧ c.toLower ≠ '%' ∧ c.toLower ≠ 'd') (by decide) hc h

theorem isDigit_not_blank {c : Char} (h : c.isDigit = true) :
    isAsciiBlank c = false ∧ c ≠ ',' ∧ c ≠ '/' :=
  forall_ascii (P := fun c => c.isDigit = true → isAsciiBlank c = false ∧ c ≠ ',' ∧ c ≠ '/')
    (by decide) (toNat_lt_of_isDigit h) h

/-! ## Words -/

/-- A word in any case is read off the front of a text. -/
theorem word_append (found : List Char) {expected : List Char}
    (h : found.map Char.toLower = expected) (rest : List Char) :
    word expected (found ++ rest) = some (found, rest) := by
  have hlength : expected.length = found.length := by rw [← h, List.length_map]
  simp [word, hlength, h]

/-- What was read as a word is the word in some case. -/
theorem eq_append_of_word {expected text found rest : List Char}
    (h : word expected text = some (found, rest)) :
    text = found ++ rest ∧ found.map Char.toLower = expected := by
  simp only [word, Option.ite_none_right_eq_some, Option.some.injEq, Prod.mk.injEq] at h
  obtain ⟨hword, rfl, rfl⟩ := h
  exact ⟨(List.take_append_drop _ _).symm, hword⟩

/-- A word is not read where its first character does not stand. -/
theorem word_cons_eq_none {e c : Char} {expected text : List Char} (h : c.toLower ≠ e) :
    word (e :: expected) (c :: text) = none := by
  simp [word, h]

theorem optional_of_some {reader : Reader (List Char)} {text found rest : List Char}
    (h : reader text = some (found, rest)) : optional reader text = (found, rest) := by
  simp [optional, h]

theorem optional_of_none {reader : Reader (List Char)} {text : List Char}
    (h : reader text = none) : optional reader text = ([], text) := by
  simp [optional, h]

/-- What is read if it can be is a part of the text that the reader reads, or nothing. -/
theorem optional_spec (reader : Reader (List Char)) {form : List Char → Prop}
    (hreader : ∀ {text found rest}, reader text = some (found, rest) →
      text = found ++ rest ∧ form found) (text : List Char) :
    text = (optional reader text).1 ++ (optional reader text).2 ∧
      ((optional reader text).1 = [] ∨ form (optional reader text).1) := by
  cases h : reader text with
  | some result =>
    obtain ⟨found, rest⟩ := result
    obtain ⟨htext, hform⟩ := hreader h
    rw [optional_of_some h]
    exact ⟨htext, .inr hform⟩
  | none =>
    rw [optional_of_none h]
    exact ⟨rfl, .inl rfl⟩

/-! ## Numbers -/

/-- A short number is read off the front of a text when no digit follows it. -/
theorem shortNumber_append {digits rest : List Char} (h : IsShortNumber digits)
    (hrest : ∀ c ∈ rest.head?, c.isDigit = false) :
    shortNumber (digits ++ rest) = some (digits, rest) := by
  obtain ⟨hne, hlength, hdigits⟩ := h
  obtain ⟨htake, hdrop⟩ := takeWhile_append_of_stop digits rest hdigits hrest
  have hshort : ¬ (digits = [] ∨ 3 < digits.length) := by
    rintro (h | h)
    · exact hne h
    · omega
  simp only [shortNumber, htake, hdrop]
  rw [if_neg hshort]

theorem eq_append_of_shortNumber {text digits rest : List Char}
    (h : shortNumber text = some (digits, rest)) :
    text = digits ++ rest ∧ IsShortNumber digits := by
  simp only [shortNumber, Option.ite_none_left_eq_some, Option.some.injEq, Prod.mk.injEq,
    not_or] at h
  obtain ⟨⟨hne, hlength⟩, rfl, rfl⟩ := h
  exact ⟨List.takeWhile_append_dropWhile.symm, hne, by omega, fun _ => List.mem_takeWhile_imp⟩

/-- A reader of arguments reads a form. The form relates what the reader keeps of an argument to how
the argument is written. -/
structure Reads (reader : Reader (List Char)) (form : List Char → List Char → Prop) : Prop where
  /-- What is read has the form. -/
  sound : ∀ {text kept rest}, reader text = some (kept, rest) →
    ∃ written, text = written ++ rest ∧ form kept written
  /-- What has the form is read wherever a number may end. -/
  complete : ∀ {kept written rest}, form kept written → StartsWith isBoundary rest →
    reader (written ++ rest) = some (kept, rest)
  /-- Arguments start with a digit. -/
  startsWith : ∀ {kept written}, form kept written → StartsWith Char.isDigit written

/-- One to three digits and an optional percent sign, which is kept. -/
def Component (kept written : List Char) : Prop :=
  ∃ digits sign, IsShortNumber digits ∧ IsSign sign ∧ written = digits ++ sign ∧ kept = written

/-- One to three digits and an optional unit, which is dropped. -/
def Degrees (kept written : List Char) : Prop :=
  IsShortNumber kept ∧ ∃ unit, written = kept ++ unit ∧
    (unit = [] ∨ unit.map Char.toLower = ['d', 'e', 'g'])

/-- One to three digits and a percent sign, which is dropped. -/
def Percentage (kept written : List Char) : Prop :=
  IsShortNumber kept ∧ written = kept ++ ['%']

theorem IsShortNumber.startsWith {digits : List Char} (h : IsShortNumber digits) :
    StartsWith Char.isDigit digits :=
  startsWith_of_forall h.1 h.2.2

/-- A mark has no other case. -/
theorem eq_singleton_of_toLower {e : Char} {text : List Char}
    (he : e.toNat < 0x61 ∨ 0x7A < e.toNat) (h : text.map Char.toLower = [e]) : text = [e] := by
  obtain ⟨c, rest, rfl, hc, hrest⟩ := List.map_eq_cons_iff.mp h
  rw [eq_of_toLower_eq he hc, List.map_eq_nil_iff.mp hrest]

theorem isSign_of_toLower {sign : List Char} (h : sign = [] ∨ sign.map Char.toLower = ['%']) :
    IsSign sign :=
  h.imp_right (eq_singleton_of_toLower (by decide))

theorem head_of_startsWith {p q : Char → Bool} {text : List Char} (h : StartsWith p text)
    (hpq : ∀ c, p c = true → q c = false) : ∀ c ∈ text.head?, q c = false := by
  obtain ⟨c, rest, rfl, hc⟩ := h
  intro d hd
  obtain rfl : c = d := by simpa using hd
  exact hpq c hc

/-- No word that starts with the given character is read at the end of a number. -/
theorem word_boundary {e : Char} {expected rest : List Char} (hrest : StartsWith isBoundary rest)
    (he : ∀ c, isBoundary c = true → c.toLower ≠ e) : word (e :: expected) rest = none := by
  obtain ⟨c, tail, rfl, hc⟩ := hrest
  exact word_cons_eq_none (he c hc)

/-- An optional percent sign is read in front of what may follow a number. -/
theorem optional_sign {sign rest : List Char} (hsign : IsSign sign)
    (hrest : StartsWith isBoundary rest) : optional (word ['%']) (sign ++ rest) = (sign, rest) := by
  rcases hsign with rfl | rfl
  · exact optional_of_none (word_boundary hrest fun c hc => (isBoundary_not_digit hc).2.2.1)
  · exact optional_of_some (word_append ['%'] rfl rest)

/-- No digit follows a number that ends here, with or without a percent sign. -/
theorem sign_head {sign rest : List Char} (hsign : IsSign sign)
    (hrest : StartsWith isBoundary rest) :
    ∀ c ∈ (sign ++ rest).head?, c.isDigit = false := by
  rcases hsign with rfl | rfl
  · exact head_of_startsWith hrest fun c hc => (isBoundary_not_digit hc).1
  · intro c hc
    obtain rfl : '%' = c := by simpa using hc
    rfl

/-- The arguments of `rgb` are one to three digits with an optional percent sign. -/
theorem reads_component : Reads component Component where
  sound := by
    intro text kept rest h
    simp only [component, Option.bind_eq_bind, Option.bind_eq_some_iff, Prod.exists,
      Option.pure_def, Option.some.injEq, Prod.mk.injEq] at h
    obtain ⟨digits, tail, hdigits, rfl, rfl⟩ := h
    obtain ⟨rfl, hnumber⟩ := eq_append_of_shortNumber hdigits
    obtain ⟨htail, hsign⟩ := optional_spec (word ['%']) eq_append_of_word tail
    refine ⟨_, ?_, digits, _, hnumber, isSign_of_toLower hsign, rfl, rfl⟩
    rw [List.append_assoc, ← htail]
  complete := by
    rintro kept written rest ⟨digits, sign, hnumber, hsign, rfl, rfl⟩ hrest
    rw [List.append_assoc]
    simp [component, shortNumber_append hnumber (sign_head hsign hrest), optional_sign hsign hrest]
  startsWith := by
    rintro kept written ⟨digits, sign, hnumber, -, rfl, -⟩
    exact hnumber.startsWith.append sign

/-- The hue of `hsl` is one to three digits with an optional unit, which is read only as a whole. -/
theorem reads_degrees : Reads degrees Degrees where
  sound := by
    intro text kept rest h
    simp only [degrees, Option.bind_eq_bind, Option.bind_eq_some_iff, Prod.exists, Option.pure_def,
      Option.some.injEq, Prod.mk.injEq] at h
    obtain ⟨digits, tail, hdigits, rfl, rfl⟩ := h
    obtain ⟨rfl, hnumber⟩ := eq_append_of_shortNumber hdigits
    obtain ⟨htail, hunit⟩ := optional_spec (word ['d', 'e', 'g']) eq_append_of_word tail
    refine ⟨_, ?_, hnumber, _, rfl, hunit⟩
    rw [List.append_assoc, ← htail]
  complete := by
    rintro kept written rest ⟨hnumber, unit, rfl, hunit⟩ hrest
    have hstop : ∀ c ∈ (unit ++ rest).head?, c.isDigit = false := by
      rcases hunit with rfl | hunit
      · exact head_of_startsWith hrest fun c hc => (isBoundary_not_digit hc).1
      · -- the unit starts with a letter
        obtain ⟨c, tail, rfl, hc, -⟩ := List.map_eq_cons_iff.mp hunit
        intro d hd
        obtain rfl : c = d := by simpa using hd
        by_contra hdigit
        rw [Bool.not_eq_false] at hdigit
        exact forall_ascii (P := fun c => c.isDigit = true → c.toLower ≠ 'd') (by decide)
          (toNat_lt_of_isDigit hdigit) hdigit hc
    have hoptional : optional (word ['d', 'e', 'g']) (unit ++ rest) = (unit, rest) := by
      rcases hunit with rfl | hunit
      · exact optional_of_none (word_boundary hrest fun c hc => (isBoundary_not_digit hc).2.2.2)
      · exact optional_of_some (word_append unit hunit rest)
    rw [List.append_assoc]
    simp [degrees, shortNumber_append hnumber hstop, hoptional]
  startsWith := by
    rintro kept written ⟨hnumber, unit, rfl, -⟩
    exact hnumber.startsWith.append unit

/-- The other arguments of `hsl` are one to three digits with a percent sign. -/
theorem reads_percentage : Reads percentage Percentage where
  sound := by
    intro text kept rest h
    simp only [percentage, Option.bind_eq_bind, Option.bind_eq_some_iff, Prod.exists,
      Option.pure_def, Option.some.injEq, Prod.mk.injEq] at h
    obtain ⟨digits, tail, hdigits, sign, tail', hword, rfl, rfl⟩ := h
    obtain ⟨rfl, hnumber⟩ := eq_append_of_shortNumber hdigits
    obtain ⟨rfl, hsign⟩ := eq_append_of_word hword
    rcases isSign_of_toLower (.inr hsign) with rfl | rfl
    · simp at hsign
    · exact ⟨digits ++ ['%'], by rw [List.append_assoc], hnumber, rfl⟩
  complete := by
    rintro kept written rest ⟨hnumber, rfl⟩ -
    have hstop : ∀ c ∈ (['%'] ++ rest).head?, c.isDigit = false := by simp
    rw [List.append_assoc]
    simp only [percentage, shortNumber_append hnumber hstop]
    rfl
  startsWith := by
    rintro kept written ⟨hnumber, rfl⟩
    exact hnumber.startsWith.append _

/-! ## Marks and separators -/

/-- Whether a character starts a number. -/
def startsNumber (c : Char) : Bool := c.isDigit || c == '.'

theorem startsNumber_of_isDigit (c : Char) (h : c.isDigit = true) : startsNumber c = true := by
  simp [startsNumber, h]

theorem startsNumber_not_blank {c : Char} (h : startsNumber c = true) :
    isAsciiBlank c = false ∧ c ≠ ',' := by
  simp only [startsNumber, Bool.or_eq_true, beq_iff_eq] at h
  rcases h with h | rfl
  · exact ⟨(isDigit_not_blank h).1, (isDigit_not_blank h).2.1⟩
  · decide

/-- A run of blanks is read off the front of a text when no blank follows it. -/
theorem blanks_append {run rest : List Char} (hrun : AllBlank run)
    (hrest : ∀ c ∈ rest.head?, isAsciiBlank c = false) : blanks (run ++ rest) = (run, rest) := by
  obtain ⟨htake, hdrop⟩ := takeWhile_append_of_stop run rest hrun hrest
  rw [blanks, htake, hdrop]

/-- What was read as blanks are blanks. -/
theorem blanks_spec (text : List Char) :
    text = (blanks text).1 ++ (blanks text).2 ∧ AllBlank (blanks text).1 :=
  ⟨List.takeWhile_append_dropWhile.symm, fun _ => List.mem_takeWhile_imp⟩

theorem exists_blanks (text : List Char) :
    ∃ run, AllBlank run ∧ text = run ++ (blanks text).2 :=
  ⟨_, (blanks_spec text).2, (blanks_spec text).1⟩

/-- A mark between blanks is read off the front of a text when a number follows it. -/
theorem mark_append {isMark : Char → Bool} {text rest : List Char} (h : IsMarked isMark text)
    (hmark : ∀ c, isMark c = true → isAsciiBlank c = false)
    (hrest : StartsWith startsNumber rest) : mark isMark (text ++ rest) = some (text, rest) := by
  obtain ⟨leading, c, trailing, rfl, hleading, hc, htrailing⟩ := h
  have hstop := head_of_startsWith hrest fun d hd => (startsNumber_not_blank hd).1
  have hleading' : blanks (leading ++ c :: (trailing ++ rest)) =
      (leading, c :: (trailing ++ rest)) :=
    blanks_append hleading (by simpa using hmark c hc)
  rw [List.append_assoc, List.cons_append]
  simp [mark, hleading', hc, blanks_append htrailing hstop]

theorem eq_append_of_mark {isMark : Char → Bool} {text found rest : List Char}
    (h : mark isMark text = some (found, rest)) : text = found ++ rest ∧ IsMarked isMark found := by
  obtain ⟨htext, hleading⟩ := blanks_spec text
  simp only [mark] at h
  split at h
  · next c tail htail =>
    obtain ⟨htext', htrailing⟩ := blanks_spec tail
    simp only [Option.ite_none_right_eq_some, Option.some.injEq, Prod.mk.injEq] at h
    obtain ⟨hc, rfl, rfl⟩ := h
    refine ⟨?_, _, c, _, rfl, hleading, hc, htrailing⟩
    rw [List.append_assoc, List.cons_append, ← htext', ← htail]
    exact htext
  · exact absurd h (by simp)

/-- No mark is read where, after blanks, something else stands. -/
theorem mark_eq_none (isMark : Char → Bool) {run : List Char} (rest : List Char)
    (hrun : AllBlank run)
    (hrest : ∀ c ∈ rest.head?, isAsciiBlank c = false ∧ isMark c = false) :
    mark isMark (run ++ rest) = none := by
  rw [mark, blanks_append hrun fun c hc => (hrest c hc).1]
  cases rest with
  | nil => rfl
  | cons c tail => simp [(hrest c rfl).2]

/-- A separator is read off the front of a text when a number follows it. -/
theorem argumentSeparator_append {text rest : List Char} (h : IsSeparator text)
    (hrest : StartsWith startsNumber rest) :
    argumentSeparator (text ++ rest) = some (text, rest) := by
  rcases h with h | ⟨hne, hblank⟩
  · have hcomma : ∀ c : Char, (c == ',') = true → isAsciiBlank c = false := by
      intro c hc
      obtain rfl : c = ',' := by simpa using hc
      rfl
    simp [argumentSeparator, mark_append h hcomma hrest]
  · have hstop := head_of_startsWith hrest fun d hd => (startsNumber_not_blank hd).1
    have hnone : mark (· == ',') (text ++ rest) = none := by
      refine mark_eq_none _ rest hblank fun c hc => ⟨hstop c hc, ?_⟩
      refine head_of_startsWith (q := (· == ',')) hrest (fun d hd => ?_) c hc
      simpa using (startsNumber_not_blank hd).2
    simp [argumentSeparator, hnone, blanks_append hblank hstop, hne]

theorem eq_append_of_argumentSeparator {text found rest : List Char}
    (h : argumentSeparator text = some (found, rest)) :
    text = found ++ rest ∧ IsSeparator found := by
  rw [argumentSeparator] at h
  split at h
  · next result hmark =>
    obtain rfl : result = (found, rest) := by simpa using h
    obtain ⟨htext, hfound⟩ := eq_append_of_mark hmark
    exact ⟨htext, .inl hfound⟩
  · obtain ⟨htext, hblank⟩ := blanks_spec text
    simp only [Option.ite_none_left_eq_some, Option.some.injEq, Prod.mk.injEq] at h
    obtain ⟨hne, rfl, rfl⟩ := h
    exact ⟨htext, .inr ⟨hne, hblank⟩⟩

/-! ## Opacities -/

/-- A number is read up to a character that is no digit and no point. -/
theorem fraction_append {text rest : List Char} (h : IsFraction text)
    (hrest : ∀ c ∈ rest.head?, c.isDigit = false ∧ c ≠ '.') :
    fraction (text ++ rest) = some (text, rest) := by
  have hdigit : ∀ c ∈ rest.head?, c.isDigit = false := fun c hc => (hrest c hc).1
  rcases h with ⟨whole, decimals, rfl, hwhole, hne, hdecimals⟩ | ⟨hne, hdigits⟩
  · obtain ⟨htake, hdrop⟩ :=
      takeWhile_append_of_stop whole ('.' :: (decimals ++ rest)) hwhole (by simp)
    obtain ⟨htake', hdrop'⟩ := takeWhile_append_of_stop decimals rest hdecimals hdigit
    rw [List.append_assoc, List.cons_append]
    simp [fraction, htake, hdrop, htake', hdrop', hne]
  · obtain ⟨htake, hdrop⟩ := takeWhile_append_of_stop text rest hdigits hdigit
    simp only [fraction, htake, hdrop]
    split
    · exact absurd rfl (hrest '.' rfl).2
    · rw [if_neg hne]

theorem eq_append_of_fraction {text found rest : List Char}
    (h : fraction text = some (found, rest)) : text = found ++ rest ∧ IsFraction found := by
  have htext : text = text.takeWhile Char.isDigit ++ text.dropWhile Char.isDigit :=
    List.takeWhile_append_dropWhile.symm
  simp only [fraction] at h
  split at h
  · next tail htail =>
    simp only [Option.ite_none_left_eq_some, Option.some.injEq, Prod.mk.injEq] at h
    obtain ⟨hne, rfl, rfl⟩ := h
    refine ⟨?_, .inl ⟨_, _, rfl, fun _ => List.mem_takeWhile_imp, hne,
      fun _ => List.mem_takeWhile_imp⟩⟩
    rw [List.append_assoc, List.cons_append, List.takeWhile_append_dropWhile, ← htail]
    exact htext
  · simp only [Option.ite_none_left_eq_some, Option.some.injEq, Prod.mk.injEq] at h
    obtain ⟨hne, rfl, rfl⟩ := h
    exact ⟨htext, .inr ⟨hne, fun _ => List.mem_takeWhile_imp⟩⟩

theorem IsFraction.startsWith {text : List Char} (h : IsFraction text) :
    StartsWith startsNumber text := by
  rcases h with ⟨whole, decimals, rfl, hwhole, -, -⟩ | ⟨hne, hdigits⟩
  · cases whole with
    | nil => exact ⟨'.', decimals, rfl, rfl⟩
    | cons c rest => exact ⟨c, _, rfl, startsNumber_of_isDigit c (hwhole c List.mem_cons_self)⟩
  · exact (startsWith_of_forall hne hdigits).mono startsNumber_of_isDigit

/-- An opacity is read off the front of a text in front of what may follow a number. -/
theorem opacity_append {text rest : List Char} (h : IsOpacity text)
    (hrest : StartsWith isBoundary rest) : opacity (text ++ rest) = some (text, rest) := by
  obtain ⟨leading, value, sign, rfl, hleading, hvalue, hsign⟩ := h
  have hmark : ∀ c : Char, (c == ',' || c == '/') = true → isAsciiBlank c = false := by
    intro c hc
    simp only [Bool.or_eq_true, beq_iff_eq] at hc
    rcases hc with rfl | rfl <;> rfl
  -- the number ends at the percent sign or at what follows the opacity
  have hstop : ∀ c ∈ (sign ++ rest).head?, c.isDigit = false ∧ c ≠ '.' := by
    intro c hc
    refine ⟨sign_head hsign hrest c hc, ?_⟩
    rcases hsign with rfl | rfl
    · obtain ⟨d, tail, rfl, hd⟩ := hrest
      obtain rfl : d = c := by simpa using hc
      exact (isBoundary_not_digit hd).2.1
    · obtain rfl : '%' = c := by simpa using hc
      decide
  rw [List.append_assoc, List.append_assoc]
  simp [opacity, mark_append hleading hmark (hvalue.startsWith.append (sign ++ rest)),
    fraction_append hvalue hstop, optional_sign hsign hrest]

theorem eq_append_of_opacity {text found rest : List Char}
    (h : opacity text = some (found, rest)) : text = found ++ rest ∧ IsOpacity found := by
  simp only [opacity, Option.bind_eq_bind, Option.bind_eq_some_iff, Prod.exists, Option.pure_def,
    Option.some.injEq, Prod.mk.injEq] at h
  obtain ⟨leading, tail, hmark, value, tail', hfraction, rfl, rfl⟩ := h
  obtain ⟨rfl, hleading⟩ := eq_append_of_mark hmark
  obtain ⟨rfl, hvalue⟩ := eq_append_of_fraction hfraction
  obtain ⟨htail, hsign⟩ := optional_spec (word ['%']) eq_append_of_word tail'
  refine ⟨?_, leading, value, _, rfl, hleading, hvalue, isSign_of_toLower hsign⟩
  rw [List.append_assoc, List.append_assoc, ← htail]

/-! ## Names and endings -/

/-- A function name, with or without its last letter, is read in front of the parenthesis. -/
theorem functionName_append {name function tail : List Char} (h : IsFunctionName name function) :
    functionName name (function ++ '(' :: tail) = some (function, '(' :: tail) := by
  rcases h with h | h
  · have hnone : word ['a'] ('(' :: tail) = none := word_cons_eq_none (by decide)
    simp [functionName, word_append function h, optional_of_none hnone]
  · obtain ⟨base, final, rfl, hbase, hfinal⟩ := List.map_eq_append_iff.mp h
    rw [List.append_assoc]
    simp [functionName, word_append base hbase,
      optional_of_some (word_append final hfinal ('(' :: tail))]

theorem eq_append_of_functionName {name text function rest : List Char}
    (h : functionName name text = some (function, rest)) :
    text = function ++ rest ∧ IsFunctionName name function := by
  simp only [functionName, Option.bind_eq_bind, Option.bind_eq_some_iff, Prod.exists,
    Option.pure_def, Option.some.injEq, Prod.mk.injEq] at h
  obtain ⟨base, tail, hword, rfl, rfl⟩ := h
  obtain ⟨rfl, hbase⟩ := eq_append_of_word hword
  obtain ⟨htail, hfinal⟩ := optional_spec (word ['a']) eq_append_of_word tail
  refine ⟨by rw [List.append_assoc, ← htail], ?_⟩
  rcases hfinal with hfinal | hfinal
  · exact .inl (by rw [hfinal, List.append_nil, hbase])
  · exact .inr (by rw [List.map_append, hbase, hfinal])

/-- Blanks and a parenthesis, which one newline may follow, close a call. -/
theorem closes_iff {text : List Char} :
    closes text = true ↔ ∃ trailing ending, AllBlank trailing ∧ (ending = [] ∨ ending = ['\n']) ∧
      text = trailing ++ ')' :: ending := by
  constructor
  · intro h
    obtain ⟨htext, hblank⟩ := blanks_spec text
    rw [closes] at h
    split at h
    · next hrest => exact ⟨_, [], hblank, .inl rfl, by rw [← hrest]; exact htext⟩
    · next hrest => exact ⟨_, ['\n'], hblank, .inr rfl, by rw [← hrest]; exact htext⟩
    · exact absurd h Bool.false_ne_true
  · rintro ⟨trailing, ending, hblank, hending, rfl⟩
    have hstop : ∀ c ∈ (')' :: ending).head?, isAsciiBlank c = false := by
      intro c hc
      obtain rfl : ')' = c := by simpa using hc
      rfl
    rw [closes, blanks_append hblank hstop]
    rcases hending with rfl | rfl <;> rfl

end CssColor.Call
