import CssColor.Proofs.Number.Grouping
import CssColor.Proofs.Number.Overflow
import CssColor.Proofs.Text.Case
import Mathlib.Data.String.Basic

/-!
# The grammar of decimal literals

Which texts are decimal literals and what they mean, stated without the reader: an optional sign,
then a word for a number or digits with at most one point and an optional exponent, with white space
around it all. The reader accepts exactly these texts, gives the number nearest to what they mean,
and fails in one way on all others.

## Main definitions

* `Decimal.Spells`: a literal without white space around it, and its meaning.
* `Decimal.Denotes`: a literal and its meaning.

## Main results

* `Decimal.read_eq_ok_iff`: reading gives the number nearest to the meaning of a literal.
* `Decimal.read_eq_error_iff`: reading fails on what is no literal.
* `Decimal.read_eq_nan_iff`, `Decimal.read_eq_infinite_iff`: the literals of no finite number.
-/

namespace CssColor.Decimal

open Text Numeral

/-! ## The grammar -/

/-- An optional sign and whether it is a minus. -/
inductive Sign : List Char → Bool → Prop where
  /-- No sign. -/
  | absent : Sign [] false
  /-- A plus sign. -/
  | plus : Sign ['+'] false
  /-- A minus sign. -/
  | minus : Sign ['-'] true

/-- An optional exponent of ten. -/
inductive Exponent : List Char → Int → Prop where
  /-- No exponent. -/
  | absent : Exponent [] 0
  /-- The letter `e` in either case, an optional sign and one or more digits. -/
  | present {mark : Char} {sign text : List Char} {negative : Bool} {values : List Nat}
      (hmark : mark = 'e' ∨ mark = 'E') (hsign : Sign sign negative) (hdigits : Digits text values)
      (hne : values ≠ []) :
      Exponent (mark :: (sign ++ text)) (signed negative (ofDigits 10 values))

/-- Digits with at most one point among them, and the values before and after it. -/
inductive Significand : List Char → List Nat → List Nat → Prop where
  /-- Digits without a point. -/
  | integer {text : List Char} {whole : List Nat} (hwhole : Digits text whole) :
      Significand text whole []
  /-- Digits around a point. -/
  | pointed {text text' : List Char} {whole fraction : List Nat} (hwhole : Digits text whole)
      (hfraction : Digits text' fraction) : Significand (text ++ '.' :: text') whole fraction

/-- What a literal stands for. -/
inductive Meaning where
  /-- Not a number. -/
  | nan
  /-- An infinity. -/
  | infinite (negative : Bool)
  /-- The number `n * 10 ^ exponent` under a sign. -/
  | finite (negative : Bool) (n : Nat) (exponent : Int)

/-- The binary64 number nearest to a meaning. -/
def Meaning.nearest : Meaning → Binary64
  | nan => .nan
  | infinite negative => .infinite negative
  | finite negative n exponent => Decimal.nearest negative n exponent

/-- A literal without white space around it, and its meaning. -/
inductive Spells : List Char → Meaning → Prop where
  /-- The word `nan` in any case. -/
  | nan {sign word : List Char} {negative : Bool} (hsign : Sign sign negative)
      (hword : word.map Char.toLower = "nan".toList) : Spells (sign ++ word) .nan
  /-- The word `inf` or `infinity` in any case. -/
  | infinite {sign word : List Char} {negative : Bool} (hsign : Sign sign negative)
      (hword : word.map Char.toLower = "inf".toList ∨
        word.map Char.toLower = "infinity".toList) : Spells (sign ++ word) (.infinite negative)
  /-- At least one digit, and an optional exponent. -/
  | finite {sign number power : List Char} {negative : Bool} {whole fraction : List Nat}
      {exponent : Int} (hsign : Sign sign negative) (hnumber : Significand number whole fraction)
      (hne : whole ++ fraction ≠ []) (hpower : Exponent power exponent) :
      Spells (sign ++ (number ++ power))
        (.finite negative (ofDigits 10 (whole ++ fraction)) (exponent - fraction.length))

/-- A literal, with white space around it, and its meaning. -/
def Denotes (text : List Char) (meaning : Meaning) : Prop :=
  ∃ before core after, text = before ++ core ++ after ∧ (∀ c ∈ before, isWhiteSpace c = true) ∧
    (∀ c ∈ after, isWhiteSpace c = true) ∧ Spells core meaning

/-! ## Signs -/

theorem Sign.plain {sign : List Char} {negative : Bool} (h : Sign sign negative) :
    Plain sign sign := by
  cases h with
  | absent => exact .nil
  | plus => exact .mark (by decide) (by decide) .nil
  | minus => exact .mark (by decide) (by decide) .nil

theorem Sign.isWhiteSpace {sign : List Char} {negative : Bool} (h : Sign sign negative) :
    ∀ c ∈ sign, isWhiteSpace c = false := by
  cases h with
  | absent => simp
  | plus => exact List.forall_mem_singleton.mpr (by decide)
  | minus => exact List.forall_mem_singleton.mpr (by decide)

/-- A sign is split off what does not start with one. -/
theorem Sign.splitSign {sign body : List Char} {negative : Bool} (h : Sign sign negative)
    (hbody : ∀ c ∈ body.head?, c ≠ '-' ∧ c ≠ '+') :
    splitSign (sign ++ body) = (negative, body) := by
  cases h with
  | plus => rfl
  | minus => rfl
  | absent =>
    cases body with
    | nil => rfl
    | cons c rest =>
      obtain ⟨hminus, hplus⟩ := hbody c rfl
      simp [Numeral.splitSign, hminus, hplus]

/-- What is split off a text is a sign. -/
theorem sign_of_splitSign {text body : List Char} {negative : Bool}
    (h : splitSign text = (negative, body)) : ∃ sign, Sign sign negative ∧ text = sign ++ body := by
  rw [Numeral.splitSign.eq_def] at h
  split at h
  · obtain ⟨rfl, rfl⟩ := Prod.mk.inj h
    exact ⟨_, .minus, rfl⟩
  · obtain ⟨rfl, rfl⟩ := Prod.mk.inj h
    exact ⟨_, .plus, rfl⟩
  · obtain ⟨rfl, rfl⟩ := Prod.mk.inj h
    exact ⟨_, .absent, rfl⟩

/-- A sign that is left stood in front before. -/
theorem exists_sign {raw plain body : List Char} {negative : Bool} (h : Plain raw plain)
    (hsplit : splitSign plain = (negative, body)) :
    ∃ sign rest, raw = sign ++ rest ∧ Sign sign negative ∧ Plain rest body := by
  obtain ⟨sign, hsign, rfl⟩ := sign_of_splitSign hsplit
  cases hsign with
  | absent => exact ⟨[], raw, rfl, .absent, h⟩
  | plus =>
    obtain ⟨rest, rfl, hrest⟩ := h.of_cons (by decide)
    exact ⟨['+'], rest, rfl, .plus, hrest⟩
  | minus =>
    obtain ⟨rest, rfl, hrest⟩ := h.of_cons (by decide)
    exact ⟨['-'], rest, rfl, .minus, hrest⟩

/-! ## Exponents -/

/-- The mark of an exponent is no digit, no underscore, no point and no white space, so it ends the
digits before it. -/
theorem exponentMark_spec {mark : Char} (h : mark = 'e' ∨ mark = 'E') :
    decimalDigit? mark = none ∧ mark ≠ '_' ∧ mark ≠ '.' ∧ isWhiteSpace mark = false := by
  rcases h with rfl | rfl <;> decide

theorem head?_digits {digits : List Char} (h : ∀ c ∈ digits, c.isDigit = true) :
    ∀ c ∈ digits.head?, c ≠ '-' ∧ c ≠ '+' := by
  intro c hc
  have hplain := isPlain_of_isDigit (h c (List.mem_of_mem_head? hc))
  exact (not_special_of_isPlain hplain).2.2

theorem Exponent.isWhiteSpace {text : List Char} {exponent : Int} (h : Exponent text exponent) :
    ∀ c ∈ text, isWhiteSpace c = false := by
  cases h with
  | absent => simp
  | present hmark hsign hdigits hne =>
    exact List.forall_mem_cons.mpr ⟨(exponentMark_spec hmark).2.2.2,
      List.forall_mem_append.mpr ⟨hsign.isWhiteSpace, hdigits.isWhiteSpace⟩⟩

/-- An exponent has a plain form, and is read from it. -/
theorem Exponent.exists_plain {text : List Char} {exponent : Int} (h : Exponent text exponent) :
    ∃ power, Plain text power ∧ exponent? power = some exponent := by
  cases h with
  | absent => exact ⟨[], .nil, rfl⟩
  | @present mark sign digits negative values hmark hsign hdigits hne =>
    obtain ⟨hnone, hunderscore, -, -⟩ := exponentMark_spec hmark
    refine ⟨mark :: (sign ++ values.map hexDigit),
      .mark hnone hunderscore (hsign.plain.append hdigits.plain), ?_⟩
    have hall : ∀ c ∈ values.map hexDigit, c.isDigit = true := hdigits.isDigit
    simp only [exponent?, if_pos hmark, hsign.splitSign (head?_digits hall)]
    rw [if_pos ⟨by simpa using hne, List.all_eq_true.mpr hall⟩,
      ofDigitText_map_hexDigit hdigits.lt]

/-- An exponent that is read was written as one. -/
theorem exponent_of_plain {raw power : List Char} {exponent : Int} (h : Plain raw power)
    (hread : exponent? power = some exponent) : Exponent raw exponent := by
  cases power with
  | nil =>
    cases h
    obtain rfl : 0 = exponent := by simpa [exponent?] using hread
    exact .absent
  | cons mark rest =>
    obtain ⟨negative, digits, hsplit⟩ : ∃ negative digits, splitSign rest = (negative, digits) :=
      ⟨_, _, rfl⟩
    simp only [exponent?, hsplit] at hread
    split_ifs at hread with hmark hdigits
    -- the mark stands in the text as it stands in the plain form, and splits it in two
    obtain ⟨raw, rfl, hrest⟩ := h.of_cons (isDigit_eq_false (exponentMark_spec hmark).1)
    obtain ⟨sign, text, rfl, hsign, htext⟩ := exists_sign hrest hsplit
    obtain ⟨values, hvalues, heq⟩ := htext.exists_digits (List.all_eq_true.mp hdigits.2)
    rw [heq, ofDigitText_map_hexDigit hvalues.lt] at hread
    obtain rfl := Option.some.inj hread
    refine .present hmark hsign hvalues ?_
    rintro rfl
    exact hdigits.1 (by simpa using heq)

/-- An exponent starts with no digit and no point. -/
theorem head?_of_exponent? {power : List Char} {exponent : Int}
    (h : exponent? power = some exponent) : ∀ c ∈ power.head?, c.isDigit = false ∧ c ≠ '.' := by
  cases power with
  | nil => simp
  | cons mark rest =>
    simp only [exponent?] at h
    split_ifs at h with hmark hdigits
    obtain ⟨hnone, -, hpoint, -⟩ := exponentMark_spec hmark
    rintro c ⟨⟩
    exact ⟨isDigit_eq_false hnone, hpoint⟩

/-! ## Digits around a point -/

/-- The parts that are read follow one another. -/
theorem exists_of_parts? {body : List Char} {parts : Parts} (h : parts? body = some parts) :
    ∃ point power, body = parts.whole ++ (point ++ power) ∧
      (∀ c ∈ parts.whole, c.isDigit = true) ∧ (∀ c ∈ parts.fraction, c.isDigit = true) ∧
      parts.whole ++ parts.fraction ≠ [] ∧
      ((point = [] ∧ parts.fraction = []) ∨ point = '.' :: parts.fraction) ∧
      exponent? power = some parts.exponent := by
  have hbody : body.takeWhile Char.isDigit ++ body.dropWhile Char.isDigit = body :=
    List.takeWhile_append_dropWhile
  rw [parts?] at h
  split at h
  next fraction rest hmatch =>
  split_ifs at h with hempty
  obtain ⟨exponent, hexponent, rfl⟩ := Option.map_eq_some_iff.mp h
  -- there are digits on one side of the point at least
  have hne : body.takeWhile Char.isDigit ++ fraction ≠ [] := by
    simpa [List.append_eq_nil_iff] using hempty
  split at hmatch
  · next tail htail =>
    obtain ⟨rfl, rfl⟩ := Prod.mk.inj hmatch
    refine ⟨'.' :: tail.takeWhile Char.isDigit, tail.dropWhile Char.isDigit, ?_,
      fun c => List.mem_takeWhile_imp, fun c => List.mem_takeWhile_imp, hne, .inr rfl, hexponent⟩
    rw [List.cons_append, List.takeWhile_append_dropWhile, ← htail, hbody]
  · obtain ⟨rfl, rfl⟩ := Prod.mk.inj hmatch
    exact ⟨[], _, hbody.symm, fun c => List.mem_takeWhile_imp, by simp, hne, .inl ⟨rfl, rfl⟩,
      hexponent⟩

/-- A number that is read was written as one. -/
theorem significand_of_plain {raw body : List Char} {parts : Parts} (h : Plain raw body)
    (hparts : parts? body = some parts) :
    ∃ number power whole fraction, raw = number ++ power ∧ Significand number whole fraction ∧
      whole ++ fraction ≠ [] ∧ Exponent power parts.exponent ∧
      parts.whole = whole.map hexDigit ∧ parts.fraction = fraction.map hexDigit := by
  obtain ⟨point, power, rfl, hwhole, hfraction, hne, hpoint, hpower⟩ := exists_of_parts? hparts
  have hhead := head?_of_exponent? hpower
  rcases hpoint with ⟨rfl, hempty⟩ | rfl
  -- neither a point nor an exponent starts with a digit, so the text can be cut before them
  · obtain ⟨first, second, rfl, hfirst, hsecond⟩ := h.split fun c hc => (hhead c hc).1
    obtain ⟨whole, hdigits, heq⟩ := hfirst.exists_digits hwhole
    rw [heq, hempty] at hne
    exact ⟨first, second, whole, [], rfl, .integer hdigits, by simpa using hne,
      exponent_of_plain hsecond hpower, heq, hempty⟩
  · obtain ⟨first, rest, rfl, hfirst, hrest⟩ := h.split (by simp)
    rw [List.cons_append] at hrest
    obtain ⟨behind, rfl, hbehind⟩ := hrest.of_cons (by decide)
    obtain ⟨second, last, rfl, hsecond, hlast⟩ := hbehind.split fun c hc => (hhead c hc).1
    obtain ⟨whole, hdigits, heq⟩ := hfirst.exists_digits hwhole
    obtain ⟨fraction, hdigits', heq'⟩ := hsecond.exists_digits hfraction
    rw [heq, heq', ← List.map_append] at hne
    exact ⟨first ++ '.' :: second, last, whole, fraction, by simp, .pointed hdigits hdigits',
      by simpa using hne, exponent_of_plain hlast hpower, heq, heq'⟩

theorem Significand.isWhiteSpace {text : List Char} {whole fraction : List Nat}
    (h : Significand text whole fraction) : ∀ c ∈ text, isWhiteSpace c = false := by
  cases h with
  | integer hwhole => exact hwhole.isWhiteSpace
  | pointed hwhole hfraction =>
    exact List.forall_mem_append.mpr ⟨hwhole.isWhiteSpace,
      List.forall_mem_cons.mpr ⟨by decide, hfraction.isWhiteSpace⟩⟩

theorem Significand.lt {text : List Char} {whole fraction : List Nat}
    (h : Significand text whole fraction) : ∀ value ∈ whole ++ fraction, value < 10 := by
  cases h with
  | integer hwhole => simpa using hwhole.lt
  | pointed hwhole hfraction => exact List.forall_mem_append.mpr ⟨hwhole.lt, hfraction.lt⟩

/-- The parts of a number are read one after another. -/
theorem parts?_append {whole point fraction power : List Char} {exponent : Int}
    (hwhole : ∀ c ∈ whole, c.isDigit = true) (hfraction : ∀ c ∈ fraction, c.isDigit = true)
    (hne : whole ++ fraction ≠ []) (hpower : exponent? power = some exponent)
    (hpoint : (point = [] ∧ fraction = []) ∨ point = '.' :: fraction) :
    parts? (whole ++ (point ++ power)) = some ⟨whole, fraction, exponent⟩ := by
  have hhead := head?_of_exponent? hpower
  have hempty : ¬ (whole = [] ∧ fraction = []) := by simpa using hne
  rcases hpoint with ⟨rfl, rfl⟩ | rfl
  · obtain ⟨htake, hdrop⟩ :=
      takeWhile_append_of_stop whole power hwhole fun c hc => (hhead c hc).1
    -- the text behind the digits is not taken for a point and more digits
    have hmatch : ∀ rest, power ≠ '.' :: rest := by
      rintro rest rfl
      exact (hhead '.' rfl).2 rfl
    rw [List.nil_append, parts?, htake, hdrop]
    split
    next fraction rest heq =>
    split at heq
    · next tail => exact absurd rfl (hmatch tail)
    · obtain ⟨rfl, rfl⟩ := Prod.mk.inj heq
      rw [if_neg hempty, hpower]
      rfl
  · obtain ⟨htake, hdrop⟩ := takeWhile_append_of_stop whole ('.' :: (fraction ++ power)) hwhole
      (by simp)
    obtain ⟨htake', hdrop'⟩ :=
      takeWhile_append_of_stop fraction power hfraction fun c hc => (hhead c hc).1
    simp only [List.cons_append, parts?, htake, hdrop, htake', hdrop']
    rw [if_neg hempty, hpower]
    rfl

/-- A significand with its exponent has a plain form, which is taken apart into the digits and the
exponent. -/
theorem Significand.exists_plain {number power : List Char} {whole fraction : List Nat}
    {exponent : Int} (h : Significand number whole fraction) (hne : whole ++ fraction ≠ [])
    (hpower : Exponent power exponent) :
    ∃ body, Plain (number ++ power) body ∧
      parts? body = some ⟨whole.map hexDigit, fraction.map hexDigit, exponent⟩ := by
  obtain ⟨plain, hplain, hread⟩ := hpower.exists_plain
  have hne' : whole.map hexDigit ++ fraction.map hexDigit ≠ [] := by
    rwa [← List.map_append, ne_eq, List.map_eq_nil_iff]
  cases h with
  | integer hwhole =>
    exact ⟨_, hwhole.plain.append hplain,
      parts?_append hwhole.isDigit (by simp) hne' hread (.inl ⟨rfl, rfl⟩)⟩
  | pointed hwhole hfraction =>
    have hpoint : Plain ['.'] ['.'] := .mark (by decide) (by decide) .nil
    have hall := hwhole.plain.append (hpoint.append (hfraction.plain.append hplain))
    refine ⟨_, by simpa using hall, ?_⟩
    exact parts?_append hwhole.isDigit hfraction.isDigit hne' hread (.inr rfl)

/-- A number starts with a digit or a point. -/
theorem head_of_parts? {body : List Char} {parts : Parts} (h : parts? body = some parts) :
    ∃ c rest, body = c :: rest ∧ (c.isDigit = true ∨ c = '.') := by
  obtain ⟨point, power, rfl, hwhole, -, hne, hpoint, -⟩ := exists_of_parts? h
  cases hparts : parts.whole with
  | cons c rest => exact ⟨c, _, rfl, .inl (hwhole c (by simp [hparts]))⟩
  | nil =>
    rw [hparts, List.nil_append] at hne
    rcases hpoint with ⟨-, hempty⟩ | rfl
    · exact absurd hempty hne
    · exact ⟨'.', _, rfl, .inr rfl⟩

/-- A numeral that can be taken apart does not start with a sign. -/
theorem head?_of_parts? {body : List Char} {parts : Parts} (h : parts? body = some parts) :
    ∀ c ∈ body.head?, c ≠ '-' ∧ c ≠ '+' := by
  obtain ⟨c, rest, rfl, hc⟩ := head_of_parts? h
  have hplain : isPlain c = true := by
    rcases hc with hc | rfl
    · exact isPlain_of_isDigit hc
    · rfl
  rintro d ⟨⟩
  exact (not_special_of_isPlain hplain).2.2

/-! ## Words -/

/-- The letters of the words that stand for numbers are no digits, signs or white space. -/
theorem letter_spec {c : Char} (h : c.toLower ∈ "infaty".toList) :
    decimalDigit? c = none ∧ c ≠ '_' ∧ isWhiteSpace c = false ∧ c ≠ '-' ∧ c ≠ '+' := by
  have hascii : ("infaty".toList.all fun d => d.toNat < 128) = true := by decide
  exact forall_ascii
    (P := fun c => c.toLower ∈ "infaty".toList →
      decimalDigit? c = none ∧ c ≠ '_' ∧ isWhiteSpace c = false ∧ c ≠ '-' ∧ c ≠ '+')
    (by decide) (toNat_lt_of_toLower (by simpa using List.all_eq_true.mp hascii _ h)) h

/-- A word that stands for a number. -/
def IsWord (word : List Char) : Prop :=
  word.map Char.toLower = "nan".toList ∨ word.map Char.toLower = "inf".toList ∨
    word.map Char.toLower = "infinity".toList

/-- Words are spelled with the letters of `infinity` and `nan`. -/
theorem IsWord.toLower_mem {word : List Char} (h : IsWord word) :
    ∀ c ∈ word, c.toLower ∈ "infaty".toList := by
  intro c hc
  have hmem : c.toLower ∈ word.map Char.toLower := List.mem_map_of_mem hc
  have hnan : "nan".toList ⊆ "infaty".toList := by decide
  have hinf : "inf".toList ⊆ "infaty".toList := by decide
  have hinfinity : "infinity".toList ⊆ "infaty".toList := by decide
  rcases h with h | h | h
  · exact hnan (h ▸ hmem)
  · exact hinf (h ▸ hmem)
  · exact hinfinity (h ▸ hmem)

theorem IsWord.isWhiteSpace {word : List Char} (h : IsWord word) :
    ∀ c ∈ word, isWhiteSpace c = false :=
  fun c hc => (letter_spec (h.toLower_mem c hc)).2.2.1

theorem IsWord.plain {word : List Char} (h : IsWord word) : Plain word word :=
  plain_of_forall fun c hc =>
    ⟨(letter_spec (h.toLower_mem c hc)).1, (letter_spec (h.toLower_mem c hc)).2.1⟩

/-- A word is the plain form of no other text. -/
theorem IsWord.eq_of_plain {raw word : List Char} (h : IsWord word) (hplain : Plain raw word) :
    raw = word :=
  hplain.eq_of_forall fun c hc => isDigit_eq_false (letter_spec (h.toLower_mem c hc)).1

/-- A sign can be split off a word. -/
theorem IsWord.splitSign {sign word : List Char} {negative : Bool} (h : IsWord word)
    (hsign : Sign sign negative) : Numeral.splitSign (sign ++ word) = (negative, word) :=
  hsign.splitSign fun c hc =>
    (letter_spec (h.toLower_mem c (List.mem_of_mem_head? hc))).2.2.2

/-- What starts like a number is no word. -/
theorem not_isWord_of_parts? {body : List Char} {parts : Parts} (h : parts? body = some parts) :
    ¬ IsWord body := by
  intro hword
  obtain ⟨c, rest, rfl, hc⟩ := head_of_parts? h
  have hletter := letter_spec (hword.toLower_mem c List.mem_cons_self)
  rcases hc with hc | rfl
  · rw [isDigit_eq_false hletter.1] at hc
    cases hc
  · exact absurd (hword.toLower_mem '.' List.mem_cons_self) (by decide)

/-! ## Literals -/

/-- No white space is left in a literal. -/
theorem Spells.isWhiteSpace {core : List Char} {meaning : Meaning} (h : Spells core meaning) :
    ∀ c ∈ core, isWhiteSpace c = false := by
  cases h with
  | nan hsign hword =>
    exact List.forall_mem_append.mpr ⟨hsign.isWhiteSpace, IsWord.isWhiteSpace (.inl hword)⟩
  | infinite hsign hword =>
    exact List.forall_mem_append.mpr ⟨hsign.isWhiteSpace, IsWord.isWhiteSpace (.inr hword)⟩
  | finite hsign hnumber hne hpower =>
    exact List.forall_mem_append.mpr ⟨hsign.isWhiteSpace,
      List.forall_mem_append.mpr ⟨hnumber.isWhiteSpace, hpower.isWhiteSpace⟩⟩

/-- Reading goes on with what is left of the text. -/
theorem read_of_plain {text plain body : List Char} {negative : Bool}
    (h : Plain (trim isWhiteSpace text) plain) (hsplit : splitSign plain = (negative, body)) :
    read text =
      if body.map Char.toLower = "nan".toList then .ok .nan
      else if body.map Char.toLower = "inf".toList ∨
        body.map Char.toLower = "infinity".toList then .ok (.infinite negative)
      else match parts? body with
        | some parts => .ok (parts.nearest negative)
        | none => .error .malformedNumeral := by
  simp only [read, Numeral.normalize, h.ungroup?, hsplit, String.ofList_eq]
  rfl

/-- Parts that were written from digit values stand for the number with these digits. -/
theorem nearest_map_hexDigit {whole fraction : List Nat}
    (h : ∀ value ∈ whole ++ fraction, value < 10) (negative : Bool) (exponent : Int) :
    Parts.nearest ⟨whole.map hexDigit, fraction.map hexDigit, exponent⟩ negative =
      nearest negative (ofDigits 10 (whole ++ fraction)) (exponent - fraction.length) := by
  rw [Parts.nearest, ← List.map_append, ofDigitText_map_hexDigit h, List.length_map]

/-- A literal is read as the number nearest to its meaning. -/
theorem read_of_spells {text : List Char} {meaning : Meaning}
    (h : Spells (trim isWhiteSpace text) meaning) : read text = .ok meaning.nearest := by
  generalize hcore : trim isWhiteSpace text = core at h
  cases h with
  | nan hsign hword =>
    have hisWord : IsWord _ := .inl hword
    have hplain := hsign.plain.append hisWord.plain
    rw [read_of_plain (hcore ▸ hplain) (hisWord.splitSign hsign), if_pos hword]
    rfl
  | @infinite sign word negative hsign hword =>
    have hisWord : IsWord word := .inr hword
    have hplain := hsign.plain.append hisWord.plain
    have hnan : ¬ word.map Char.toLower = "nan".toList := by
      rcases hword with hword | hword <;> rw [hword] <;> decide
    rw [read_of_plain (hcore ▸ hplain) (hisWord.splitSign hsign), if_neg hnan, if_pos hword]
    rfl
  | finite hsign hnumber hne hpower =>
    obtain ⟨body, hbody, hparts⟩ := hnumber.exists_plain hne hpower
    -- words are tried first, and this is none of them
    have hword := not_isWord_of_parts? hparts
    have hplain := hsign.plain.append hbody
    rw [read_of_plain (hcore ▸ hplain) (hsign.splitSign (head?_of_parts? hparts)),
      if_neg fun h => hword (.inl h), if_neg fun h => hword (.inr h), hparts]
    simp only [nearest_map_hexDigit hnumber.lt]
    rfl

/-- What is read is spelled as a literal. -/
theorem exists_spells_of_read {text : List Char} {x : Binary64} (h : read text = .ok x) :
    ∃ meaning, Spells (trim isWhiteSpace text) meaning ∧ meaning.nearest = x := by
  cases hungroup : ungroup? Char.isDigit (Numeral.normalize text) with
  | none => simp [read, hungroup] at h
  | some plain =>
    have hplain : Plain (trim isWhiteSpace text) plain := ungroup?_eq_some_iff.mp hungroup
    obtain ⟨negative, body, hsplit⟩ : ∃ negative body, splitSign plain = (negative, body) :=
      ⟨_, _, rfl⟩
    -- from here on only what stands behind the sign matters
    obtain ⟨sign, rest, hcore, hsign, hrest⟩ := exists_sign hplain hsplit
    rw [read_of_plain hplain hsplit] at h
    rw [hcore]
    split_ifs at h with hnan hinfinite
    · obtain rfl := Except.ok.inj h
      obtain rfl := IsWord.eq_of_plain (.inl hnan) hrest
      exact ⟨.nan, .nan hsign hnan, rfl⟩
    · obtain rfl := Except.ok.inj h
      obtain rfl := IsWord.eq_of_plain (.inr hinfinite) hrest
      exact ⟨.infinite negative, .infinite hsign hinfinite, rfl⟩
    · cases hparts : parts? body with
      | none => simp [hparts] at h
      | some parts =>
        obtain ⟨number, power, whole, fraction, rfl, hnumber, hne, hpower, hwhole, hfraction⟩ :=
          significand_of_plain hrest hparts
        refine ⟨_, .finite hsign hnumber hne hpower, ?_⟩
        rw [hparts] at h
        obtain rfl := Except.ok.inj h
        rw [Meaning.nearest, ← nearest_map_hexDigit hnumber.lt, ← hwhole, ← hfraction]

/-- Reading accepts exactly the literals and gives the number nearest to their meaning. -/
theorem read_eq_ok_iff {text : List Char} {x : Binary64} :
    read text = .ok x ↔ ∃ meaning, Denotes text meaning ∧ meaning.nearest = x := by
  constructor
  · intro h
    obtain ⟨meaning, hspells, hnearest⟩ := exists_spells_of_read h
    obtain ⟨before, after, htext, hbefore, hafter⟩ := exists_margins isWhiteSpace text
    exact ⟨meaning, ⟨before, _, after, htext, hbefore, hafter, hspells⟩, hnearest⟩
  · rintro ⟨meaning, ⟨before, core, after, rfl, hbefore, hafter, hspells⟩, rfl⟩
    have htrim : trim isWhiteSpace (before ++ core ++ after) = core := by
      rw [trim_concat_margin hafter, trim_append hbefore,
        trim_eq_self_of_forall hspells.isWhiteSpace]
    exact read_of_spells (htrim.symm ▸ hspells)

/-- Reading fails for one reason only. -/
theorem eq_malformedNumeral_of_read {text : List Char} {cause : NumericError}
    (h : read text = .error cause) : cause = .malformedNumeral := by
  cases hungroup : ungroup? Char.isDigit (Numeral.normalize text) with
  | none => simpa [read, hungroup] using h.symm
  | some plain =>
    rw [read_of_plain (ungroup?_eq_some_iff.mp hungroup) rfl] at h
    split_ifs at h
    split at h
    · cases h
    · exact (Except.error.inj h).symm

/-- Reading fails on what is no literal. -/
theorem read_eq_error_iff {text : List Char} {cause : NumericError} :
    read text = .error cause ↔ cause = .malformedNumeral ∧ ∀ meaning, ¬ Denotes text meaning := by
  constructor
  · intro h
    refine ⟨eq_malformedNumeral_of_read h, fun meaning hmeaning => ?_⟩
    rw [read_eq_ok_iff.mpr ⟨meaning, hmeaning, rfl⟩] at h
    cases h
  · rintro ⟨rfl, hnone⟩
    cases hread : read text with
    | error cause => rw [eq_malformedNumeral_of_read hread]
    | ok x =>
      obtain ⟨meaning, hmeaning, -⟩ := read_eq_ok_iff.mp hread
      exact absurd hmeaning (hnone meaning)

/-- Only the word for it is read as no number. -/
theorem read_eq_nan_iff {text : List Char} : read text = .ok .nan ↔ Denotes text .nan := by
  rw [read_eq_ok_iff]
  constructor
  · rintro ⟨meaning, hmeaning, hnearest⟩
    cases meaning with
    | nan => exact hmeaning
    | infinite negative => cases hnearest
    | finite negative n exponent => exact absurd hnearest (nearest_ne_nan negative n exponent)
  · exact fun h => ⟨.nan, h, rfl⟩

/-- An infinity is read from a word for it or from a number beyond the overflow bound. -/
theorem read_eq_infinite_iff {text : List Char} {negative : Bool} :
    read text = .ok (.infinite negative) ↔ Denotes text (.infinite negative) ∨
      ∃ n exponent, Denotes text (.finite negative n exponent) ∧
        Binary64.overflowBound ≤ n * 10 ^ exponent := by
  rw [read_eq_ok_iff]
  constructor
  · rintro ⟨meaning, hmeaning, hnearest⟩
    cases meaning with
    | nan => cases hnearest
    | infinite sign =>
      obtain rfl := Binary64.infinite.inj hnearest
      exact .inl hmeaning
    | finite sign n exponent =>
      obtain ⟨rfl, hbound⟩ := (nearest_eq_infinite_iff sign negative n exponent).mp hnearest
      exact .inr ⟨n, exponent, hmeaning, hbound⟩
  · rintro (h | ⟨n, exponent, h, hbound⟩)
    · exact ⟨_, h, rfl⟩
    · exact ⟨_, h, (nearest_eq_infinite_iff negative negative n exponent).mpr ⟨rfl, hbound⟩⟩

end CssColor.Decimal
