import CssColor.Channel
import CssColor.Proofs.Number.Reading
import CssColor.Validation.Decode

/-!
# Channel bytes

A canonical color is the literal of three bytes. Every color of six hexadecimal digits is, in lower
case, the literal of the bytes it is read as, and every triple of numbers at all is encoded as the
literal of three bytes.

## Main definitions

* `Rgb.literal`: the canonical color of three bytes.
* `IsCanonical`: the text is the literal of three bytes.
* `Channel.levelOfPercent`: the level of a percentage, step by step.

## Main results

* `exists_levels_of_isColor`: six digits in either case are read as three bytes, whose literal is
  the lower case of the text.
* `Channel.encode_spec`: every number, an infinity or a NaN included, is encoded as a byte.
* `Channel.encodeComponent_digits`, `Channel.encodeComponent_percent`: the bytes that components are
  encoded as, without failure and without an error of rounding.
-/

namespace CssColor

open Text

/-! ## Pairs of digits -/

namespace Channel

/-- The value of a digit is written as the digit in lower case. -/
theorem hexDigit_value {c : Char} (h : isHexDigit c = true) :
    hexDigit ((hexDigit? c).getD 0) = c.toLower :=
  forall_ascii (P := fun c => isHexDigit c = true → hexDigit ((hexDigit? c).getD 0) = c.toLower)
    (by decide) (toNat_lt_of_isHexDigit h) h

theorem value_lt {c : Char} (h : isHexDigit c = true) : (hexDigit? c).getD 0 < 16 :=
  forall_ascii (P := fun c => isHexDigit c = true → (hexDigit? c).getD 0 < 16)
    (by decide) (toNat_lt_of_isHexDigit h) h

/-- Two digits in either case write a byte, and its digits are theirs in lower case. -/
theorem exists_level_of_pair {high low : Char} (hhigh : isHexDigit high = true)
    (hlow : isHexDigit low = true) :
    ∃ level : Fin 256, Hexadecimal.read [high, low] = .ok (level : Int) ∧
      hexPair level = [high.toLower, low.toLower] := by
  have h₁ := value_lt hhigh
  have h₂ := value_lt hlow
  have hvalue : Numeral.ofDigitText 16 [high, low] =
      16 * (hexDigit? high).getD 0 + (hexDigit? low).getD 0 := by
    simp [Numeral.ofDigitText, ofDigits]
  refine ⟨⟨16 * (hexDigit? high).getD 0 + (hexDigit? low).getD 0, by omega⟩, ?_, ?_⟩
  · rw [Hexadecimal.read_digits (by simp) (by simp [hhigh, hlow]), hvalue]
  · have hdiv : (16 * (hexDigit? high).getD 0 + (hexDigit? low).getD 0) / 16 =
        (hexDigit? high).getD 0 := by omega
    have hmod : (16 * (hexDigit? high).getD 0 + (hexDigit? low).getD 0) % 16 =
        (hexDigit? low).getD 0 := by omega
    rw [hexPair, hdiv, hmod, hexDigit_value hhigh, hexDigit_value hlow]

/-- Each of sixteen values is written as a digit in lower case, which has that value. -/
theorem isHexDigit_hexDigit :
    ∀ d < 16, isHexDigit (hexDigit d) = true ∧ (hexDigit d).toLower = hexDigit d ∧
      (hexDigit? (hexDigit d)).getD 0 = d := by
  decide

/-- The digits of a byte are hexadecimal digits in lower case. -/
theorem isHexDigit_of_mem_hexPair (level : Fin 256) {c : Char} (h : c ∈ hexPair level) :
    isHexDigit c = true ∧ c.toLower = c := by
  simp only [hexPair, List.mem_cons, List.not_mem_nil, or_false] at h
  rcases h with rfl | rfl
  · obtain ⟨hdigit, hlower, -⟩ := isHexDigit_hexDigit (level / 16) (by omega)
    exact ⟨hdigit, hlower⟩
  · obtain ⟨hdigit, hlower, -⟩ := isHexDigit_hexDigit (level % 16) (by omega)
    exact ⟨hdigit, hlower⟩

/-- The digits of a byte are read as that byte. -/
theorem read_hexPair (level : Fin 256) : Hexadecimal.read (hexPair level) = .ok (level : Int) := by
  have hvalue : Numeral.ofDigitText 16 (hexPair level) = level := by
    obtain ⟨-, -, hhigh⟩ := isHexDigit_hexDigit (level / 16) (by omega)
    obtain ⟨-, -, hlow⟩ := isHexDigit_hexDigit (level % 16) (by omega)
    simp only [Numeral.ofDigitText, ofDigits, hexPair, List.map_cons, List.map_nil, hhigh, hlow,
      List.foldl_cons, List.foldl_nil]
    omega
  have hread := Hexadecimal.read_digits (show hexPair level ≠ [] by simp [hexPair])
    fun c hc => (isHexDigit_of_mem_hexPair level hc).1
  rwa [hvalue] at hread

end Channel

/-! ## Canonical colors -/

namespace Rgb

/-- The canonical color of three bytes. -/
def literal (levels : Rgb (Fin 256)) : String :=
  hexText (levels.map fun level : Fin 256 => Channel.hexPair level)

/-- A canonical color has the digits of its bytes one behind the other. -/
theorem toList_literal (levels : Rgb (Fin 256)) :
    levels.literal.toList = '#' :: (Channel.hexPair levels.red ++ Channel.hexPair levels.green ++
      Channel.hexPair levels.blue) := by
  rw [literal, hexText, String.toList_ofList]
  rfl

/-- The digits of a canonical color. -/
theorem isHexDigit_of_mem_literal {levels : Rgb (Fin 256)} {c : Char}
    (h : c ∈ levels.literal.toList.tail) : isHexDigit c = true ∧ c.toLower = c := by
  rw [toList_literal, List.tail_cons, List.mem_append, List.mem_append] at h
  rcases h with (h | h) | h
  · exact Channel.isHexDigit_of_mem_hexPair levels.red h
  · exact Channel.isHexDigit_of_mem_hexPair levels.green h
  · exact Channel.isHexDigit_of_mem_hexPair levels.blue h

/-- Canonical colors pass the check of colors. -/
theorem isColor_literal (levels : Rgb (Fin 256)) : Decode.isColor levels.literal.toList = true := by
  have hdigits : ∀ c ∈ levels.literal.toList.tail, isHexDigit c = true :=
    fun c hc => (isHexDigit_of_mem_literal hc).1
  rw [toList_literal] at hdigits ⊢
  rw [Decode.isColor, Bool.and_eq_true]
  exact ⟨rfl, List.all_eq_true.mpr hdigits⟩

end Rgb

/-- The text is a number sign and the digits of three bytes. -/
def IsCanonical (color : String) : Prop := ∃ levels : Rgb (Fin 256), color = levels.literal

/-- The shape of a color of six digits. -/
theorem exists_digits_of_isColor {text : List Char} (h : Decode.isColor text = true) :
    ∃ a b c d e f, text = ['#', a, b, c, d, e, f] ∧
      ∀ digit ∈ [a, b, c, d, e, f], isHexDigit digit = true := by
  unfold Decode.isColor at h
  split at h
  · next digits =>
    rw [Bool.and_eq_true, beq_iff_eq, List.all_eq_true] at h
    obtain ⟨hlength, hdigits⟩ := h
    match digits, hlength with
    | [a, b, c, d, e, f], _ => exact ⟨a, b, c, d, e, f, rfl, hdigits⟩
  · exact absurd h Bool.false_ne_true

/-- A color that passes its check is written in ASCII. -/
theorem isAscii_of_isColor {text : List Char} (h : Decode.isColor text = true) : IsAscii text := by
  obtain ⟨a, b, c, d, e, f, rfl, hdigits⟩ := exists_digits_of_isColor h
  refine isAscii_cons.mpr ⟨by decide, fun digit hdigit => ?_⟩
  exact toNat_lt_of_isHexDigit (hdigits digit hdigit)

theorem IsCanonical.isColor {color : String} (h : IsCanonical color) :
    Decode.isColor color.toList = true := by
  obtain ⟨levels, rfl⟩ := h
  exact Rgb.isColor_literal levels

/-- A canonical color is in lower case. -/
theorem IsCanonical.lower_eq {color : String} (h : IsCanonical color) : lower color = color := by
  have hascii := isAscii_of_isColor h.isColor
  obtain ⟨levels, rfl⟩ := h
  have hdigits : ∀ c ∈ levels.literal.toList.tail, c.toLower = c :=
    fun c hc => (Rgb.isHexDigit_of_mem_literal hc).2
  have hmap : levels.literal.toList.map Char.toLower = levels.literal.toList := by
    rw [Rgb.toList_literal, List.tail_cons] at hdigits
    rw [Rgb.toList_literal, List.map_cons, map_toLower_eq_self hdigits]
    rfl
  rw [lower, lowerChars_of_isAscii hascii, hmap, String.ofList_toList]

/-- Six digits are read in pairs. -/
theorem Rgb.ofHex_of_pairs {color : String} {a b c d e f : Char} {red green blue : Int}
    (htext : color.toList = ['#', a, b, c, d, e, f]) (ha : isHexDigit a = true)
    (hred : Hexadecimal.read [a, b] = .ok red) (hgreen : Hexadecimal.read [c, d] = .ok green)
    (hblue : Hexadecimal.read [e, f] = .ok blue) : Rgb.ofHex color = .ok ⟨red, green, blue⟩ := by
  have hnot : (a == '#') = false := by
    have hne : a ≠ '#' := by rintro rfl; exact absurd ha (by decide)
    simpa using hne
  -- the pairs stand at offsets 0, 2 and 4 behind the number sign
  have hdrop : color.toList.dropWhile (· == '#') = [a, b, c, d, e, f] := by
    simp [htext, hnot]
  have h₁ : slice [a, b, c, d, e, f] 0 2 = [a, b] := rfl
  have h₂ : slice [a, b, c, d, e, f] 2 4 = [c, d] := rfl
  have h₃ : slice [a, b, c, d, e, f] 4 6 = [e, f] := rfl
  simp [Rgb.ofHex, hdrop, h₁, h₂, h₃, hred, hgreen, hblue]

/-- A canonical color is read as its bytes. -/
theorem Rgb.ofHex_literal (levels : Rgb (Fin 256)) :
    Rgb.ofHex levels.literal = .ok (levels.map fun level : Fin 256 => (level : Int)) := by
  refine Rgb.ofHex_of_pairs (Rgb.toList_literal levels) ?_ (Channel.read_hexPair levels.red)
    (Channel.read_hexPair levels.green) (Channel.read_hexPair levels.blue)
  exact (Channel.isHexDigit_hexDigit (levels.red / 16) (by omega)).1

/-- Six digits in either case are read as three bytes, whose literal is the text in lower case. -/
theorem exists_levels_of_isColor {color : String} (h : Decode.isColor color.toList = true) :
    ∃ levels : Rgb (Fin 256), lower color = levels.literal ∧
      Rgb.ofHex color = .ok (levels.map fun level : Fin 256 => (level : Int)) := by
  obtain ⟨a, b, c, d, e, f, htext, hdigits⟩ := exists_digits_of_isColor h
  obtain ⟨red, hred, hred'⟩ :=
    Channel.exists_level_of_pair (hdigits a (by simp)) (hdigits b (by simp))
  obtain ⟨green, hgreen, hgreen'⟩ :=
    Channel.exists_level_of_pair (hdigits c (by simp)) (hdigits d (by simp))
  obtain ⟨blue, hblue, hblue'⟩ :=
    Channel.exists_level_of_pair (hdigits e (by simp)) (hdigits f (by simp))
  refine ⟨⟨red, green, blue⟩, ?_, ?_⟩
  · rw [lower, lowerChars_of_isAscii (isAscii_of_isColor h), htext, Rgb.literal, Rgb.hexText,
      Rgb.map, hred', hgreen', hblue']
    rfl
  · exact Rgb.ofHex_of_pairs htext (hdigits a (by simp)) hred hgreen hblue

/-! ## Encoding -/

namespace Channel

/-- The byte nearest to an integer. -/
def nearestByte (n : Int) : Fin 256 := ⟨(max 0 (min 255 n)).toNat, by omega⟩

/-- The byte nearest to an integer is the integer moved between 0 and 255. -/
theorem natCast_nearestByte (n : Int) : ((nearestByte n : Nat) : Int) = max 0 (min 255 n) :=
  Int.toNat_of_nonneg (le_max_left _ _)

/-- An integer of any size is encoded as the nearest byte. -/
theorem encode_int (n : Int) : encode (.int n) = .ok (hexPair (nearestByte n)) := by
  have hclamp := Number.toRat?_clamp (Number.toRat?_int n) (Number.toRat?_ofNat 0)
    (Number.toRat?_ofNat 255)
  have hvalue : max ((0 : ℕ) : ℚ) (min ((255 : ℕ) : ℚ) (n : ℚ)) = ((nearestByte n : ℕ) : ℚ) := by
    rw [← Int.cast_natCast (nearestByte n : ℕ), natCast_nearestByte]
    push_cast
    rfl
  rw [hvalue] at hclamp
  rw [encode, Number.truncate_spec hclamp (by positivity), ok_bind, Int.floor_natCast]
  rfl

theorem min_level (level : Fin 256) : min (level : Nat) 255 = level := Nat.min_eq_left (by omega)

/-- The digits of a natural number are those of the number moved below 256. -/
theorem encode_natCast (n : Nat) : encode (.int n) = .ok (hexPair (min n 255)) := by
  have hbyte : (nearestByte n : Nat) = min n 255 := by
    have h := natCast_nearestByte n
    omega
  rw [encode_int, hbyte]

/-- A byte is encoded as its own digits. -/
theorem encode_level (level : Fin 256) : encode (.int (level : Nat)) = .ok (hexPair level) := by
  rw [encode_natCast, min_level]

/-- Every number, an infinity or a NaN included, is encoded as a byte. -/
theorem encode_spec (x : Number) : ∃ level : Fin 256, encode x = .ok (hexPair level) := by
  obtain ⟨q, hq, hlow, hhigh⟩ := Number.clamp_spec x (Number.toRat?_ofNat 0)
    (Number.toRat?_ofNat 255) (by norm_num)
  have hnonneg : 0 ≤ q := by simpa using hlow
  have hfloor : 0 ≤ ⌊q⌋ := Int.floor_nonneg.mpr hnonneg
  have hlt : ⌊q⌋ < 256 := by
    refine Int.floor_lt.mpr (hhigh.trans_lt ?_)
    norm_num
  refine ⟨⟨⌊q⌋.toNat, by omega⟩, ?_⟩
  rw [encode, Number.truncate_spec hq hnonneg]
  rfl

/-- An integer component of at most three digits is encoded as its number moved below 256. -/
theorem encodeComponent_digits {digits : List Char} (hne : digits ≠ [])
    (hlength : digits.length ≤ 3) (h : ∀ c ∈ digits, c.isDigit = true) :
    encodeComponent digits = .ok (hexPair (min (Numeral.ofDigitText 10 digits) 255)) := by
  have hlast : digits.getLast? ≠ some '%' := by
    intro hlast
    exact absurd (h '%' (List.mem_of_getLast? hlast)) (by decide)
  have hvalue : (Number.float (Decimal.nearest false (Numeral.ofDigitText 10 digits) 0)).toRat? =
      some (Numeral.ofDigitText 10 digits : ℚ) := Decimal.toRat?_nearest_digits hlength h
  rw [encodeComponent, level, if_neg hlast, Decimal.read_digits hne h, ok_bind,
    Number.truncate_spec hvalue (by positivity), ok_bind, Int.floor_natCast, encode_natCast]

/-- The decimal spelling of a byte is encoded as that byte. -/
theorem encodeComponent_toString (level : Fin 256) :
    encodeComponent (toString (level : Int)).toList = .ok (hexPair level) := by
  have hlength : (Nat.toDigits 10 level).length ≤ 3 :=
    (Nat.length_toDigits_le_iff (by norm_num) (by norm_num)).mpr (by omega)
  have hdigits : ∀ c ∈ Nat.toDigits 10 level, c.isDigit = true := fun c hc =>
    Nat.isDigit_of_mem_toDigits (by norm_num) (by norm_num) hc
  rw [Numeral.toList_toString, encodeComponent_digits Nat.toDigits_ne_nil hlength hdigits,
    Numeral.ofDigitText_toDigits, min_level]

/-- The level of a percentage that lies between 0 and 100. -/
def levelOfPercent (percent : Number) : Except NumericError Int := do
  let fraction ← percent.div 100
  let scaled ← (Number.float fraction).mul 255
  scaled.roundHalfUp

/-- The level of a percentage is rounded three times before its floor is taken. -/
theorem levelOfPercent_spec {x : Number} {q : ℚ} (hx : x.toRat? = some q) (hlow : 0 ≤ q)
    (hhigh : q ≤ 100) :
    levelOfPercent x = .ok ⌊Binary64.roundRat
      (Binary64.roundRat (Binary64.roundRat (q / 100) * 255) + 1 / 2)⌋ := by
  have hfraction : |q / 100| ≤ 2 ^ 0 := by
    rw [abs_of_nonneg (by positivity)]
    linarith
  have hrounded : |Binary64.roundRat (q / 100)| ≤ 2 ^ 0 := Binary64.abs_roundRat_le hfraction
  have hscaled : |Binary64.roundRat (q / 100) * 255| ≤ 2 ^ 8 := by
    rw [abs_mul, abs_of_pos (show (0 : ℚ) < 255 by norm_num)]
    linarith
  -- the quotient, the product and the sum are rounded one after the other
  obtain ⟨fraction, hdiv, hfractionValue⟩ := Number.div_spec hx (Number.toRat?_ofNat 100)
    (by norm_num) (Number.abs_le_of_nonneg hlow (by linarith)) (by norm_num)
    (hfraction.trans (by norm_num))
  obtain ⟨scaled, hmul, -, hscaledValue⟩ := Number.mul_spec
    ((Number.toRat?_float fraction).trans hfractionValue) (Number.toRat?_ofNat 255)
    (.inl (Number.isFloat_float fraction)) (hrounded.trans (by norm_num)) (by norm_num)
  have hround := Number.roundHalfUp_spec hscaledValue
    ((Binary64.abs_roundRat_le hscaled).trans (by norm_num))
  rw [levelOfPercent, hdiv, ok_bind, hmul, ok_bind]
  exact hround

/-- The three roundings together move the share of 255 by very little. -/
theorem abs_roundings_sub_le {q : ℚ} (hlow : 0 ≤ q) (hhigh : q ≤ 1) :
    |Binary64.roundRat (Binary64.roundRat (Binary64.roundRat q * 255) + 1 / 2) -
      (q * 255 + 1 / 2)| ≤ 1 / 2 ^ 30 := by
  set fraction := Binary64.roundRat q with hfraction
  have hfraction₀ : 0 ≤ fraction := Binary64.roundRat_nonneg hlow
  have hfraction₁ : fraction ≤ 1 := Binary64.roundRat_le_one hhigh
  have hround₁ : |fraction - q| ≤ 1 / 2 ^ 40 :=
    Binary64.abs_roundRat_sub_le hlow (hhigh.trans (by norm_num)) (le_refl (40 + 12))
  set scaled := Binary64.roundRat (fraction * 255) with hscaled
  have hscaled₀ : 0 ≤ scaled := Binary64.roundRat_nonneg (by positivity)
  have hround₂ : |scaled - fraction * 255| ≤ 1 / 2 ^ 40 :=
    Binary64.abs_roundRat_sub_le (by positivity) (by linarith) (le_refl (40 + 12))
  obtain ⟨hlow₁, hhigh₁⟩ := abs_le.mp hround₁
  obtain ⟨hlow₂, hhigh₂⟩ := abs_le.mp hround₂
  have hround₃ : |Binary64.roundRat (scaled + 1 / 2) - (scaled + 1 / 2)| ≤ 1 / 2 ^ 40 :=
    Binary64.abs_roundRat_sub_le (by positivity) (by linarith) (le_refl (40 + 12))
  obtain ⟨hlow₃, hhigh₃⟩ := abs_le.mp hround₃
  exact abs_le.mpr ⟨by linarith, by linarith⟩

/-- The level of a whole percentage is its share of 255, rounded half up. -/
theorem levelOfPercent_natCast {x : Number} {n : Nat} (hx : x.toRat? = some (n : ℚ))
    (hn : n ≤ 100) : levelOfPercent x = .ok (((51 * n + 10) / 20 : Nat) : Int) := by
  have hhigh : (n : ℚ) ≤ 100 := by exact_mod_cast hn
  have hlevel := levelOfPercent_spec hx (by positivity) hhigh
  have hexact := Nat.div_add_mod (51 * n + 10) 20
  by_cases htie : (51 * n + 10) % 20 = 0
  · -- the share lies halfway, and no rounding on the way may move it down
    have hties : ∀ m ∈ [10, 30, 50, 70, 90],
        levelOfPercent (.int (m : Nat)) = .ok (((51 * m + 10) / 20 : Nat) : Int) := by
      decide +kernel
    have hmem : n ∈ [10, 30, 50, 70, 90] := by
      simp only [List.mem_cons, List.not_mem_nil, or_false]
      omega
    rw [hlevel, ← hties n hmem]
    exact (levelOfPercent_spec (Number.toRat?_int n) (by positivity) hhigh).symm
  · -- the share is off by a twentieth at least, and the roundings do not reach that far
    obtain ⟨hlow, hhigh⟩ := abs_le.mp
      (abs_roundings_sub_le (show 0 ≤ (n : ℚ) / 100 by positivity) (by linarith))
    set level := (51 * n + 10) / 20 with hlevelDef
    have hlower : ((20 * level + 1 : ℕ) : ℚ) ≤ (51 * n + 10 : ℕ) := Nat.cast_le.mpr (by omega)
    have hupper : ((51 * n + 10 : ℕ) : ℚ) ≤ (20 * level + 19 : ℕ) := Nat.cast_le.mpr (by omega)
    push_cast at hlower hupper
    rw [hlevel]
    congr 1
    rw [Int.floor_eq_iff]
    constructor
    · push_cast
      linarith
    · push_cast
      linarith

/-- A percentage of at most three digits is moved below 101 and encoded as its share of 255, rounded
half up. -/
theorem encodeComponent_percent {digits : List Char} (hne : digits ≠ [])
    (hlength : digits.length ≤ 3) (h : ∀ c ∈ digits, c.isDigit = true) :
    encodeComponent (digits ++ ['%']) =
      .ok (hexPair ((51 * min (Numeral.ofDigitText 10 digits) 100 + 10) / 20)) := by
  have hlast : (digits ++ ['%']).getLast? = some '%' := by simp
  have hvalue : (Number.float (Decimal.nearest false (Numeral.ofDigitText 10 digits) 0)).toRat? =
      some (Numeral.ofDigitText 10 digits : ℚ) := Decimal.toRat?_nearest_digits hlength h
  have hclamp := Number.toRat?_clamp hvalue (Number.toRat?_ofNat 0) (Number.toRat?_ofNat 100)
  rw [Nat.cast_zero, max_eq_right (by positivity), min_comm, ← Nat.cast_min] at hclamp
  have hlevel := levelOfPercent_natCast hclamp (Nat.min_le_right _ _)
  have hbyte : min ((51 * min (Numeral.ofDigitText 10 digits) 100 + 10) / 20) 255 =
      (51 * min (Numeral.ofDigitText 10 digits) 100 + 10) / 20 := by omega
  rw [encodeComponent, level, if_pos hlast, List.dropLast_concat, Decimal.read_digits hne h,
    ok_bind]
  show (levelOfPercent _ >>= fun n => encode (.int n)) = _
  rw [hlevel, ok_bind, encode_natCast, hbyte]

end Channel

/-- Three bytes are encoded as their literal. -/
theorem Rgb.toHex_levels (levels : Rgb (Fin 256)) :
    ((levels.map fun level : Fin 256 => (level : Int)).map Number.int).toHex =
      .ok levels.literal := by
  simp only [Rgb.toHex, Rgb.map, Channel.encode_level, ok_bind]
  rfl

/-- Three numbers of any kind are encoded as a canonical color. -/
theorem Rgb.toHex_spec (levels : Rgb Number) :
    Yields levels.toHex IsCanonical := by
  obtain ⟨red, hred⟩ := Channel.encode_spec levels.red
  obtain ⟨green, hgreen⟩ := Channel.encode_spec levels.green
  obtain ⟨blue, hblue⟩ := Channel.encode_spec levels.blue
  refine ⟨Rgb.literal ⟨red, green, blue⟩, ?_, ⟨_, rfl⟩⟩
  simp [Rgb.toHex, hred, hgreen, hblue, Rgb.literal, Rgb.map]

end CssColor
