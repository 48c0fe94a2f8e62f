import CssColor.Number.Significant
import CssColor.Proofs.Number.Reading
import Mathlib.Data.Nat.Cast.Order.Field

/-!
# Text with significant digits

A positive quotient is written with the leading digits of its decimal expansion, the last of which
is rounded. Between `10 ^ -4` and one the text is positional: digits, a point and digits again. The
decimal that it writes is within half a unit of its last place, and reading it rounds that decimal.

## Main definitions

* `Significant.Leading`: an integer holds the leading digits of a number.
* `Decimal.Writes`: a positional text writes a decimal.

## Main results

* `Significant.leadingPower_spec`: the power of ten of the leading digit.
* `Significant.digits_spec`: the leading digits are within half a unit of the last place.
* `Significant.ratioText_writes`, `write_writes`: the text writes the decimal of these digits.
* `Decimal.Writes.read`: reading the text rounds the decimal that it writes.
-/

namespace CssColor

open Text Numeral

/-! ## Leading digits -/

/-- A quotient that is rounded to an integer moves by at most one half. -/
theorem abs_nearestQuotient_sub_le (n : Nat) {d : Nat} (hd : 0 < d) :
    |(nearestQuotient n d : ℚ) - n / d| ≤ 1 / 2 := by
  have hpos : (0 : ℚ) < d := by exact_mod_cast hd
  have hhigh : (2 : ℚ) * (d * nearestQuotient n d) ≤ 2 * n + d := by
    exact_mod_cast two_mul_nearestQuotient_le n d
  have hlow : (2 : ℚ) * n ≤ 2 * (d * nearestQuotient n d) + d := by
    exact_mod_cast two_mul_le_nearestQuotient n hd
  have hmul : (n : ℚ) / d * d = n := div_mul_cancel₀ _ hpos.ne'
  rw [abs_le]
  constructor <;> nlinarith

namespace Significant

theorem lt_pow_digitCount (n : Nat) : n < 10 ^ digitCount n := by
  rw [digitCount]
  split_ifs with h
  · omega
  · exact Decimal.lt_pow_length_toDigits n

/-- The power of ten that the digits of a number count is at most ten times the number. -/
theorem pow_digitCount_le {n : Nat} (hn : 0 < n) : 10 ^ digitCount n ≤ 10 * n := by
  rw [digitCount, if_neg hn.ne']
  exact Decimal.pow_length_toDigits_le hn

/-- The quotient lies between two powers of ten. -/
theorem leadingPower_spec {n d : Nat} (hn : 0 < n) (hd : 0 < d) :
    (10 : ℚ) ^ leadingPower n d ≤ n / d ∧ (n / d : ℚ) < 10 ^ (leadingPower n d + 1) := by
  have hpos : (0 : ℚ) < d := by exact_mod_cast hd
  have hten : (10 : ℚ) ≠ 0 := by norm_num
  rw [leadingPower]
  split_ifs with hle
  · have hwhole : 0 < n / d := Nat.div_pos hle hd
    have hlow : (10 : ℚ) ^ digitCount (n / d) ≤ 10 * (n / d : ℕ) := by
      exact_mod_cast pow_digitCount_le hwhole
    have hhigh : ((n / d : ℕ) : ℚ) + 1 ≤ 10 ^ digitCount (n / d) := by
      exact_mod_cast lt_pow_digitCount (n / d)
    -- the whole part has as many digits as the quotient has before the point
    have hfloor : (n : ℚ) < d * ((n / d : ℕ) + 1) := by exact_mod_cast Nat.lt_mul_div_succ n hd
    constructor
    · rw [zpow_sub_one₀ hten, zpow_natCast]
      refine le_trans ?_ Nat.cast_div_le
      linarith
    · rw [sub_add_cancel, zpow_natCast, div_lt_iff₀ hpos]
      nlinarith
  · -- below one the inverse quotient is taken, rounded down from just below it
    have hlt : n ≤ d - 1 := by omega
    have hwhole : 0 < (d - 1) / n := Nat.div_pos hlt hn
    have hlow : d ≤ n * 10 ^ digitCount ((d - 1) / n) := by
      have hfloor := Nat.lt_mul_div_succ (d - 1) hn
      have hcount := Nat.mul_le_mul_left n (lt_pow_digitCount ((d - 1) / n))
      rw [Nat.succ_eq_add_one] at hcount
      omega
    have hhigh : n * 10 ^ digitCount ((d - 1) / n) < 10 * d := by
      have hcount := Nat.mul_le_mul_left n (pow_digitCount_le hwhole)
      have hfloor := Nat.mul_div_le (d - 1) n
      rw [Nat.mul_left_comm] at hcount
      omega
    have hlow' : (d : ℚ) ≤ n * 10 ^ digitCount ((d - 1) / n) := by exact_mod_cast hlow
    have hhigh' : (n : ℚ) * 10 ^ digitCount ((d - 1) / n) < 10 * d := by exact_mod_cast hhigh
    have hpow : (0 : ℚ) < 10 ^ digitCount ((d - 1) / n) := by positivity
    constructor
    · rwa [zpow_neg, zpow_natCast, inv_le_iff_one_le_mul₀ hpow, div_mul_eq_mul_div,
        le_div_iff₀ hpos, one_mul]
    · rwa [zpow_add_one₀ hten, zpow_neg, zpow_natCast, ← div_eq_inv_mul, div_lt_div_iff₀ hpos hpow]

/-- The scaled quotient is rounded to the nearest integer. -/
theorem abs_scaled_sub_le (n : Nat) {d : Nat} (hd : 0 < d) (power : Int) :
    |(scaled n d power : ℚ) - n / d / 10 ^ power| ≤ 1 / 2 := by
  rw [scaled]
  split_ifs with hpower
  · obtain ⟨k, rfl⟩ := Int.eq_ofNat_of_zero_le hpower
    have hten : 0 < 10 ^ k := Nat.pow_pos (by norm_num)
    have h := abs_nearestQuotient_sub_le n (Nat.mul_pos hd hten)
    simpa [div_div] using h
  · obtain ⟨k, hk⟩ := Int.eq_ofNat_of_zero_le (a := -power) (by omega)
    obtain rfl : power = -(k : Int) := by omega
    have h := abs_nearestQuotient_sub_le (n * 10 ^ k) hd
    simpa [div_mul_eq_mul_div] using h

/-- An integer of `count` digits holds the leading digits of a number, the first of which stands for
the given power of ten. -/
structure Leading (count : Nat) (q : ℚ) (value : Nat) (power : Int) : Prop where
  /-- The first digit is not zero. -/
  low : 10 ^ (count - 1) ≤ value
  /-- There are no more digits. -/
  high : value < 10 ^ count
  /-- The last digit is rounded. -/
  near : |(value : ℚ) * 10 ^ (power - (count - 1)) - q| ≤ 10 ^ (power - (count - 1)) / 2

theorem digits_eq (count n d : Nat) : digits count n d =
    if scaled n d (leadingPower n d - (count - 1)) = 10 ^ count then
      (10 ^ (count - 1), leadingPower n d + 1)
    else (scaled n d (leadingPower n d - (count - 1)), leadingPower n d) := rfl

/-- The digits of a quotient are its leading digits. -/
theorem digits_spec {count n d : Nat} (hcount : 0 < count) (hn : 0 < n) (hd : 0 < d) :
    Leading count (n / d) (digits count n d).1 (digits count n d).2 ∧
      leadingPower n d ≤ (digits count n d).2 ∧ (digits count n d).2 ≤ leadingPower n d + 1 := by
  obtain ⟨k, rfl⟩ : ∃ k, count = k + 1 := Nat.exists_eq_succ_of_ne_zero hcount.ne'
  obtain ⟨hlow, hhigh⟩ := leadingPower_spec hn hd
  have hten : (10 : ℚ) ≠ 0 := by norm_num
  have hscale : ((k + 1 : ℕ) : Int) - 1 = k := by omega
  rw [digits_eq, hscale]
  set power := leadingPower n d
  set value := scaled n d (power - k)
  have hunit : (0 : ℚ) < 10 ^ (power - k) := zpow_pos (by norm_num) _
  have hnear : |(value : ℚ) - n / d / 10 ^ (power - k)| ≤ 1 / 2 := abs_scaled_sub_le n hd _
  -- the scaled quotient lies between two powers of ten, and so does the integer next to it
  have hlow' : (10 : ℚ) ^ k ≤ n / d / 10 ^ (power - k) := by
    rw [le_div_iff₀ hunit, ← zpow_natCast, ← zpow_add₀ hten, add_sub_cancel]
    exact hlow
  have hhigh' : (n : ℚ) / d / 10 ^ (power - k) < 10 ^ (k + 1) := by
    have hpower : ((k + 1 : ℕ) : Int) + (power - k) = power + 1 := by omega
    rw [div_lt_iff₀ hunit, ← zpow_natCast, ← zpow_add₀ hten, hpower]
    exact hhigh
  obtain ⟨hbelow, habove⟩ := abs_le.mp hnear
  have hvalueLow : 10 ^ k ≤ value := by
    have h : (10 ^ k : ℚ) < value + 1 := by linarith
    exact Nat.lt_succ_iff.mp (by exact_mod_cast h)
  have hvalueHigh : value ≤ 10 ^ (k + 1) := by
    have h : (value : ℚ) < 10 ^ (k + 1) + 1 := by linarith
    exact Nat.lt_succ_iff.mp (by exact_mod_cast h)
  have hrescaled : |(value : ℚ) * 10 ^ (power - k) - n / d| ≤ 10 ^ (power - k) / 2 := by
    have hfactor : (value : ℚ) * 10 ^ (power - k) - n / d =
        (value - n / d / 10 ^ (power - k)) * 10 ^ (power - k) := by
      rw [sub_mul, div_mul_cancel₀ _ hunit.ne']
    rw [hfactor, abs_mul, abs_of_pos hunit]
    linarith [mul_le_mul_of_nonneg_right hnear hunit.le]
  split_ifs with hcarry
  · refine ⟨⟨le_rfl, Nat.pow_lt_pow_right (by norm_num) (by omega), ?_⟩, by omega, le_rfl⟩
    -- one followed by zeros in the next place is the same decimal
    have hsame : ((10 ^ (k + 1 - 1) : ℕ) : ℚ) * 10 ^ (power + 1 - k) =
        value * 10 ^ (power - k) := by
      rw [hcarry, Nat.add_sub_cancel, add_sub_right_comm, zpow_add_one₀ hten]
      push_cast
      ring
    rw [hscale, hsame]
    refine hrescaled.trans ?_
    have hle : (10 : ℚ) ^ (power - k) ≤ 10 ^ (power + 1 - k) :=
      zpow_le_zpow_right₀ (by norm_num) (by omega)
    linarith
  · exact ⟨⟨hvalueLow, lt_of_le_of_ne hvalueHigh hcarry, hscale ▸ hrescaled⟩, le_rfl, by omega⟩

end Significant

/-! ## Positional text -/

namespace Numeral

/-- Zeros at the end multiply by powers of ten. -/
theorem ofDigitText_append_zeros (text : List Char) (k : Nat) :
    ofDigitText 10 (text ++ List.replicate k '0') = ofDigitText 10 text * 10 ^ k := by
  have hzero : (hexDigit? '0').getD 0 = 0 := by decide
  induction k with
  | zero => simp
  | succ k ih =>
    rw [List.replicate_succ', ← List.append_assoc, ofDigitText_concat, ih, hzero, Nat.pow_succ]
    ring

/-- Zeros in front do not count. -/
theorem ofDigitText_zeros_append (text : List Char) (k : Nat) :
    ofDigitText 10 (List.replicate k '0' ++ text) = ofDigitText 10 text := by
  have hzero : (hexDigit? '0').getD 0 = 0 := by decide
  induction k with
  | zero => simp
  | succ k ih =>
    rw [← ih, List.replicate_succ, List.cons_append]
    simp [ofDigitText, ofDigits, hzero]

end Numeral

namespace Decimal

/-- A positional text, digits with or without a point among them, writes a decimal. -/
inductive Writes : List Char → ℚ → Prop
  /-- Digits alone write an integer. -/
  | digits {text : List Char} (hne : text ≠ []) (h : ∀ c ∈ text, c.isDigit = true) :
      Writes text (ofDigitText 10 text)
  /-- The digits behind a point are decimal places. -/
  | point {whole fraction : List Char} (hwhole : ∀ c ∈ whole, c.isDigit = true)
      (hne : fraction ≠ []) (hfraction : ∀ c ∈ fraction, c.isDigit = true) :
      Writes (whole ++ '.' :: fraction) (ofDigitText 10 (whole ++ fraction) / 10 ^ fraction.length)

/-- Reading a positional text rounds the decimal that it writes. -/
theorem Writes.read {text : List Char} {q : ℚ} (h : Writes text q) (hlow : q = 0 ∨ 1 / 2 ^ 100 ≤ q)
    (hhigh : q ≤ 2 ^ 100) :
    Yields (Decimal.read text) fun f => f.toRat? = some (Binary64.roundRat q) := by
  cases h with
  | digits hne h =>
    have hvalue := toRat?_nearest (n := ofDigitText 10 text) (k := 0)
      (hlow.imp (fun h => by exact_mod_cast h) (by simp)) (by simpa using hhigh)
    exact ⟨_, read_digits hne h, by simpa using hvalue⟩
  | point hwhole hne hfraction =>
    have hvalue := toRat?_nearest (hlow.imp_left fun h => by simpa using h) hhigh
    exact ⟨_, read_fraction hwhole hne hfraction, hvalue⟩

end Decimal

namespace Significant

open Decimal

/-- Only zeros are dropped at the end of a text. -/
theorem exists_eq_dropZeros_append (text : List Char) :
    ∃ k, text = dropZeros text ++ List.replicate k '0' := by
  refine ⟨(text.reverse.takeWhile (· == '0')).length, ?_⟩
  have hzeros : text.reverse.takeWhile (· == '0') =
      List.replicate (text.reverse.takeWhile (· == '0')).length '0' :=
    List.eq_replicate_of_mem fun c hc => by simpa using List.mem_takeWhile_imp hc
  have hsplit := congrArg List.reverse
    (List.takeWhile_append_dropWhile (p := (· == '0')) (l := text.reverse))
  rw [List.reverse_append, List.reverse_reverse, hzeros, List.reverse_replicate] at hsplit
  exact hsplit.symm

/-- Zeros at the end may be left out, and the point with them. -/
theorem pointed_writes {whole fraction : List Char} (hne : whole ≠ [])
    (hwhole : ∀ c ∈ whole, c.isDigit = true) (hfraction : ∀ c ∈ fraction, c.isDigit = true) :
    Writes (pointed whole fraction)
      (ofDigitText 10 (whole ++ fraction) / 10 ^ fraction.length) := by
  obtain ⟨k, hk⟩ := exists_eq_dropZeros_append fraction
  have hten : (10 : ℚ) ^ k ≠ 0 := by positivity
  -- zeros at the end of a fraction count in the digits and in the power alike
  have hvalue : (ofDigitText 10 (whole ++ fraction) : ℚ) / 10 ^ fraction.length =
      ofDigitText 10 (whole ++ dropZeros fraction) / 10 ^ (dropZeros fraction).length := by
    conv_lhs => rw [hk, ← List.append_assoc, ofDigitText_append_zeros, List.length_append,
      List.length_replicate, pow_add, Nat.cast_mul, Nat.cast_pow, Nat.cast_ofNat,
      mul_div_mul_right _ _ hten]
  have hdigits : ∀ c ∈ dropZeros fraction, c.isDigit = true := fun c hc =>
    hfraction c (by rw [hk]; exact List.mem_append_left _ hc)
  rw [hvalue, pointed]
  split
  · next hempty =>
    rw [hempty]
    simpa using Writes.digits hne hwhole
  · next rest hrest => exact Writes.point hwhole hrest hdigits

/-- Leading digits are as many as were asked for. -/
theorem Leading.length_toDigits {count : Nat} {q : ℚ} {value : Nat} {power : Int}
    (h : Leading count q value power) (hcount : 0 < count) :
    (Nat.toDigits 10 value).length = count := by
  have hle : (Nat.toDigits 10 value).length ≤ count :=
    (Nat.length_toDigits_le_iff (by norm_num) hcount).mpr h.high
  have hlt : 10 ^ (count - 1) < 10 ^ (Nat.toDigits 10 value).length :=
    h.low.trans_lt (lt_pow_length_toDigits value)
  have := (Nat.pow_lt_pow_iff_right (by norm_num)).mp hlt
  omega

theorem div_pow_eq_mul_zpow (q : ℚ) {k : Nat} {power : Int} (h : power = -k) :
    q / 10 ^ k = q * 10 ^ power := by
  rw [h, zpow_neg, zpow_natCast, div_eq_mul_inv]

/-- The positional text of a quotient writes the decimal of its leading digits. -/
theorem ratioText_writes {count n d : Nat} (hcount : 0 < count) (hn : 0 < n) (hd : 0 < d)
    (hlow : -4 ≤ leadingPower n d) (hhigh : leadingPower n d + 1 < count) :
    ∃ p, Writes (ratioText count n d) p ∧
      |p - n / d| ≤ 10 ^ (leadingPower n d + 2 - count) / 2 := by
  obtain ⟨hleading, hpower, hpower'⟩ := digits_spec hcount hn hd
  rw [ratioText]
  set value := (digits count n d).1
  set power := (digits count n d).2
  have hlength := hleading.length_toDigits hcount
  have hdigits : ∀ c ∈ Nat.toDigits 10 value, c.isDigit = true := fun c hc =>
    Nat.isDigit_of_mem_toDigits (by norm_num) (by norm_num) hc
  have hzeros : ∀ {k : Nat}, ∀ c ∈ List.replicate k '0', c.isDigit = true := by
    intro k c hc
    rw [List.eq_of_mem_replicate hc]
    decide
  -- a carry may move the first digit one place up, and the last one with it
  refine ⟨value * 10 ^ (power - (count - 1)), ?_, hleading.near.trans ?_⟩
  · dsimp only
    rw [if_neg (by omega)]
    split_ifs with hnegative
    · -- the zeros between the point and the first digit come with one before the point
      set k := (-power - 1).toNat
      have hvalue : ofDigitText 10 (['0'] ++ (List.replicate k '0' ++ Nat.toDigits 10 value)) =
          value := by
        rw [← List.append_assoc, List.singleton_append, ← List.replicate_succ,
          ofDigitText_zeros_append, ofDigitText_toDigits]
      have hwrites := pointed_writes (List.cons_ne_nil '0' []) (hzeros (k := 1))
        (List.forall_mem_append.mpr ⟨hzeros (k := k), hdigits⟩)
      have hexponent : power - (count - 1) = -((k + count : Nat) : Int) := by omega
      rwa [hvalue, List.length_append, List.length_replicate, hlength,
        div_pow_eq_mul_zpow _ hexponent] at hwrites
    · -- the point falls among the digits
      have hne : (Nat.toDigits 10 value).take (power.toNat + 1) ≠ [] := by
        rw [← List.length_pos_iff, List.length_take]
        omega
      have hwrites := pointed_writes hne (fun c hc => hdigits c (List.mem_of_mem_take hc))
        (fun c hc => hdigits c (List.mem_of_mem_drop (i := power.toNat + 1) hc))
      have hexponent : power - (count - 1) = -((count - (power.toNat + 1) : Nat) : Int) := by omega
      rwa [List.take_append_drop, ofDigitText_toDigits, List.length_drop, hlength,
        div_pow_eq_mul_zpow _ hexponent] at hwrites
  · have hunit : (10 : ℚ) ^ (power - (count - 1)) ≤ 10 ^ (leadingPower n d + 2 - count) :=
      zpow_le_zpow_right₀ (by norm_num) (by omega)
    linarith

/-- A number from `10 ^ -4` to below ten is written within half a unit of its last place. -/
theorem write_writes {count : Nat} (hcount : 1 < count) {f : Binary64} {q : ℚ}
    (hf : f.toRat? = some q) (hlow : (10 : ℚ) ^ (-4 : Int) ≤ q) (hhigh : q < 10 ^ (1 : Int)) :
    ∃ text p, write count f = String.ofList text ∧ Writes text p ∧
      |p - q| ≤ 10 ^ (2 - count : Int) / 2 := by
  have hpositive : 0 < q := lt_of_lt_of_le (zpow_pos (by norm_num) _) hlow
  obtain ⟨negative, rank, rfl, rfl⟩ := Binary64.exists_of_toRat? hf
  rw [Binary64.signedGrains_div] at hpositive hlow hhigh ⊢
  -- a positive value has a positive sign and a rank that is not zero
  have hsign : negative = false := by
    cases negative with
    | false => rfl
    | true =>
      have := Binary64.rankValue_nonneg rank
      simp only [if_true] at hpositive
      linarith
  subst hsign
  simp only [Bool.false_eq_true, if_false, Binary64.rankValue] at hpositive hlow hhigh ⊢
  have hgrains : 0 < Binary64.grainsOfRank rank := by
    rcases Nat.eq_zero_or_pos (Binary64.grainsOfRank rank) with hzero | hpos
    · simp [hzero] at hpositive
    · exact hpos
  have hrank : rank.val ≠ 0 := by
    intro hzero
    rw [hzero, Binary64.grainsOfRank_of_lt (by positivity)] at hgrains
    exact lt_irrefl _ hgrains
  obtain ⟨hfrom, hto⟩ := leadingPower_spec hgrains Binary64.grainsPerOne_pos
  -- so the leading digit stands close to the point, and the text needs no exponent
  have hfrom' : -4 < leadingPower (Binary64.grainsOfRank rank) Binary64.grainsPerOne + 1 :=
    (zpow_lt_zpow_iff_right₀ (by norm_num)).mp (hlow.trans_lt hto)
  have hto' : leadingPower (Binary64.grainsOfRank rank) Binary64.grainsPerOne < 1 :=
    (zpow_lt_zpow_iff_right₀ (by norm_num)).mp (hfrom.trans_lt hhigh)
  obtain ⟨p, hwrites, hnear⟩ := ratioText_writes (show 0 < count by omega) hgrains
    Binary64.grainsPerOne_pos (by omega) (by omega)
  refine ⟨_, p, ?_, hwrites, hnear.trans ?_⟩
  · simp [write, hrank]
  · have hunit : (10 : ℚ) ^ (leadingPower (Binary64.grainsOfRank rank) Binary64.grainsPerOne + 2 -
        count) ≤ 10 ^ (2 - count : Int) := zpow_le_zpow_right₀ (by norm_num) (by omega)
    linarith

end Significant

end CssColor
