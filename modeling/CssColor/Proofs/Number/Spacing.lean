import CssColor.Proofs.Number.Midpoint
import Mathlib.Algebra.Order.Field.Power

/-!
# Spacing

A finite number is a significand of at most 53 bits times a power of two, its unit. Within a binade
neighbouring numbers lie one unit apart, and the unit doubles from one binade to the next.

## Main results

* `Binary64.exists_exponent`: a value, its successor and their unit.
* `Binary64.roundRat_mul_zpow`, `exists_mul_zpow`: what is its own rounding is a significand times
  a unit.
* `Binary64.exists_intCast`: from `2 ^ 52` on, only integers are their own rounding.
-/

namespace CssColor.Binary64

/-- A magnitude in grains as a significand times a unit. -/
theorem rankValue_eq_mul_zpow {rank significand shift : Nat}
    (h : grainsOfRank rank = significand * 2 ^ shift) :
    rankValue rank = significand * 2 ^ ((shift : ℤ) - 1074) := by
  -- the exponent is a variable, so that nothing ever computes the power
  obtain ⟨n, hn⟩ : ∃ n, n = 1074 := ⟨1074, rfl⟩
  have hexponent : (shift : ℤ) - 1074 = shift - n := by omega
  rw [rankValue, h, grainsPerOne_eq hn, hexponent, zpow_sub₀ two_ne_zero, zpow_natCast,
    zpow_natCast]
  push_cast
  ring

/-- The value of a significand of 53 bits in the binade of the given shift. -/
theorem rankValue_add {significand : Nat} (hlow : 2 ^ 52 ≤ significand)
    (hhigh : significand ≤ 2 ^ 53) (shift : Nat) :
    rankValue (shift * 2 ^ 52 + significand) = significand * 2 ^ ((shift : ℤ) - 1074) :=
  rankValue_eq_mul_zpow (grainsOfRank_add hlow hhigh shift)

/-- The last value of a binade and the first one of the next. -/
theorem exists_last_value (shift : Nat) :
    ∃ rank, rank + 1 = (shift + 2) * 2 ^ 52 ∧
      rankValue rank = (2 ^ 53 - 1) * 2 ^ ((shift : ℤ) - 1074) ∧
      rankValue (rank + 1) = 2 ^ 53 * 2 ^ ((shift : ℤ) - 1074) := by
  obtain ⟨rank, hrank, hgrains, hnext⟩ := exists_last_rank shift
  refine ⟨rank, hrank, ?_, ?_⟩
  · rw [rankValue_eq_mul_zpow hgrains]
    norm_num
  · rw [rankValue_eq_mul_zpow hnext]
    norm_num

/-- Two neighbouring values lie one unit of their binade apart. -/
theorem exists_exponent (rank : Nat) :
    ∃ (significand : Nat) (exponent : ℤ), rankValue rank = significand * 2 ^ exponent ∧
      rankValue (rank + 1) = (significand + 1) * 2 ^ exponent ∧ significand < 2 ^ 53 ∧
      -1074 ≤ exponent ∧ (2 ^ 52 ≤ significand ∨ exponent = -1074) ∧
      rank % 2 = significand % 2 := by
  obtain ⟨significand, shift, hrank, hlt, hnormal, hgrains, hnext⟩ := exists_significand rank
  have hvalue := rankValue_eq_mul_zpow hgrains
  have hvalue' := rankValue_eq_mul_zpow hnext
  rw [Nat.cast_add_one] at hvalue'
  exact ⟨significand, shift - 1074, hvalue, hvalue', hlt, by omega, by omega, by omega⟩

/-- A significand below `2 ^ p` needs a unit above `2 ^ j` to reach `2 ^ (p + j)`. -/
theorem lt_exponent {significand : ℚ} {e p j : ℤ} (hlt : significand < 2 ^ p)
    (h : 2 ^ (p + j) ≤ significand * 2 ^ e) : j < e := by
  have hpos : (0 : ℚ) < 2 ^ e := by positivity
  have hpow : (2 : ℚ) ^ (p + j) < 2 ^ (p + e) := calc
    (2 : ℚ) ^ (p + j) ≤ significand * 2 ^ e := h
    _ < 2 ^ p * 2 ^ e := mul_lt_mul_of_pos_right hlt hpos
    _ = 2 ^ (p + e) := (zpow_add₀ two_ne_zero p e).symm
  have hadd : p + j < p + e := (zpow_lt_zpow_iff_right₀ one_lt_two).mp hpow
  omega

/-- A significand of at most 53 bits is exact in every binade. -/
theorem roundRat_mul_zpow {z : ℤ} (hz : |z| < 2 ^ 53) {e : ℤ} (he : -1074 ≤ e) :
    roundRat (z * 2 ^ e) = z * 2 ^ e := by
  have hnat {m : Nat} (hm : m < 2 ^ 53) : roundRat ((m : ℚ) * 2 ^ e) = m * 2 ^ e := by
    obtain ⟨shift, hshift⟩ : ∃ shift : ℕ, (shift : ℤ) - 1074 = e := ⟨(e + 1074).toNat, by omega⟩
    obtain ⟨rank, hrank⟩ := exists_grainsOfRank hm shift
    rw [← hshift, ← rankValue_eq_mul_zpow hrank, roundRat_rankValue]
  obtain ⟨m, rfl | rfl⟩ := z.eq_nat_or_neg
  · rw [Nat.abs_cast] at hz
    simpa using hnat (by exact_mod_cast hz)
  · rw [abs_neg, Nat.abs_cast] at hz
    push_cast
    rw [neg_mul, roundRat_neg, hnat (by exact_mod_cast hz)]

/-- What is its own rounding has a significand of at most 53 bits, and one of exactly 53 bits above
the lowest binade. -/
theorem exists_mul_zpow {v : ℚ} (hv : roundRat v = v) :
    ∃ z e : ℤ, v = z * 2 ^ e ∧ |z| < 2 ^ 53 ∧ -1074 ≤ e ∧ (2 ^ 52 ≤ |z| ∨ e = -1074) := by
  obtain ⟨rank, hrank⟩ := exists_rankValue (abs_nonneg v)
  obtain ⟨m, e, hvalue, -, hlt, he, hnormal, -⟩ := exists_exponent rank
  have habs : |v| = m * 2 ^ e := by rw [← hvalue, ← hrank, ← abs_roundRat, hv]
  have hm : |(m : ℤ)| = m := Nat.abs_cast m
  rcases abs_choice v with hsign | hsign
  · refine ⟨m, e, ?_, by omega, he, by omega⟩
    push_cast
    rw [← habs, hsign]
  · refine ⟨-m, e, ?_, by rw [abs_neg]; omega, he, by rw [abs_neg]; omega⟩
    push_cast
    linarith

/-- From `2 ^ 52` on, only integers are their own rounding. -/
theorem exists_intCast {v : ℚ} (hv : roundRat v = v) (h : 2 ^ 52 ≤ |v|) : ∃ k : ℤ, v = k := by
  obtain ⟨z, e, rfl, hz, -, -⟩ := exists_mul_zpow hv
  have hz' : |(z : ℚ)| < 2 ^ (53 : ℤ) := by exact_mod_cast hz
  rw [abs_mul, abs_of_pos (show (0 : ℚ) < 2 ^ e by positivity)] at h
  have he : -1 < e := lt_exponent hz' (by norm_num at h ⊢; exact h)
  obtain ⟨n, rfl⟩ := Int.eq_ofNat_of_zero_le (show 0 ≤ e by omega)
  exact ⟨z * 2 ^ n, by push_cast; rw [zpow_natCast]⟩

/-- From one half to `2 ^ 52` the unit lies between `2 ^ -53` and one half. -/
theorem exponent_bounds {z e : ℤ} (hz : |z| < 2 ^ 53) (hnormal : 2 ^ 52 ≤ |z| ∨ e = -1074)
    (hlow : 1 / 2 ≤ |(z : ℚ) * 2 ^ e|) (hhigh : |(z : ℚ) * 2 ^ e| < 2 ^ 52) :
    -53 ≤ e ∧ e ≤ -1 := by
  have hpos : (0 : ℚ) < 2 ^ e := by positivity
  have hz' : |(z : ℚ)| < 2 ^ (53 : ℤ) := by exact_mod_cast hz
  rw [abs_mul, abs_of_pos hpos] at hlow hhigh
  have he : -54 < e := lt_exponent hz' (by norm_num at hlow ⊢; exact hlow)
  refine ⟨by omega, ?_⟩
  by_contra hge
  have hunit : (1 : ℚ) ≤ 2 ^ e := one_le_zpow₀ one_le_two (by omega)
  have hfull : (2 : ℚ) ^ 52 ≤ |(z : ℚ)| := by exact_mod_cast hnormal.resolve_right (by omega)
  have := mul_le_mul hfull hunit zero_le_one (abs_nonneg _)
  linarith

end CssColor.Binary64
