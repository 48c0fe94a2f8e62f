import CssColor.Proofs.Number.Midpoint
import CssColor.Proofs.Number.Reading

/-!
# Overflow

A magnitude becomes infinite when it rounds beyond the largest finite number. The least such
magnitude is halfway between the largest finite number and the next power of two: that tie goes to
the power of two, which is even.

## Main results

* `Binary64.le_nearestRank_iff`: when a magnitude rounds into the next binade.
* `Binary64.ofRatio_eq_infinite_iff`: when a quotient overflows.
* `Decimal.nearest_eq_infinite_iff`: when a decimal overflows.
-/

namespace CssColor

namespace Binary64

/-- A magnitude rounds into the next binade from the midpoint below that binade on. -/
theorem le_nearestRank_iff {d : Nat} (n : Nat) (hd : 0 < d) (shift : Nat) :
    (shift + 2) * 2 ^ 52 ≤ nearestRank n d ↔ (2 ^ 54 - 1) * (d * 2 ^ shift) ≤ 2 * n := by
  obtain ⟨rank, hrank, hgrains, hnext⟩ := exists_last_rank shift
  have hmid : ((2 ^ 53 - 1) * 2 ^ shift + 2 ^ 53 * 2 ^ shift) * d =
      (2 ^ 54 - 1) * (d * 2 ^ shift) := by
    rw [← Nat.add_mul, show 2 ^ 53 - 1 + 2 ^ 53 = 2 ^ 54 - 1 by norm_num]
    ring
  have hround := lt_nearestRank_iff n rank hd
  -- the last rank of a binade is odd, so that the midpoint itself rounds upward
  have hodd : rank % 2 = 1 := by omega
  rw [hgrains, hnext, hmid, and_iff_left hodd, ← le_iff_lt_or_eq] at hround
  rw [← hround, ← hrank, Nat.succ_le_iff]

/-- The least magnitude that is infinite, halfway from the largest finite number to
`2 ^ 1024`. -/
@[irreducible] def overflowBound : ℚ := (2 ^ 54 - 1) * 2 ^ 970

/-- The bound in terms of its exponent, which is kept a variable so that the power is not
evaluated. -/
theorem overflowBound_eq {k : Nat} (h : k = 970) : overflowBound = (2 ^ 54 - 1) * 2 ^ k := by
  rw [overflowBound, h]

theorem one_le_overflowBound : 1 ≤ overflowBound := by
  obtain ⟨k, hk⟩ : ∃ k, k = 970 := ⟨970, rfl⟩
  rw [overflowBound_eq hk]
  exact one_le_mul_of_one_le_of_one_le (by norm_num) (one_le_pow₀ one_le_two)

/-- Overflow in terms of the magnitude itself. -/
theorem le_nearestRank_iff_overflowBound_le {d : Nat} (n : Nat) (hd : 0 < d) :
    2047 * 2 ^ 52 ≤ nearestRank n d ↔ overflowBound ≤ n / (d * grainsPerOne) := by
  obtain ⟨k, hk⟩ : ∃ k, k = 970 := ⟨970, rfl⟩
  obtain ⟨m, hm⟩ : ∃ m, m = 1074 := ⟨1074, rfl⟩
  have hpos : (0 : ℚ) < d * grainsPerOne := by
    exact_mod_cast Nat.mul_pos hd grainsPerOne_pos
  have hrank := le_nearestRank_iff n hd (k + 1 + m)
  rw [show k + 1 + m + 2 = 2047 by omega, two_pow_add_eq hm,
    Nat.pow_succ 2 k] at hrank
  rw [hrank, overflowBound_eq hk, le_div_iff₀ hpos]
  have hcast : ((2 ^ 54 - 1) * (d * (2 ^ k * 2 * grainsPerOne)) ≤ 2 * n) ↔
      ((2 ^ 54 - 1) * (d * (2 ^ k * 2 * grainsPerOne)) : ℚ) ≤ 2 * n := by
    rw [← Nat.cast_le (α := ℚ)]
    push_cast
    norm_num
  rw [hcast]
  constructor <;> intro h <;> linarith

/-- A magnitude has the rank of a finite number exactly when it is below the bound. -/
theorem nearestRank_lt_iff {d : Nat} (n : Nat) (hd : 0 < d) :
    nearestRank n d < 2047 * 2 ^ 52 ↔ (n : ℚ) / (d * grainsPerOne) < overflowBound := by
  rw [← not_le, le_nearestRank_iff_overflowBound_le n hd, not_le]

/-- A sum below the overflow bound is rounded. -/
theorem toRat?_add_of_lt {x y : Binary64} {a b : ℚ} (hx : x.toRat? = some a)
    (hy : y.toRat? = some b) (h : |a + b| < overflowBound) :
    (x.add y).toRat? = some (roundRat (a + b)) := by
  obtain ⟨zeroNegative, grains, hadd, hsum⟩ := exists_grains_of_add hx hy
  rw [hadd, hsum]
  refine toRat?_ofGrains_of_lt _ _ ((nearestRank_lt_iff _ Nat.one_pos).mpr ?_)
  rwa [natAbs_div_grainsPerOne, ← hsum]

/-- A quotient is infinite from the overflow bound on, with the sign that is asked for. -/
theorem ofRatio_eq_infinite_iff {d : Nat} (negative sign : Bool) (n : Nat) (hd : 0 < d) :
    ofRatio negative n d = .infinite sign ↔ negative = sign ∧ overflowBound ≤ n / d := by
  have hgrains : (grainsPerOne : ℚ) ≠ 0 := by exact_mod_cast grainsPerOne_pos.ne'
  have hrank := le_nearestRank_iff_overflowBound_le (n * grainsPerOne) hd
  rw [Nat.cast_mul, mul_div_mul_right _ _ hgrains] at hrank
  rw [ofRatio, ofGrainRatio, ← hrank]
  split
  · next hlt => simp [not_le.mpr hlt]
  · next hge => simp [not_lt.mp hge]

/-- A quotient is never rounded to a NaN. -/
theorem ofRatio_ne_nan (negative : Bool) (n d : Nat) : ofRatio negative n d ≠ .nan := by
  rw [ofRatio, ofGrainRatio]
  split <;> simp

end Binary64

namespace Decimal

open Binary64

theorem nearest_ne_nan (negative : Bool) (n : Nat) (exponent : Int) :
    nearest negative n exponent ≠ .nan := by
  rw [nearest]
  split_ifs
  · simp [zero]
  · simp
  · exact ofRatio_ne_nan _ _ _
  · exact ofRatio_ne_nan _ _ _

/-- The bound has fewer than 311 digits. -/
theorem overflowBound_le_ten_pow : overflowBound ≤ 10 ^ 310 := by
  obtain ⟨k, hk⟩ : ∃ k, k = 970 := ⟨970, rfl⟩
  have hpow : 2 ^ (54 + k) ≤ 10 ^ 310 := by
    rw [hk]
    decide +kernel
  calc overflowBound = (2 ^ 54 - 1) * 2 ^ k := overflowBound_eq hk
    _ ≤ 2 ^ 54 * 2 ^ k := by gcongr; norm_num
    _ = 2 ^ (54 + k) := (pow_add _ _ _).symm
    _ ≤ 10 ^ 310 := by exact_mod_cast hpow

/-- A decimal lies between two powers of ten that its number of digits gives. -/
theorem scale_spec {n : Nat} (hn : 0 < n) (exponent : Int) :
    (10 : ℚ) ^ ((Nat.toDigits 10 n).length + exponent - 1) ≤ n * 10 ^ exponent ∧
      (n : ℚ) * 10 ^ exponent < 10 ^ ((Nat.toDigits 10 n).length + exponent) := by
  have hten : (10 : ℚ) ≠ 0 := by norm_num
  have hpos : (0 : ℚ) < 10 ^ exponent := zpow_pos (by norm_num) _
  have hlow : (10 : ℚ) ^ (Nat.toDigits 10 n).length ≤ 10 * n := by
    exact_mod_cast pow_length_toDigits_le hn
  have hhigh : (n : ℚ) < 10 ^ (Nat.toDigits 10 n).length := by
    exact_mod_cast lt_pow_length_toDigits n
  constructor
  · rw [zpow_sub_one₀ hten, zpow_add₀ hten, zpow_natCast, ← div_eq_mul_inv,
      div_le_iff₀ (by norm_num)]
    linarith [mul_le_mul_of_nonneg_right hlow hpos.le]
  · rw [zpow_add₀ hten, zpow_natCast]
    exact mul_lt_mul_of_pos_right hhigh hpos

/-- A decimal is infinite from the overflow bound on. -/
theorem nearest_eq_infinite_iff (negative sign : Bool) (n : Nat) (exponent : Int) :
    nearest negative n exponent = .infinite sign ↔
      negative = sign ∧ overflowBound ≤ n * 10 ^ exponent := by
  have hone : (1 : ℚ) ≤ overflowBound := one_le_overflowBound
  rcases Nat.eq_zero_or_pos n with rfl | hn
  · have hfalse : ¬ overflowBound ≤ 0 := by linarith
    simp [nearest, zero, hfalse]
  obtain ⟨hlow, hhigh⟩ := scale_spec hn exponent
  rw [nearest]
  split_ifs with hsmall hlarge hexponent
  -- the number of digits decides at both ends
  · have hscale := hsmall.resolve_left hn.ne'
    have hfalse : ¬ overflowBound ≤ n * 10 ^ exponent := by
      have hle : (10 : ℚ) ^ ((Nat.toDigits 10 n).length + exponent) ≤ 1 :=
        zpow_le_one_of_nonpos₀ (by norm_num) (by omega)
      linarith
    simp [zero, hfalse]
  · have htrue : overflowBound ≤ n * 10 ^ exponent := calc
      overflowBound ≤ (10 : ℚ) ^ ((310 : ℕ) : ℤ) := by
        rw [zpow_natCast]
        exact overflowBound_le_ten_pow
      _ ≤ 10 ^ ((Nat.toDigits 10 n).length + exponent - 1) :=
        zpow_le_zpow_right₀ (by norm_num) (by omega)
      _ ≤ n * 10 ^ exponent := hlow
    simp [htrue]
  -- in between the quotient is formed
  · obtain ⟨k, rfl⟩ := Int.eq_ofNat_of_zero_le hexponent
    have hratio := ofRatio_eq_infinite_iff negative sign (n * 10 ^ k) Nat.one_pos
    simpa using hratio
  · obtain ⟨k, rfl⟩ : ∃ k : Nat, exponent = -k := ⟨(-exponent).toNat, by omega⟩
    have hratio := ofRatio_eq_infinite_iff negative sign n (show 0 < 10 ^ k by positivity)
    simpa [div_eq_mul_inv] using hratio

end Decimal

end CssColor
