import CssColor.Proofs.Number.Overflow
import CssColor.Proofs.Number.Spacing

/-!
# Rounding half up

The nearest integer is found as the floor of the sum with one half. That sum is rounded to binary64
before its floor is taken, and an integer is rounded to binary64 before the sum is formed. Neither
matters unless a rounding reaches the next integer, and the values where one does are few: the last
number below one half, the odd integers between `2 ^ 52` and `2 ^ 53`, where the sum is a tie, and
the integers that are no binary64 numbers.

## Main definitions

* `Number.IsNearest`: the integer nearest to a rational, halves going up.
* `Number.Strays`: the values whose nearest integer is missed.

## Main results

* `Binary64.floor_roundRat_intCast_add_half_iff`: which integers are found again.
* `Binary64.floor_roundRat_add_half_iff`: which other values are rounded to the nearest integer.
* `Number.roundHalfUp_of_lt`, `roundHalfUp_of_le`: what rounding half up gives, for every finite
  number.
* `Number.roundHalfUp_isNearest_iff`: when that is the nearest integer.
-/

namespace CssColor.Binary64

/-! ## The sum of an integer and one half -/

/-- From `2 ^ 52` to `2 ^ 53`, one half above an integer is a tie. -/
theorem roundRat_natCast_add_half {m : Nat} (hlow : 2 ^ 52 ≤ m) (hhigh : m < 2 ^ 53) :
    roundRat (m + 1 / 2) = (m + m % 2 : ℕ) := by
  have hvalue {k : Nat} (hk : 2 ^ 52 ≤ k) (hk' : k ≤ 2 ^ 53) :
      rankValue (1074 * 2 ^ 52 + k) = k := by
    simpa using rankValue_add hk hk' 1074
  have hparity : 1074 * 2 ^ 52 + m + (1074 * 2 ^ 52 + m) % 2 = 1074 * 2 ^ 52 + (m + m % 2) := by
    omega
  have hmid : rankValue (1074 * 2 ^ 52 + m) + rankValue (1074 * 2 ^ 52 + m + 1) =
      2 * ((m : ℚ) + 1 / 2) := by
    rw [Nat.add_assoc (1074 * 2 ^ 52), hvalue hlow hhigh.le, hvalue (by omega) (by omega)]
    push_cast
    ring
  rw [roundRat_midpoint hmid, hparity, hvalue (by omega) (by omega)]

/-- From `2 ^ 53` on, values lie so far apart that one half more is lost. -/
theorem roundRat_rankValue_add_half {rank : Nat} (h : 2 ^ 53 ≤ rankValue rank) :
    roundRat (rankValue rank + 1 / 2) = rankValue rank := by
  obtain ⟨m, e, hvalue, hnext, hm, -, -, -⟩ := exists_exponent rank
  have hm' : (m : ℚ) < 2 ^ (53 : ℤ) := by exact_mod_cast hm
  have he : 0 < e := lt_exponent hm' (by rw [← hvalue]; exact_mod_cast h)
  have hunit : (2 : ℚ) ^ (1 : ℤ) ≤ 2 ^ e := zpow_le_zpow_right₀ one_le_two he
  rw [zpow_one] at hunit
  have hdown : ¬ rankValue rank < roundRat (rankValue rank + 1 / 2) := by
    rw [rankValue_lt_roundRat_iff rank (by linarith)]
    rintro (hlt | ⟨heq, -⟩) <;> linarith
  apply le_antisymm
  · exact not_lt.mp hdown
  · exact (roundRat_rankValue rank).symm.trans_le (roundRat_mono (by linarith))

/-- One half less is lost as well. At `2 ^ 53` itself it makes a tie, which goes back up. -/
theorem roundRat_rankValue_sub_half {below : Nat} (h : 2 ^ 53 ≤ rankValue (below + 1)) :
    roundRat (rankValue (below + 1) - 1 / 2) = rankValue (below + 1) := by
  obtain ⟨m, e, hvalue, hnext, hm, -, -, hparity⟩ := exists_exponent below
  have hm' : (m : ℚ) + 1 < 2 ^ (54 : ℤ) := by
    exact_mod_cast (show m + 1 < 2 ^ 54 by omega)
  have he : -1 < e := lt_exponent hm' (by rw [← hnext]; exact_mod_cast h)
  have hnonneg : 0 ≤ rankValue (below + 1) - 1 / 2 := by linarith
  have hup : rankValue below < roundRat (rankValue (below + 1) - 1 / 2) := by
    rw [rankValue_lt_roundRat_iff below hnonneg]
    rcases eq_or_ne e 0 with rfl | hne
    -- a unit of one is too small for any significand but the last, which is odd
    · rw [zpow_zero, mul_one] at hvalue hnext
      have hlast : 2 ^ 53 ≤ m + 1 := by
        rw [hnext] at h
        exact_mod_cast h
      refine .inr ⟨?_, by omega⟩
      rw [hvalue, hnext]
      ring
    · have hunit : (2 : ℚ) ^ (1 : ℤ) ≤ 2 ^ e := zpow_le_zpow_right₀ one_le_two (by omega)
      rw [zpow_one] at hunit
      left
      linarith
  apply le_antisymm
  · exact (roundRat_mono (by linarith)).trans_eq (roundRat_rankValue (below + 1))
  · exact rankValue_succ_le hnonneg hup

/-- One half is lost when it is added to a number from `2 ^ 53` on, where all numbers are even
integers. -/
theorem roundRat_add_half_of_le {v : ℚ} (hv : roundRat v = v) (h : 2 ^ 53 ≤ |v|) :
    roundRat (v + 1 / 2) = v := by
  obtain ⟨rank, hrank⟩ := exists_rankValue (abs_nonneg v)
  rw [← abs_roundRat, hv] at hrank
  rw [hrank] at h
  rcases abs_choice v with hsign | hsign
  · rw [← hsign, hrank, roundRat_rankValue_add_half h]
  · have hsum : v + 1 / 2 = -(rankValue rank - 1 / 2) := by linarith
    cases rank with
    | zero =>
      rw [rankValue_zero] at h
      norm_num at h
    | succ below =>
      rw [hsum, roundRat_neg, roundRat_rankValue_sub_half h]
      linarith

/-- Below `2 ^ 52` the sum of an integer and one half is exact. -/
theorem floor_roundRat_intCast_add_half_of_lt {k : ℤ} (hlow : -2 ^ 52 ≤ k) (hhigh : k < 2 ^ 52) :
    ⌊roundRat ((k : ℚ) + 1 / 2)⌋ = k := by
  have hz : |2 * k + 1| < 2 ^ 53 := abs_lt.mpr ⟨by omega, by omega⟩
  have hexact := roundRat_mul_zpow hz (show -1074 ≤ -1 by norm_num)
  have hsum : ((2 * k + 1 : ℤ) : ℚ) * 2 ^ (-1 : ℤ) = k + 1 / 2 := by
    push_cast
    rw [zpow_neg_one]
    ring
  rw [← hsum, hexact, hsum, Int.floor_eq_iff]
  constructor <;> linarith

/-- An integer that is its own rounding is found again unless it is odd and lies between `2 ^ 52`
and `2 ^ 53`. -/
theorem floor_roundRat_intCast_add_half_iff {k : ℤ} (hk : roundRat k = k) :
    ⌊roundRat ((k : ℚ) + 1 / 2)⌋ = k ↔ ¬ (Odd k ∧ 2 ^ 52 < |k| ∧ |k| < 2 ^ 53) := by
  rcases le_or_gt (2 ^ 53) |k| with hlarge | hsmall
  · have hlarge' : (2 : ℚ) ^ 53 ≤ |(k : ℚ)| := by exact_mod_cast hlarge
    rw [roundRat_add_half_of_le hk hlarge', Int.floor_intCast]
    exact iff_of_true rfl (by omega)
  obtain ⟨hlow, hhigh⟩ := abs_lt.mp hsmall
  rcases le_or_gt (2 ^ 52) k with hpos | hnotPos
  · obtain ⟨m, rfl⟩ := Int.eq_ofNat_of_zero_le (show 0 ≤ k by omega)
    rw [Int.cast_natCast, roundRat_natCast_add_half (by omega) (by omega), Int.floor_natCast,
      Int.odd_iff, Nat.abs_cast]
    omega
  rcases le_or_gt (-2 ^ 52) k with hnotNeg | hneg
  · have hbound : |k| ≤ 2 ^ 52 := abs_le.mpr ⟨hnotNeg, hnotPos.le⟩
    exact iff_of_true (floor_roundRat_intCast_add_half_of_lt hnotNeg hnotPos) (by omega)
  -- below zero the tie is that of the integer nearer to zero
  · obtain ⟨m, rfl⟩ : ∃ m : ℕ, k = -(m + 1) := ⟨(-k - 1).toNat, by omega⟩
    have hsum : ((-(m + 1) : ℤ) : ℚ) + 1 / 2 = -(m + 1 / 2) := by
      push_cast
      ring
    have habs : |(-(m + 1) : ℤ)| = m + 1 := by
      rw [abs_neg]
      exact abs_of_nonneg (by omega)
    rw [hsum, roundRat_neg, roundRat_natCast_add_half (by omega) (by omega), habs, Int.odd_iff,
      ← Int.cast_natCast, ← Int.cast_neg, Int.floor_intCast]
    omega

/-! ## The sum of a fraction and one half -/

/-- Above a nonzero integer and below its midpoint to the next one, the sum with one half is
exact. -/
theorem roundRat_add_half_of_mem {v : ℚ} {k : ℤ} (hv : roundRat v = v) (hk : k ≠ 0)
    (hlow : (k : ℚ) < v) (hhigh : v < k + 1 / 2) (hbound : |v| < 2 ^ 52) :
    roundRat (v + 1 / 2) = v + 1 / 2 := by
  have hhalf : 1 / 2 ≤ |v| := by
    rcases lt_or_gt_of_ne hk with hneg | hpos
    · have hk' : (k : ℚ) ≤ -1 := by exact_mod_cast (show k ≤ -1 by omega)
      exact le_abs.mpr (.inr (by linarith))
    · have hk' : (1 : ℚ) ≤ k := by exact_mod_cast hpos
      exact le_abs.mpr (.inl (by linarith))
  obtain ⟨z, e, rfl, hz, hmin, hnormal⟩ := exists_mul_zpow hv
  obtain ⟨he, he'⟩ := exponent_bounds hz hnormal hhalf hbound
  have hpos : (0 : ℚ) < 2 ^ e := by positivity
  have hz' : (z : ℚ) < 2 ^ 53 := by exact_mod_cast (abs_lt.mp hz).2
  -- one half is a whole number of units
  obtain ⟨i, hi⟩ : ∃ i : ℕ, (i : ℤ) = -1 - e := ⟨(-1 - e).toNat, by omega⟩
  have hunits : (2 : ℚ) ^ i * 2 ^ e = 1 / 2 := by
    rw [← zpow_natCast, ← zpow_add₀ two_ne_zero, hi, sub_add_cancel, zpow_neg_one, one_div]
  have hsum : (z : ℚ) * 2 ^ e + 1 / 2 = ((z + 2 ^ i : ℤ) : ℚ) * 2 ^ e := by
    push_cast
    rw [add_mul, hunits]
  -- the end of the binade is an integer, and the sum does not reach it
  obtain ⟨n, hn⟩ : ∃ n : ℕ, (n : ℤ) = 53 + e := ⟨(53 + e).toNat, by omega⟩
  have hend : (2 : ℚ) ^ 53 * 2 ^ e = 2 ^ n := by
    rw [← zpow_natCast 2 n, hn, zpow_add₀ two_ne_zero]
    norm_cast
  have hnext : (k : ℚ) + 1 ≤ 2 ^ n := by
    have hlt : (k : ℚ) < 2 ^ n := hend ▸ hlow.trans (mul_lt_mul_of_pos_right hz' hpos)
    have hlt' : k < 2 ^ n := by exact_mod_cast hlt
    exact_mod_cast hlt'
  have hlt : z + 2 ^ i < 2 ^ 53 := by
    have : ((z + 2 ^ i : ℤ) : ℚ) * 2 ^ e < 2 ^ 53 * 2 ^ e := by
      rw [← hsum, hend]
      linarith
    exact_mod_cast lt_of_mul_lt_mul_right this hpos.le
  have hgt : -2 ^ 53 < z + 2 ^ i := by
    have := (abs_lt.mp hz).1
    have : (0 : ℤ) < 2 ^ i := by positivity
    omega
  rw [hsum, roundRat_mul_zpow (abs_lt.mpr ⟨hgt, hlt⟩) hmin]

/-- Of the values below one half, only the last one reaches one. -/
theorem roundRat_add_half_lt_one_iff {v : ℚ} (hv : roundRat v = v) (hlow : 0 ≤ v)
    (hhigh : v < 1 / 2) : roundRat (v + 1 / 2) < 1 ↔ v ≠ 1 / 2 - 1 / 2 ^ 54 := by
  obtain ⟨half, -, hhalf, hhalf'⟩ := exists_last_value 1020
  obtain ⟨one, hparity, hone, hone'⟩ := exists_last_value 1021
  norm_num at hhalf hhalf' hone hone'
  constructor
  · rintro hlt rfl
    have hmid : rankValue one + rankValue (one + 1) = 2 * (1 / 2 - 1 / 2 ^ 54 + 1 / 2) := by
      rw [hone, hone']
      norm_num
    rw [roundRat_midpoint hmid, show one % 2 = 1 by omega, hone'] at hlt
    exact lt_irrefl 1 hlt
  · intro hne
    have hle : v ≤ 1 / 2 - 1 / 2 ^ 54 := by
      by_contra hgt
      have hnext : rankValue (half + 1) ≤ roundRat v := by
        refine rankValue_succ_le hlow ?_
        rw [hv, hhalf]
        norm_num at hgt
        exact hgt
      linarith
    have hlt := lt_of_le_of_ne hle hne
    -- any smaller sum lies below the midpoint before one
    have hdown : ¬ rankValue one < roundRat (v + 1 / 2) := by
      rw [rankValue_lt_roundRat_iff one (by linarith), hone, hone']
      norm_num at hlt
      rintro (hmid | ⟨hmid, -⟩) <;> linarith
    linarith

/-- Below `2 ^ 52` a number is nearest to an integer that is a binary64 number. -/
theorem abs_floor_add_half_le {v : ℚ} (h : |v| < 2 ^ 52) : |⌊v + 1 / 2⌋| ≤ 2 ^ 52 := by
  obtain ⟨hmin, hmax⟩ := abs_lt.mp h
  rw [abs_le]
  constructor
  · rw [Int.le_floor]
    push_cast
    linarith
  · rw [← Int.lt_add_one_iff, Int.floor_lt]
    push_cast
    linarith

/-- A value that is no integer is rounded to the nearest one unless it is the last one below one
half. -/
theorem floor_roundRat_add_half_iff {v : ℚ} (hv : roundRat v = v) (hint : ∀ k : ℤ, v ≠ k) :
    ⌊roundRat (v + 1 / 2)⌋ = ⌊v + 1 / 2⌋ ↔ v ≠ 1 / 2 - 1 / 2 ^ 54 := by
  have hbound : |v| < 2 ^ 52 := by
    by_contra hge
    obtain ⟨k, hk⟩ := exists_intCast hv (not_lt.mp hge)
    exact hint k hk
  have habs := abs_floor_add_half_le hbound
  have hlast : ⌊(1 / 2 - 1 / 2 ^ 54 + 1 / 2 : ℚ)⌋ = 0 := by norm_num
  obtain ⟨k, hk⟩ : ∃ k, ⌊v + 1 / 2⌋ = k := ⟨_, rfl⟩
  obtain ⟨hlow, hhigh⟩ := Int.floor_eq_iff.mp hk
  rw [hk] at habs ⊢
  have hinteger : roundRat k = k := Number.roundRat_intCast (by exact_mod_cast habs)
  have hbelow : (k : ℚ) ≤ roundRat (v + 1 / 2) := hinteger ▸ roundRat_mono hlow
  -- all that can go wrong is that the sum reaches the next integer
  have hreach : ⌊roundRat (v + 1 / 2)⌋ = k ↔ roundRat (v + 1 / 2) < k + 1 := by
    rw [Int.floor_eq_iff, and_iff_right hbelow]
  rw [hreach]
  rcases lt_trichotomy v k with hlt | heq | hgt
  -- below the integer the sum does not pass that of the integer itself
  · have hfound : ⌊roundRat ((k : ℚ) + 1 / 2)⌋ = k :=
      (floor_roundRat_intCast_add_half_iff hinteger).mpr (by omega)
    have hle : roundRat (v + 1 / 2) ≤ roundRat (k + 1 / 2) := roundRat_mono (by linarith)
    refine iff_of_true (hle.trans_lt (Int.floor_eq_iff.mp hfound).2) ?_
    rintro rfl
    rw [hlast] at hk
    rw [← hk] at hlt
    norm_num at hlt
  · exact absurd heq (hint k)
  · rcases eq_or_ne k 0 with rfl | hne
    · rw [Int.cast_zero] at hgt hhigh
      rw [Int.cast_zero, zero_add]
      exact roundRat_add_half_lt_one_iff hv hgt.le (by linarith)
    · rw [roundRat_add_half_of_mem hv hne hgt (by linarith) hbound]
      refine iff_of_true hhigh ?_
      rintro rfl
      exact hne (hk.symm.trans hlast)

/-- The largest finite number lies more than one half below the overflow bound. -/
theorem abs_add_half_lt_overflowBound {x : Binary64} {v : ℚ} (hx : x.toRat? = some v) :
    |v| + 1 / 2 < overflowBound := by
  obtain ⟨negative, rank, rfl, -⟩ := exists_of_toRat? hx
  obtain ⟨last, hlast, hvalue, -⟩ := exists_last_value 2045
  -- the exponent is a variable, so that nothing tries to evaluate its power
  obtain ⟨k, hk⟩ : ∃ k, k = 970 := ⟨970, rfl⟩
  have habs : |v| = rankValue rank := by
    rw [toRat?_finite, Option.some.injEq] at hx
    subst hx
    cases negative <;> simp [abs_of_nonneg, rankValue_nonneg]
  have hle : rankValue rank ≤ rankValue last := by
    apply rankValue_strictMono.monotone
    have hrank : rank.val < 2047 * 2 ^ 52 := rank.isLt
    omega
  have hunit : (2 : ℚ) ^ (((2045 : ℕ) : ℤ) - 1074) = 2 * 2 ^ k := by
    rw [← zpow_natCast, ← zpow_one_add₀ two_ne_zero]
    congr 1
    omega
  have hone : (1 : ℚ) ≤ 2 ^ k := one_le_pow₀ one_le_two
  rw [hvalue, hunit] at hle
  rw [habs, overflowBound_eq hk]
  linarith

end CssColor.Binary64

namespace CssColor.Number

open Binary64

variable {x : Number} {q : ℚ}

/-! ## What rounding half up gives -/

/-- A number below the overflow bound becomes the nearest binary64 number. -/
theorem toBinary64_of_lt (hx : x.toRat? = some q) (hq : |q| < overflowBound) :
    Yields x.toBinary64 fun f => f.toRat? = some (roundRat q) := by
  cases x with
  | float f => exact .ok (hx.trans (congrArg some (roundRat_of_toRat? hx).symm))
  | int k =>
    obtain rfl : (k : ℚ) = q := by simpa using hx
    have hrank : nearestRank (k.natAbs * grainsPerOne) 1 < 2047 * 2 ^ 52 := by
      rwa [nearestRank_lt_iff _ Nat.one_pos, natAbs_mul_div_grainsPerOne]
    have hf := toRat?_ofInt_of_lt hrank
    exact ⟨ofInt k, fromRounding_of_toRat? hf, hf⟩

/-- Only integers reach the overflow bound. -/
theorem toBinary64_of_le (hx : x.toRat? = some q) (hq : overflowBound ≤ |q|) :
    x.toBinary64 = .error .overflow := by
  cases x with
  | float f =>
    have := abs_add_half_lt_overflowBound (x := f) hx
    linarith
  | int k =>
    obtain rfl : (k : ℚ) = q := by simpa using hx
    have hinfinite : ofInt k = .infinite (decide (k < 0)) := by
      rw [ofInt, ofRatio_eq_infinite_iff _ _ _ Nat.one_pos, Nat.cast_one, div_one,
        Nat.cast_natAbs, Int.cast_abs]
      exact ⟨rfl, hq⟩
    rw [toBinary64, hinfinite]
    rfl

/-- A sum with a binary64 number is formed in binary64. -/
theorem add_float (x : Number) (g : Binary64) :
    x.add (float g) = do
      let f ← x.toBinary64
      return float (f.add g) := by
  cases x <;> rfl

/-- The number is rounded to a binary64 number and the sum with one half is rounded once more
before its floor is taken. -/
theorem roundHalfUp_of_lt (hx : x.toRat? = some q) (hq : |q| < overflowBound) :
    x.roundHalfUp = .ok ⌊roundRat (roundRat q + 1 / 2)⌋ := by
  obtain ⟨f, hf, hvalue⟩ := toBinary64_of_lt hx hq
  have hbound : |roundRat q + 1 / 2| < overflowBound := by
    refine (abs_add_le _ _).trans_lt ?_
    rw [abs_of_pos (show (0 : ℚ) < 1 / 2 by norm_num)]
    exact abs_add_half_lt_overflowBound hvalue
  have hsum := toRat?_add_of_lt hvalue toRat?_half hbound
  rw [roundHalfUp, add_float, hf]
  exact floor_spec (x := float (f.add half)) hsum

/-- An integer too large for binary64 has no sum with one half. -/
theorem roundHalfUp_of_le (hx : x.toRat? = some q) (hq : overflowBound ≤ |q|) :
    x.roundHalfUp = .error .overflow := by
  rw [roundHalfUp, add_float, toBinary64_of_le hx hq]
  rfl

/-! ## The nearest integer -/

/-- The integer nearest to a rational, halves going up. -/
def IsNearest (n : Int) (q : ℚ) : Prop := n - 1 / 2 ≤ q ∧ q < n + 1 / 2

/-- The nearest integer, halves going up, is the floor of the exact sum with one half. -/
theorem isNearest_iff {n : Int} : IsNearest n q ↔ n = ⌊q + 1 / 2⌋ := by
  rw [eq_comm, Int.floor_eq_iff, IsNearest]
  constructor <;> rintro ⟨hlow, hhigh⟩ <;> constructor <;> linarith

/-- The values whose nearest integer is missed. -/
inductive Strays : ℚ → Prop where
  /-- The last binary64 number below one half: its sum with one half is a tie and goes to one. -/
  | belowHalf : Strays (1 / 2 - 1 / 2 ^ 54)
  /-- An odd integer between `2 ^ 52` and `2 ^ 53`: its sum with one half is a tie and goes to the
  next integer. -/
  | odd {k : ℤ} (hodd : Odd k) (hlow : 2 ^ 52 < |k|) (hhigh : |k| < 2 ^ 53) : Strays k
  /-- An integer that is no binary64 number: it is replaced by one first. -/
  | inexact {k : ℤ} (h : ∀ f : Binary64, f.toRat? ≠ some (k : ℚ)) : Strays k

/-- A binary64 number strays only next to one half or as an odd integer. -/
theorem isNearest_iff_of_toRat? {f : Binary64} (hf : f.toRat? = some q) :
    IsNearest ⌊roundRat (q + 1 / 2)⌋ q ↔ ¬ Strays q := by
  have hq : roundRat q = q := roundRat_of_toRat? hf
  rw [isNearest_iff]
  by_cases hint : ∃ k : ℤ, q = k
  · obtain ⟨k, rfl⟩ := hint
    have hfloor : ⌊(k : ℚ) + 1 / 2⌋ = k := by
      rw [Int.floor_eq_iff]
      constructor <;> linarith
    rw [hfloor, floor_roundRat_intCast_add_half_iff hq]
    -- of the three ways to stray, an integer that is a binary64 number can take one only
    refine not_congr ⟨fun ⟨hodd, hlow, hhigh⟩ => .odd hodd hlow hhigh, fun hstrays => ?_⟩
    generalize hv : (k : ℚ) = v at hstrays
    cases hstrays with
    | belowHalf =>
      have hpos : (0 : ℚ) < k := by rw [hv]; norm_num
      have hlt : (k : ℚ) < 1 := by rw [hv]; norm_num
      have : 0 < k := by exact_mod_cast hpos
      have : k < 1 := by exact_mod_cast hlt
      omega
    | odd hodd hlow hhigh =>
      obtain rfl : k = _ := by exact_mod_cast hv
      exact ⟨hodd, hlow, hhigh⟩
    | inexact h => exact absurd (hv ▸ hf) (h f)
  · rw [floor_roundRat_add_half_iff hq fun k hk => hint ⟨k, hk⟩]
    refine not_congr ⟨fun hbelow => hbelow ▸ .belowHalf, fun hstrays => ?_⟩
    cases hstrays with
    | belowHalf => rfl
    | odd hodd hlow hhigh => exact absurd ⟨_, rfl⟩ hint
    | inexact h => exact absurd ⟨_, rfl⟩ hint

/-- An integer that is not its own rounding is replaced by another one. -/
theorem not_isNearest_of_roundRat_ne {k : ℤ} (hk : roundRat k ≠ k) :
    ¬ IsNearest ⌊roundRat (roundRat k + 1 / 2)⌋ k := by
  have hlarge : (2 : ℚ) ^ 53 ≤ |roundRat k| := by
    have hge : (2 : ℚ) ^ 53 ≤ |(k : ℚ)| := by
      by_contra hlt
      have hlt' : |k| < 2 ^ 53 := by exact_mod_cast not_le.mp hlt
      exact hk (by simpa using roundRat_mul_zpow hlt' (show -1074 ≤ 0 by norm_num))
    rw [abs_roundRat, ← roundRat_two_pow 53]
    exact roundRat_mono hge
  obtain ⟨m, hm⟩ := exists_intCast (roundRat_roundRat k) (le_trans (by norm_num) hlarge)
  rw [roundRat_add_half_of_le (roundRat_roundRat k) hlarge, hm, Int.floor_intCast]
  rintro ⟨hlow, hhigh⟩
  have hle : m < k + 1 := by exact_mod_cast (show (m : ℚ) < k + 1 by linarith)
  have hge : k < m + 1 := by exact_mod_cast (show (k : ℚ) < m + 1 by linarith)
  obtain rfl : m = k := by omega
  exact hk hm

/-- Where it returns, rounding half up gives the nearest integer unless the value strays. It fails
only on integers that are too large for binary64. -/
theorem roundHalfUp_isNearest_iff (hx : x.toRat? = some q) :
    (∀ n, x.roundHalfUp = .ok n → (IsNearest n q ↔ ¬ Strays q)) ∧
      ∀ cause, x.roundHalfUp = .error cause ↔ cause = .overflow ∧ overflowBound ≤ |q| := by
  rcases lt_or_ge |q| overflowBound with hlt | hge
  · rw [roundHalfUp_of_lt hx hlt]
    refine ⟨?_, by simp [not_le.mpr hlt]⟩
    rintro n ⟨⟩
    obtain ⟨f, -, hf⟩ := toBinary64_of_lt hx hlt
    -- an integer may be replaced by another one before anything is added to it
    by_cases hq : roundRat q = q
    · rw [hq] at hf ⊢
      exact isNearest_iff_of_toRat? hf
    · cases x with
      | float g => exact absurd (roundRat_of_toRat? hx) hq
      | int k =>
        obtain rfl : (k : ℚ) = q := by simpa using hx
        have hstrays : Strays k := .inexact fun g hg => hq (roundRat_of_toRat? hg)
        exact iff_of_false (not_isNearest_of_roundRat_ne hq) (not_not_intro hstrays)
  · rw [roundHalfUp_of_le hx hge]
    exact ⟨by simp, by simp [hge, eq_comm]⟩

/-- The last half integer: its sum with one half is `2 ^ 52`. -/
theorem roundHalfUp_isNearest_iff_last_half :
    let x : Number := float (.finite false ⟨0x432fffffffffffff, by decide⟩)
    let q : ℚ := 2 ^ 52 - 1 / 2
    x.toRat? = some q ∧ x.roundHalfUp = .ok (2 ^ 52) ∧ (IsNearest (2 ^ 52) q ↔ ¬ Strays q) ∧
      ∀ cause, x.roundHalfUp = .error cause ↔ cause = .overflow ∧ overflowBound ≤ |q| := by
  intro x q
  have hx : x.toRat? = some q := by decide +kernel
  have hn : x.roundHalfUp = .ok (2 ^ 52) := by decide +kernel
  exact ⟨hx, hn, (roundHalfUp_isNearest_iff hx).1 _ hn, (roundHalfUp_isNearest_iff hx).2⟩

/-- The last number below one half is rounded to one. -/
theorem not_isNearest_below_half :
    let x : Number := float (.finite false ⟨0x3fdfffffffffffff, by decide⟩)
    let q : ℚ := 1 / 2 - 1 / 2 ^ 54
    x.toRat? = some q ∧ x.roundHalfUp = .ok 1 ∧ ¬ IsNearest 1 q := by
  intro x q
  refine ⟨by decide +kernel, by decide +kernel, ?_⟩
  rintro ⟨hlow, -⟩
  norm_num [q] at hlow

-- an odd integer goes to the next one, and an integer that is no binary64 number to one that is
example : (int (2 ^ 52 + 1)).roundHalfUp = .ok (2 ^ 52 + 2) := by decide +kernel

example : (int (2 ^ 53 + 1)).roundHalfUp = .ok (2 ^ 53) := by decide +kernel

end CssColor.Number
