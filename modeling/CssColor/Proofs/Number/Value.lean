import CssColor.Number.Basic
import CssColor.Proofs.Number.NearestRank
import Mathlib.Algebra.Order.Field.Rat
import Mathlib.Algebra.Order.Round
import Mathlib.Data.Rat.Floor
import Mathlib.Tactic.FieldSimp
import Mathlib.Tactic.NormNum
import Mathlib.Tactic.Positivity

/-!
# Exact values

The exact value of a finite number as a rational, and the rational to which an exact result is
rounded. The operations on finite numbers round the exact result of the operation.

## Main definitions

* `Binary64.toRat?`: the value of a finite number.
* `Binary64.roundRat`: the value of the nearest number, were there no largest one.

## Main results

* `Binary64.roundRat_mono`: rounding is monotone.
* `Binary64.roundRat_of_toRat?`: rounding leaves the value of a finite number as it is.
* `Binary64.roundRat_dyadic`: rounding leaves a fraction of a power of two as it is when its
  numerator has at most 53 bits.
* `Binary64.abs_roundRat_sub_le`: how far rounding moves a number.
* `Binary64.toRat?_add`, `toRat?_sub`, `toRat?_mul`, `toRat?_div`: what the operations round.
-/

namespace CssColor.Binary64

-- the exponent is a variable, so that nothing ever computes the power
/-- The number of grains in terms of its exponent, which is kept a variable so that the power is not
evaluated. -/
theorem grainsPerOne_eq {n : Nat} (h : n = 1074) : grainsPerOne = 2 ^ n := by
  delta grainsPerOne
  rw [← h]
  rfl

theorem two_pow_add_eq {n : Nat} (h : n = 1074) (k : Nat) :
    2 ^ (k + n) = 2 ^ k * grainsPerOne := by
  rw [grainsPerOne_eq h, Nat.pow_add]

theorem grainsPerOne_pos : 0 < grainsPerOne := by
  obtain ⟨n, hn⟩ : ∃ n, n = 1074 := ⟨1074, rfl⟩
  rw [grainsPerOne_eq hn]
  positivity

/-- The exact value of a finite number. -/
def toRat? : Binary64 → Option ℚ
  | finite negative rank => some (signedGrains negative rank / grainsPerOne)
  | _ => none

/-- The value of the magnitude of a rank. -/
def rankValue (rank : Nat) : ℚ := grainsOfRank rank / grainsPerOne

/-- The value of the number nearest to a rational, were there no largest number. -/
def roundRat (q : ℚ) : ℚ :=
  let magnitude := rankValue (nearestRank (q.num.natAbs * grainsPerOne) q.den)
  if q < 0 then -magnitude else magnitude

theorem rankValue_nonneg (rank : Nat) : 0 ≤ rankValue rank := by
  unfold rankValue
  positivity

theorem rankValue_zero : rankValue 0 = 0 := by
  rw [rankValue, grainsOfRank_of_lt (by positivity), Nat.cast_zero, zero_div]

/-- The magnitudes are ordered as their ranks are. -/
theorem rankValue_strictMono : StrictMono rankValue := by
  intro low high h
  have hgrains : (grainsOfRank low : ℚ) < grainsOfRank high := by
    exact_mod_cast grainsOfRank_strictMono h
  have hpos : (0 : ℚ) < grainsPerOne := by exact_mod_cast grainsPerOne_pos
  exact div_lt_div_of_pos_right hgrains hpos

/-! ## Rounding rationals -/

/-- Rounding a quotient of natural numbers depends on its value only. -/
theorem roundRat_div (n : Nat) {d : Nat} (hd : 0 < d) :
    roundRat ((n : ℚ) / d) = rankValue (nearestRank (n * grainsPerOne) d) := by
  have hq : ¬ (n : ℚ) / d < 0 := not_lt.mpr (by positivity)
  set q : ℚ := (n : ℚ) / d with hqdef
  have hnum : (q.num.natAbs : ℚ) / q.den = n / d := by
    have hnonneg : 0 ≤ q.num := Rat.num_nonneg.mpr (not_lt.mp hq)
    calc (q.num.natAbs : ℚ) / q.den = (q.num : ℚ) / q.den := by
          rw [← Int.cast_natCast, Int.natAbs_of_nonneg hnonneg]
      _ = q := Rat.num_div_den q
      _ = n / d := hqdef
  -- rounding looks at a fraction in lowest terms, but equal fractions have the same rank
  have hcross : q.num.natAbs * d = n * q.den := by
    have hden : (q.den : ℚ) ≠ 0 := by exact_mod_cast q.den_ne_zero
    have hdne : (d : ℚ) ≠ 0 := by positivity
    have := (div_eq_div_iff hden hdne).mp hnum
    exact_mod_cast this
  have hsame : nearestRank (q.num.natAbs * grainsPerOne) q.den
      = nearestRank (n * grainsPerOne) d := by
    apply le_antisymm
    · refine nearestRank_mono q.den_pos hd (le_of_eq ?_)
      rw [Nat.mul_right_comm, hcross, Nat.mul_right_comm]
    · refine nearestRank_mono hd q.den_pos (le_of_eq ?_)
      rw [Nat.mul_right_comm, ← hcross, Nat.mul_right_comm]
  rw [roundRat, if_neg hq, hsame]

theorem roundRat_zero : roundRat 0 = 0 := by
  have hgrains : grainsOfRank 0 = 0 := grainsOfRank_of_lt (by positivity)
  have hrank : nearestRank 0 1 = 0 := by
    have h := nearestRank_grainsOfRank 0 Nat.one_pos
    rwa [hgrains, Nat.zero_mul] at h
  have h := roundRat_div 0 Nat.one_pos
  rwa [Nat.zero_mul, hrank, rankValue_zero, Nat.cast_zero, zero_div] at h

/-- Rounding does not depend on the sign. -/
theorem roundRat_neg (q : ℚ) : roundRat (-q) = -roundRat q := by
  rcases lt_trichotomy q 0 with h | rfl | h
  · have h' : ¬ -q < 0 := by linarith
    simp [roundRat, h, h']
  · simp [roundRat_zero]
  · have h' : -q < 0 := by linarith
    simp [roundRat, h', not_lt.mpr h.le]

/-- Rounding does not cross zero. -/
theorem roundRat_nonneg {q : ℚ} (h : 0 ≤ q) : 0 ≤ roundRat q := by
  rw [roundRat, if_neg (not_lt.mpr h)]
  exact rankValue_nonneg _

/-- A nonnegative rational as a quotient of natural numbers. -/
theorem exists_eq_div {q : ℚ} (h : 0 ≤ q) : ∃ n d : Nat, 0 < d ∧ q = n / d := by
  refine ⟨q.num.natAbs, q.den, q.den_pos, ?_⟩
  rw [← Int.cast_natCast, Int.natAbs_of_nonneg (Rat.num_nonneg.mpr h), Rat.num_div_den]

/-- Rounding keeps the order of magnitudes. -/
theorem roundRat_mono_of_nonneg {p q : ℚ} (hp : 0 ≤ p) (h : p ≤ q) : roundRat p ≤ roundRat q := by
  obtain ⟨n, d, hd, rfl⟩ := exists_eq_div hp
  obtain ⟨n', d', hd', rfl⟩ := exists_eq_div (hp.trans h)
  rw [roundRat_div n hd, roundRat_div n' hd']
  refine rankValue_strictMono.monotone (nearestRank_mono hd hd' ?_)
  have hcross : n * d' ≤ n' * d := by
    have := (div_le_div_iff₀ (by positivity) (by positivity)).mp h
    exact_mod_cast this
  calc n * grainsPerOne * d' = n * d' * grainsPerOne := by ring
    _ ≤ n' * d * grainsPerOne := Nat.mul_le_mul_right _ hcross
    _ = n' * grainsPerOne * d := by ring

/-- Rounding is monotone. -/
theorem roundRat_mono : Monotone roundRat := by
  intro p q h
  rcases le_or_gt 0 p with hp | hp
  · exact roundRat_mono_of_nonneg hp h
  · have hp' : roundRat p = -roundRat (-p) := by simp [roundRat_neg]
    rcases le_or_gt 0 q with hq | hq
    · have := roundRat_nonneg (show 0 ≤ -p by linarith)
      have := roundRat_nonneg hq
      linarith
    · have hq' : roundRat q = -roundRat (-q) := by simp [roundRat_neg]
      have := roundRat_mono_of_nonneg (show 0 ≤ -q by linarith) (neg_le_neg h)
      linarith

/-- The value of a rank is its own rounding. -/
theorem roundRat_rankValue (rank : Nat) : roundRat (rankValue rank) = rankValue rank := by
  rw [rankValue, roundRat_div _ grainsPerOne_pos, nearestRank_grainsOfRank _ grainsPerOne_pos]
  rfl

/-- A nonnegative rational rounds to the value of a rank. -/
theorem exists_rankValue {q : ℚ} (h : 0 ≤ q) : ∃ rank, roundRat q = rankValue rank := by
  rw [roundRat, if_neg (not_lt.mpr h)]
  exact ⟨_, rfl⟩

/-- The magnitude of a rounded number is the rounded magnitude. -/
theorem abs_roundRat (q : ℚ) : |roundRat q| = roundRat |q| := by
  rcases le_total 0 q with h | h
  · rw [abs_of_nonneg h, abs_of_nonneg (roundRat_nonneg h)]
  · have hround := roundRat_nonneg (neg_nonneg.mpr h)
    rw [roundRat_neg] at hround
    rw [abs_of_nonpos h, roundRat_neg, abs_of_nonpos (by linarith)]

/-- What has been rounded is its own rounding. -/
theorem roundRat_roundRat (q : ℚ) : roundRat (roundRat q) = roundRat q := by
  rcases le_total 0 q with h | h
  · obtain ⟨rank, hrank⟩ := exists_rankValue h
    rw [hrank, roundRat_rankValue]
  · obtain ⟨rank, hrank⟩ := exists_rankValue (neg_nonneg.mpr h)
    have hround : roundRat q = -rankValue rank := by rw [← hrank, roundRat_neg]; ring
    rw [hround, roundRat_neg, roundRat_rankValue]

/-- The value of a number is the magnitude of its rank under its sign. -/
theorem signedGrains_div (negative : Bool) (rank : Nat) :
    (signedGrains negative rank : ℚ) / grainsPerOne =
      if negative then -rankValue rank else rankValue rank := by
  cases negative with
  | true => simp [signedGrains, rankValue, neg_div]
  | false => simp [signedGrains, rankValue]

/-- A number that is not negative has no negative count of grains. -/
theorem signedGrains_nonneg {negative : Bool} {rank : Nat}
    (h : (0 : ℚ) ≤ signedGrains negative rank / grainsPerOne) : 0 ≤ signedGrains negative rank := by
  have hone : (0 : ℚ) < grainsPerOne := by exact_mod_cast grainsPerOne_pos
  have hcast : (0 : ℚ) ≤ signedGrains negative rank := by
    rwa [le_div_iff₀ hone, zero_mul] at h
  exact_mod_cast hcast

/-- The value of a finite number is its own rounding. -/
theorem roundRat_of_toRat? {x : Binary64} {q : ℚ} (h : x.toRat? = some q) : roundRat q = q := by
  cases x with
  | nan => simp [toRat?] at h
  | infinite negative => simp [toRat?] at h
  | finite negative rank =>
    obtain rfl : (signedGrains negative rank : ℚ) / grainsPerOne = q := by simpa [toRat?] using h
    rw [signedGrains_div]
    cases negative with
    | true => rw [if_pos rfl, roundRat_neg, roundRat_rankValue]
    | false => rw [if_neg Bool.false_ne_true, roundRat_rankValue]

/-- Every significand of at most 53 bits, shifted upward, is the magnitude of a rank. -/
theorem exists_grainsOfRank {significand : Nat} (h : significand < 2 ^ 53) (shift : Nat) :
    ∃ rank, grainsOfRank rank = significand * 2 ^ shift := by
  induction shift generalizing significand with
  | zero =>
    rcases Nat.lt_or_ge significand (2 ^ 52) with hlow | hhigh
    · exact ⟨significand, by rw [grainsOfRank_of_lt hlow, Nat.pow_zero, Nat.mul_one]⟩
    · exact ⟨_, grainsOfRank_add hhigh h.le 0⟩
  | succ shift ih =>
    rcases Nat.lt_or_ge significand (2 ^ 52) with hlow | hhigh
    · obtain ⟨rank, hrank⟩ := ih (show 2 * significand < 2 ^ 53 by omega)
      exact ⟨rank, by rw [hrank, Nat.pow_succ]; ring⟩
    · exact ⟨_, grainsOfRank_add hhigh h.le (shift + 1)⟩

/-- A fraction of a power of two whose numerator has at most 53 bits is its own rounding. -/
theorem roundRat_dyadic {m : Nat} (hm : m < 2 ^ 53) {j : Nat} (hj : j ≤ 1074) :
    roundRat ((m : ℚ) / 2 ^ j) = m / 2 ^ j := by
  obtain ⟨rank, hrank⟩ := exists_grainsOfRank hm (1074 - j)
  have hvalue : (m : ℚ) / 2 ^ j = rankValue rank := by
    rw [rankValue, hrank, grainsPerOne_eq (Nat.sub_add_cancel hj), Nat.pow_add]
    push_cast
    field_simp
  rw [hvalue, roundRat_rankValue]

/-- Integers below `2 ^ 53` are not rounded. -/
theorem roundRat_natCast {n : Nat} (h : n < 2 ^ 53) : roundRat n = n := by
  simpa using roundRat_dyadic h (Nat.zero_le 1074)

/-- Rounding does not cross an integer below `2 ^ 53` from below. -/
theorem roundRat_le_natCast {q : ℚ} {n : Nat} (hn : n < 2 ^ 53) (h : q ≤ n) : roundRat q ≤ n :=
  (roundRat_mono h).trans_eq (roundRat_natCast hn)

theorem natCast_le_roundRat {q : ℚ} {n : Nat} (hn : n < 2 ^ 53) (h : (n : ℚ) ≤ q) :
    (n : ℚ) ≤ roundRat q :=
  (roundRat_natCast hn).symm.trans_le (roundRat_mono h)

theorem roundRat_le_one {q : ℚ} (h : q ≤ 1) : roundRat q ≤ 1 := by
  simpa using roundRat_le_natCast (n := 1) (by norm_num) (by simpa using h)

/-- Powers of two are not rounded. -/
theorem roundRat_two_pow (k : Nat) : roundRat (2 ^ k) = 2 ^ k := by
  obtain ⟨rank, hrank⟩ := exists_grainsOfRank (show 1 < 2 ^ 53 by decide) (k + 1074)
  have hgrains : grainsOfRank rank = 2 ^ k * grainsPerOne := by
    rw [hrank, Nat.one_mul, two_pow_add_eq rfl]
  have hpos : (grainsPerOne : ℚ) ≠ 0 := by exact_mod_cast grainsPerOne_pos.ne'
  have hvalue : (2 : ℚ) ^ k = rankValue rank := by
    rw [rankValue, hgrains, Nat.cast_mul, mul_div_cancel_right₀ _ hpos]
    push_cast
    rfl
  rw [hvalue, roundRat_rankValue]

/-- Rounding stays within a bound that is a power of two. -/
theorem abs_roundRat_le {q : ℚ} {k : Nat} (h : |q| ≤ 2 ^ k) : |roundRat q| ≤ 2 ^ k := by
  rw [abs_roundRat, ← roundRat_two_pow k]
  exact roundRat_mono h

/-- Rounding moves a number below `2 ^ k` by at most `2 ^ -j`, when 53 bits are enough for both. -/
theorem abs_roundRat_sub_le {q : ℚ} {j k : Nat} (hq : 0 ≤ q) (hqk : q ≤ 2 ^ k)
    (hjk : j + k ≤ 52) : |roundRat q - q| ≤ 1 / 2 ^ j := by
  have hpos : (0 : ℚ) < 2 ^ j := by positivity
  set m := ⌊q * 2 ^ j⌋₊
  have hlow : (m : ℚ) / 2 ^ j ≤ q := (div_le_iff₀ hpos).mpr (Nat.floor_le (by positivity))
  have hhigh : q ≤ ((m + 1 : ℕ) : ℚ) / 2 ^ j := by
    rw [le_div_iff₀ hpos, Nat.cast_add_one]
    exact (Nat.lt_floor_add_one (q * 2 ^ j)).le
  have hmle : m ≤ 2 ^ 52 := by
    have hcast : (m : ℚ) ≤ 2 ^ 52 := calc
      (m : ℚ) ≤ q * 2 ^ j := Nat.floor_le (by positivity)
      _ ≤ 2 ^ k * 2 ^ j := by gcongr
      _ = 2 ^ (j + k) := by rw [← pow_add, Nat.add_comm]
      _ ≤ 2 ^ 52 := pow_le_pow_right₀ one_le_two hjk
    exact_mod_cast hcast
  -- the two neighbours on the grid of step `2 ^ -j` are binary64 numbers
  have hlow' : (m : ℚ) / 2 ^ j ≤ roundRat q := by
    rw [← roundRat_dyadic (m := m) (by omega) (by omega)]
    exact roundRat_mono hlow
  have hhigh' : roundRat q ≤ ((m + 1 : ℕ) : ℚ) / 2 ^ j := by
    rw [← roundRat_dyadic (m := m + 1) (by omega) (by omega)]
    exact roundRat_mono hhigh
  have hstep : ((m + 1 : ℕ) : ℚ) / 2 ^ j = m / 2 ^ j + 1 / 2 ^ j := by
    push_cast
    rw [add_div]
  rw [hstep] at hhigh hhigh'
  rw [abs_le]
  constructor <;> linarith

/-! ## What the operations round -/

/-- A finite number has the magnitude of its rank under its sign. -/
theorem toRat?_finite (negative : Bool) (rank : Fin (2047 * 2 ^ 52)) :
    (finite negative rank).toRat? =
      some (if negative then -rankValue rank else rankValue rank) := by
  rw [toRat?, signedGrains_div]

@[simp] theorem toRat?_zero (negative : Bool) : (zero negative).toRat? = some 0 := by
  rw [zero, toRat?_finite, rankValue_zero, neg_zero, ite_self]

/-- The rank of a power of two. -/
theorem grainsOfRank_mul {j k : Nat} (h : 52 + k = j + 1074) :
    grainsOfRank ((k + 1) * 2 ^ 52) = 2 ^ j * grainsPerOne := by
  have hgrains := grainsOfRank_add (le_refl (2 ^ 52)) (by norm_num) k
  rw [Nat.add_mul, Nat.one_mul, hgrains, ← Nat.pow_add, h, two_pow_add_eq rfl]

/-- A magnitude far above all that is computed here and far below the largest number. -/
@[irreducible] def safeMagnitude : ℚ := 2 ^ 1000

theorem two_pow_le_safeMagnitude {k : Nat} (h : k ≤ 1000) : 2 ^ k ≤ safeMagnitude := by
  rw [safeMagnitude]
  exact pow_le_pow_right₀ one_le_two h

/-- Safe magnitudes do not overflow. -/
theorem nearestRank_lt_of_safe {n d : Nat} (hd : 0 < d)
    (h : (n : ℚ) / (d * grainsPerOne) ≤ safeMagnitude) : nearestRank n d < 2047 * 2 ^ 52 := by
  have hgrains : grainsOfRank ((2022 + 1) * 2 ^ 52) = 2 ^ 1000 * grainsPerOne :=
    grainsOfRank_mul (by norm_num)
  have hpos : (0 : ℚ) < d * grainsPerOne := by
    exact_mod_cast Nat.mul_pos hd grainsPerOne_pos
  have hle : n ≤ grainsOfRank ((2022 + 1) * 2 ^ 52) * d := by
    rw [hgrains]
    rw [safeMagnitude] at h
    have h' : (n : ℚ) ≤ 2 ^ 1000 * (d * grainsPerOne) := (div_le_iff₀ hpos).mp h
    have h'' : n ≤ 2 ^ 1000 * (d * grainsPerOne) := by exact_mod_cast h'
    calc n ≤ 2 ^ 1000 * (d * grainsPerOne) := h''
      _ = 2 ^ 1000 * grainsPerOne * d := by rw [Nat.mul_comm d, Nat.mul_assoc]
  have hrank := nearestRank_le hd hle
  omega

/-- The number nearest to a magnitude in grains has the rounded value, unless it overflows. -/
theorem toRat?_ofGrainRatio_of_lt (negative : Bool) {n d : Nat} (hd : 0 < d) {q : ℚ}
    (hq : (n : ℚ) / (d * grainsPerOne) = q) (hlt : nearestRank n d < 2047 * 2 ^ 52) :
    (ofGrainRatio negative n d).toRat? = some (roundRat (if negative then -q else q)) := by
  have hpos : 0 < d * grainsPerOne := Nat.mul_pos hd grainsPerOne_pos
  have hround : roundRat q = rankValue (nearestRank n d) := by
    have hsame : nearestRank (n * grainsPerOne) (d * grainsPerOne) = nearestRank n d := by
      apply le_antisymm
      · exact nearestRank_mono hpos hd (le_of_eq (by ring))
      · exact nearestRank_mono hd hpos (le_of_eq (by ring))
    rw [← hq, ← Nat.cast_mul, roundRat_div n hpos, hsame]
  have hfinite : ofGrainRatio negative n d = finite negative ⟨nearestRank n d, hlt⟩ := dif_pos hlt
  rw [hfinite, toRat?_finite]
  cases negative with
  | true => rw [if_pos rfl, if_pos rfl, roundRat_neg, hround]
  | false => rw [if_neg Bool.false_ne_true, if_neg Bool.false_ne_true, hround]

/-- A safe magnitude that is given in grains is rounded. -/
theorem toRat?_ofGrainRatio (negative : Bool) {n d : Nat} (hd : 0 < d) {q : ℚ}
    (hq : (n : ℚ) / (d * grainsPerOne) = q) (hbound : q ≤ safeMagnitude) :
    (ofGrainRatio negative n d).toRat? = some (roundRat (if negative then -q else q)) :=
  toRat?_ofGrainRatio_of_lt negative hd hq (nearestRank_lt_of_safe hd (hq ▸ hbound))

/-- The magnitude of a count of grains. -/
theorem natAbs_div_grainsPerOne (grains : Int) :
    ((grains.natAbs : ℕ) : ℚ) / ((1 : ℕ) * grainsPerOne) = |(grains : ℚ) / grainsPerOne| := by
  rw [abs_div, Nat.abs_cast, Nat.cast_one, one_mul, Nat.cast_natAbs, Int.cast_abs]

/-- The number nearest to a signed count of grains has the rounded value, unless it overflows. -/
theorem toRat?_ofGrains_of_lt (zeroNegative : Bool) (grains : Int)
    (hlt : nearestRank grains.natAbs 1 < 2047 * 2 ^ 52) :
    (ofGrains zeroNegative grains).toRat? = some (roundRat (grains / grainsPerOne)) := by
  rw [ofGrains]
  split_ifs with hzero
  · rw [toRat?_zero, hzero, Int.cast_zero, zero_div, roundRat_zero]
  · rw [toRat?_ofGrainRatio_of_lt _ Nat.one_pos (natAbs_div_grainsPerOne grains) hlt]
    have hpos : (0 : ℚ) < grainsPerOne := by exact_mod_cast grainsPerOne_pos
    rcases lt_or_gt_of_ne hzero with hneg | hpos'
    · have hq : (grains : ℚ) / grainsPerOne < 0 :=
        div_neg_of_neg_of_pos (by exact_mod_cast hneg) hpos
      rw [if_pos (by simpa using hneg), abs_of_neg hq]
      simp
    · have hq : 0 < (grains : ℚ) / grainsPerOne := div_pos (by exact_mod_cast hpos') hpos
      rw [if_neg (by simpa using hpos'.le), abs_of_pos hq]

/-- A safe count of grains is rounded. -/
theorem toRat?_ofGrains (zeroNegative : Bool) (grains : Int)
    (hbound : |(grains : ℚ) / grainsPerOne| ≤ safeMagnitude) :
    (ofGrains zeroNegative grains).toRat? = some (roundRat (grains / grainsPerOne)) :=
  toRat?_ofGrains_of_lt zeroNegative grains
    (nearestRank_lt_of_safe Nat.one_pos (natAbs_div_grainsPerOne grains ▸ hbound))

/-- The number nearest to a quotient of natural numbers has the rounded value. -/
theorem toRat?_ofRatio (negative : Bool) {n d : Nat} (hd : 0 < d)
    (hbound : (n : ℚ) / d ≤ safeMagnitude) :
    (ofRatio negative n d).toRat? =
      some (roundRat (if negative then -((n : ℚ) / d) else n / d)) := by
  have hpos : (grainsPerOne : ℚ) ≠ 0 := by exact_mod_cast grainsPerOne_pos.ne'
  refine toRat?_ofGrainRatio negative hd ?_ hbound
  rw [Nat.cast_mul, mul_div_mul_right _ _ hpos]

section Operations

variable {x y : Binary64} {a b : ℚ}

/-- A number with a value has a sign and a rank, which make up the value. -/
theorem exists_of_toRat? (h : x.toRat? = some a) :
    ∃ negative rank, x = finite negative rank ∧ a = signedGrains negative rank / grainsPerOne := by
  cases x with
  | nan => simp [toRat?] at h
  | infinite negative => simp [toRat?] at h
  | finite negative rank => exact ⟨negative, rank, rfl, by simpa [toRat?] using h.symm⟩

/-- A sum is made of the exact sum of the grains. -/
theorem exists_grains_of_add (hx : x.toRat? = some a) (hy : y.toRat? = some b) :
    ∃ zeroNegative grains, x.add y = ofGrains zeroNegative grains ∧
      a + b = (grains : ℚ) / grainsPerOne := by
  obtain ⟨s, m, rfl, rfl⟩ := exists_of_toRat? hx
  obtain ⟨t, n, rfl, rfl⟩ := exists_of_toRat? hy
  exact ⟨_, _, rfl, by rw [← add_div, ← Int.cast_add]⟩

/-- A safe sum is the exact sum, rounded, and so it is with the other operations. -/
theorem toRat?_add (hx : x.toRat? = some a) (hy : y.toRat? = some b) (h : |a + b| ≤ safeMagnitude) :
    (x.add y).toRat? = some (roundRat (a + b)) := by
  obtain ⟨zeroNegative, grains, hadd, hsum⟩ := exists_grains_of_add hx hy
  rw [hadd, hsum]
  exact toRat?_ofGrains _ _ (hsum ▸ h)

theorem toRat?_neg (hx : x.toRat? = some a) : x.neg.toRat? = some (-a) := by
  obtain ⟨s, m, rfl, rfl⟩ := exists_of_toRat? hx
  cases s with
  | true => simp [neg, toRat?, signedGrains, neg_div]
  | false => simp [neg, toRat?, signedGrains, neg_div]

theorem toRat?_sub (hx : x.toRat? = some a) (hy : y.toRat? = some b) (h : |a - b| ≤ safeMagnitude) :
    (x.sub y).toRat? = some (roundRat (a - b)) := by
  rw [sub_eq_add_neg] at h ⊢
  exact toRat?_add hx (toRat?_neg hy) h

theorem toRat?_mul (hx : x.toRat? = some a) (hy : y.toRat? = some b)
    (h : |a * b| ≤ safeMagnitude) : (x.mul y).toRat? = some (roundRat (a * b)) := by
  obtain ⟨s, m, rfl, rfl⟩ := exists_of_toRat? hx
  obtain ⟨t, n, rfl, rfl⟩ := exists_of_toRat? hy
  rw [signedGrains_div, signedGrains_div] at h ⊢
  have hq : ((grainsOfRank m * grainsOfRank n : ℕ) : ℚ) / (grainsPerOne * grainsPerOne)
      = rankValue m * rankValue n := by
    rw [rankValue, rankValue, Nat.cast_mul, div_mul_div_comm]
  have hbound : rankValue m * rankValue n ≤ safeMagnitude := by
    have hnonneg := mul_nonneg (rankValue_nonneg m) (rankValue_nonneg n)
    cases s <;> cases t <;> simpa [abs_mul, abs_of_nonneg, rankValue_nonneg] using h
  have hround := toRat?_ofGrainRatio (s ^^ t) grainsPerOne_pos hq hbound
  rw [mul, hround]
  cases s <;> cases t <;> simp

theorem toRat?_div (hx : x.toRat? = some a) (hy : y.toRat? = some b) (hb : b ≠ 0)
    (h : |a / b| ≤ safeMagnitude) : (x.div y).toRat? = some (roundRat (a / b)) := by
  obtain ⟨s, m, rfl, rfl⟩ := exists_of_toRat? hx
  obtain ⟨t, n, rfl, rfl⟩ := exists_of_toRat? hy
  rw [signedGrains_div] at hb
  rw [signedGrains_div, signedGrains_div] at h ⊢
  have hgrains : 0 < grainsOfRank n := by
    rcases Nat.eq_zero_or_pos (grainsOfRank n) with hzero | hpos
    · simp [rankValue, hzero] at hb
    · exact hpos
  -- so the divisor is not one of the zeros, which have branches of their own
  have hrank : n.val ≠ 0 := by
    intro hzero
    rw [hzero, grainsOfRank_of_lt (by positivity)] at hgrains
    exact absurd hgrains (lt_irrefl 0)
  have hpos : (grainsPerOne : ℚ) ≠ 0 := by exact_mod_cast grainsPerOne_pos.ne'
  have hq : (grainsOfRank m : ℚ) / grainsOfRank n = rankValue m / rankValue n := by
    rw [rankValue, rankValue, div_div_div_cancel_right₀ hpos]
  have hbound : (grainsOfRank m : ℚ) / grainsOfRank n ≤ safeMagnitude := by
    rw [hq]
    cases s <;> cases t <;> simpa [abs_div, abs_of_nonneg, rankValue_nonneg] using h
  -- the magnitudes are divided, and the sign is negative when one of the two signs is
  have hround := toRat?_ofRatio (s ^^ t) hgrains hbound
  rw [div, if_neg hrank, hround, hq]
  cases s <;> cases t <;> simp [div_neg, neg_div]

end Operations

end CssColor.Binary64
