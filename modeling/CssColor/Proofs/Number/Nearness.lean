import CssColor.Proofs.Number.Arithmetic

/-!
# Rounded results near exact ones

A chain of rounded operations is compared with the exact computation that it stands for. The
distance between the two is counted in bits: a number that is near a rational up to `k` bits differs
from it by at most `2 ^ -k`. Every operation costs a few bits, which depend only on the magnitudes
of its operands, and none succeeds with less than the bits that are stated.

## Main definitions

* `Number.Near`: the number is finite and differs from a rational by at most `2 ^ -k`.

## Main results

* `Number.add_near`, `sub_near`, `mul_near`, `div_near`: the bits that an operation costs.
* `Number.roundHalfUp_near`: the nearest integer is hardly more than one half away.
* `Number.mod_eq_self`: the remainder of a number below the modulus is exact.
-/

namespace CssColor

open Binary64

/-- Rounding moves a number up to `2 ^ k` by at most `2 ^ -j`, when 53 bits are enough for both. -/
theorem Binary64.abs_roundRat_sub_le_of_abs {q : ℚ} {j k : Nat} (hq : |q| ≤ 2 ^ k)
    (hjk : j + k ≤ 52) : |roundRat q - q| ≤ 1 / 2 ^ j := by
  rcases le_or_gt 0 q with hpos | hneg
  · rw [abs_of_nonneg hpos] at hq
    exact abs_roundRat_sub_le hpos hq hjk
  · rw [abs_of_neg hneg] at hq
    have h := abs_roundRat_sub_le (neg_nonneg.mpr hneg.le) hq hjk
    rwa [roundRat_neg, ← neg_sub', abs_neg] at h

namespace Number

/-- The number is finite and differs from `q` by at most `2 ^ -k`. -/
def Near (k : Nat) (q : ℚ) (x : Number) : Prop := ∃ v, x.toRat? = some v ∧ |v - q| ≤ 1 / 2 ^ k

section Near

variable {x y : Number} {a b p q : ℚ} {i j k : Nat}

theorem one_div_two_pow_le (h : j ≤ k) : (1 : ℚ) / 2 ^ k ≤ 1 / 2 ^ j :=
  one_div_le_one_div_of_le (by positivity) (pow_le_pow_right₀ one_le_two h)

theorem one_div_two_pow_le_one (k : Nat) : (1 : ℚ) / 2 ^ k ≤ 1 := by
  simpa using one_div_two_pow_le (Nat.zero_le k)

/-- Two errors of one bit less make up the error. -/
theorem one_div_two_pow_succ (k : Nat) : (1 : ℚ) / 2 ^ (k + 1) + 1 / 2 ^ (k + 1) = 1 / 2 ^ k := by
  rw [pow_succ]
  field_simp
  norm_num

/-- What is near in many binary places is near in fewer. -/
theorem Near.mono (hx : x.Near k q) (h : j ≤ k) : x.Near j q := by
  obtain ⟨v, hv, herror⟩ := hx
  exact ⟨v, hv, herror.trans (one_div_two_pow_le h)⟩

/-- A number is near its own value. -/
theorem near_of_toRat? (hx : x.toRat? = some q) : x.Near k q :=
  ⟨q, hx, by simp⟩

theorem near_one : Near k 1 1 := near_of_toRat? (by simpa using toRat?_ofNat 1)

theorem near_ofNat (n : Nat) [n.AtLeastTwo] : Near k (OfNat.ofNat n) (OfNat.ofNat n) := by
  rw [← Nat.cast_ofNat (R := ℚ)]
  exact near_of_toRat? (toRat?_ofNat n)

/-- Fractions of one are below every power of two. -/
theorem abs_le_two_pow (h : 0 ≤ q ∧ q ≤ 1) : |q| ≤ 2 ^ k := by
  rw [abs_of_nonneg h.1]
  exact h.2.trans (one_le_pow₀ one_le_two)

/-- What is near one number is near every other that differs from it by no more. -/
theorem Near.of_abs_sub_le (hx : x.Near (k + 1) p) (hpq : |p - q| ≤ 1 / 2 ^ (k + 1)) :
    x.Near k q := by
  obtain ⟨v, hv, herror⟩ := hx
  refine ⟨v, hv, ?_⟩
  calc |v - q| ≤ |v - p| + |p - q| := abs_sub_le v p q
    _ ≤ 1 / 2 ^ (k + 1) + 1 / 2 ^ (k + 1) := add_le_add herror hpq
    _ = 1 / 2 ^ k := one_div_two_pow_succ k

/-- Rounding is one such difference. -/
theorem near_of_roundRat (hx : x.toRat? = some (roundRat p)) (hp : |p| ≤ 2 ^ 12)
    (hpq : |p - q| ≤ 1 / 2 ^ (k + 1)) (hk : k ≤ 39) : x.Near k q := by
  have hround := abs_roundRat_sub_le_of_abs (j := k + 1) hp (by omega)
  exact Near.of_abs_sub_le ⟨_, hx, hround⟩ hpq

/-- A number near a small one is small. -/
theorem abs_le_of_near {v : ℚ} (herror : |v - q| ≤ 1 / 2 ^ k) (hq : |q| ≤ 2 ^ i) :
    |v| ≤ 2 ^ (i + 1) := by
  have hone : (1 : ℚ) ≤ 2 ^ i := one_le_pow₀ one_le_two
  calc |v| ≤ |v - q| + |q| := by simpa using abs_sub_le v q 0
    _ ≤ 1 + 2 ^ i := add_le_add (herror.trans (one_div_two_pow_le_one k)) hq
    _ ≤ 2 ^ (i + 1) := by rw [pow_succ]; linarith

/-- An operation keeps its exact result up to one bit, whether it rounds or not. -/
theorem combine_near {exact : Int → Int → Int} {rounded : Binary64 → Binary64 → Binary64}
    (op : ℚ → ℚ → ℚ) (hexact : ∀ a b : Int, ((exact a b : Int) : ℚ) = op a b)
    (hop : ∀ {f g : Binary64} {a b : ℚ}, f.toRat? = some a → g.toRat? = some b →
      |op a b| ≤ safeMagnitude → (rounded f g).toRat? = some (roundRat (op a b)))
    (hx : x.toRat? = some a) (hy : y.toRat? = some b) (ha : |a| ≤ 2 ^ 12) (hb : |b| ≤ 2 ^ 12)
    (hab : |op a b| ≤ 2 ^ 12) (hq : |op a b - q| ≤ 1 / 2 ^ (k + 1)) (hk : k ≤ 39) :
    Yields (combine exact rounded x y) (Near k q) := by
  refine (combine_round op hexact hop hx hy (ha.trans (by norm_num)) (hb.trans (by norm_num))
    (hab.trans (by norm_num))).mono fun z hz => ?_
  exact near_of_roundRat hz hab hq hk

/-- A sum costs two bits. -/
theorem add_near (hx : x.Near (k + 2) a) (hy : y.Near (k + 2) b) (ha : |a| ≤ 2 ^ 9)
    (hb : |b| ≤ 2 ^ 9) (hk : k ≤ 39) : Yields (x.add y) (Near k (a + b)) := by
  obtain ⟨v, hv, hva⟩ := hx
  obtain ⟨w, hw, hwb⟩ := hy
  have hv' := abs_le_of_near hva ha
  have hw' := abs_le_of_near hwb hb
  refine combine_near (· + ·) (fun a b => by push_cast; rfl) toRat?_add hv hw
    (hv'.trans (by norm_num)) (hw'.trans (by norm_num)) ?_ ?_ hk
  · calc |v + w| ≤ |v| + |w| := abs_add_le v w
      _ ≤ 2 ^ (9 + 1) + 2 ^ (9 + 1) := add_le_add hv' hw'
      _ ≤ 2 ^ 12 := by norm_num
  · calc |v + w - (a + b)| = |(v - a) + (w - b)| := by ring_nf
      _ ≤ |v - a| + |w - b| := abs_add_le _ _
      _ ≤ 1 / 2 ^ (k + 2) + 1 / 2 ^ (k + 2) := add_le_add hva hwb
      _ = 1 / 2 ^ (k + 1) := one_div_two_pow_succ (k + 1)

/-- So does a difference. -/
theorem sub_near (hx : x.Near (k + 2) a) (hy : y.Near (k + 2) b) (ha : |a| ≤ 2 ^ 9)
    (hb : |b| ≤ 2 ^ 9) (hk : k ≤ 39) : Yields (x.sub y) (Near k (a - b)) := by
  obtain ⟨v, hv, hva⟩ := hx
  obtain ⟨w, hw, hwb⟩ := hy
  have hv' := abs_le_of_near hva ha
  have hw' := abs_le_of_near hwb hb
  refine combine_near (· - ·) (fun a b => by push_cast; rfl) toRat?_sub hv hw
    (hv'.trans (by norm_num)) (hw'.trans (by norm_num)) ?_ ?_ hk
  · calc |v - w| ≤ |v| + |w| := abs_sub v w
      _ ≤ 2 ^ (9 + 1) + 2 ^ (9 + 1) := add_le_add hv' hw'
      _ ≤ 2 ^ 12 := by norm_num
  · calc |v - w - (a - b)| = |(v - a) - (w - b)| := by ring_nf
      _ ≤ |v - a| + |w - b| := abs_sub _ _
      _ ≤ 1 / 2 ^ (k + 2) + 1 / 2 ^ (k + 2) := add_le_add hva hwb
      _ = 1 / 2 ^ (k + 1) := one_div_two_pow_succ (k + 1)

/-- The error of a product: each factor carries its error times the other factor, and the product
of the two errors is smaller than either. -/
theorem abs_mul_sub_le {v w : ℚ} (hva : |v - a| ≤ 1 / 2 ^ (k + j + 2))
    (hwb : |w - b| ≤ 1 / 2 ^ (k + i + 2)) (ha : |a| ≤ 2 ^ i) (hb : |b| ≤ 2 ^ j) :
    |v * w - a * b| ≤ 1 / 2 ^ k := by
  -- an error in either factor is multiplied by the other, and the product of both is smaller still
  have hfirst : |v - a| * |b| ≤ 1 / 2 ^ (k + 2) := calc
    |v - a| * |b| ≤ 1 / 2 ^ (k + j + 2) * 2 ^ j :=
      mul_le_mul hva hb (abs_nonneg b) (by positivity)
    _ = 1 / 2 ^ (k + 2) := by rw [show k + j + 2 = (k + 2) + j by omega, pow_add]; field_simp
  have hsecond : |a| * |w - b| ≤ 1 / 2 ^ (k + 2) := calc
    |a| * |w - b| ≤ 2 ^ i * (1 / 2 ^ (k + i + 2)) :=
      mul_le_mul ha hwb (abs_nonneg _) (by positivity)
    _ = 1 / 2 ^ (k + 2) := by rw [show k + i + 2 = (k + 2) + i by omega, pow_add]; field_simp
  have hboth : |v - a| * |w - b| ≤ 1 / 2 ^ (k + 2) := calc
    |v - a| * |w - b| ≤ 1 * (1 / 2 ^ (k + i + 2)) :=
      mul_le_mul (hva.trans (one_div_two_pow_le_one _)) hwb (abs_nonneg _) zero_le_one
    _ ≤ 1 / 2 ^ (k + 2) := by rw [one_mul]; exact one_div_two_pow_le (by omega)
  have hpos : (0 : ℚ) ≤ 1 / 2 ^ (k + 2) := by positivity
  calc |v * w - a * b| = |(v - a) * b + a * (w - b) + (v - a) * (w - b)| := by ring_nf
    _ ≤ |(v - a) * b| + |a * (w - b)| + |(v - a) * (w - b)| :=
      (abs_add_le _ _).trans (add_le_add (abs_add_le _ _) le_rfl)
    _ = |v - a| * |b| + |a| * |w - b| + |v - a| * |w - b| := by simp only [abs_mul]
    _ ≤ (1 / 2 ^ (k + 2) + 1 / 2 ^ (k + 2)) + (1 / 2 ^ (k + 2) + 1 / 2 ^ (k + 2)) := by linarith
    _ = 1 / 2 ^ k := by rw [one_div_two_pow_succ, one_div_two_pow_succ]

/-- A product costs three bits and those of the other factor. -/
theorem mul_near (hx : x.Near (k + j + 3) a) (hy : y.Near (k + i + 3) b) (ha : |a| ≤ 2 ^ i)
    (hb : |b| ≤ 2 ^ j) (hij : i + j ≤ 10) (hk : k ≤ 39) : Yields (x.mul y) (Near k (a * b)) := by
  obtain ⟨v, hv, hva⟩ := hx
  obtain ⟨w, hw, hwb⟩ := hy
  have hv' := abs_le_of_near hva ha
  have hw' := abs_le_of_near hwb hb
  have hsmall : ∀ {n : Nat}, n ≤ 12 → (2 : ℚ) ^ n ≤ 2 ^ 12 :=
    fun hn => pow_le_pow_right₀ one_le_two hn
  refine combine_near (· * ·) (fun a b => by push_cast; rfl) toRat?_mul hv hw
    (hv'.trans (hsmall (by omega))) (hw'.trans (hsmall (by omega))) ?_ ?_ hk
  · calc |v * w| = |v| * |w| := abs_mul v w
      _ ≤ 2 ^ (i + 1) * 2 ^ (j + 1) := mul_le_mul hv' hw' (abs_nonneg w) (by positivity)
      _ = 2 ^ (i + 1 + (j + 1)) := (pow_add _ _ _).symm
      _ ≤ 2 ^ 12 := hsmall (by omega)
  · refine abs_mul_sub_le (i := i) (j := j) ?_ ?_ ha hb
    · rwa [show k + 1 + j + 2 = k + j + 3 by omega]
    · rwa [show k + 1 + i + 2 = k + i + 3 by omega]

/-- The error of a quotient of at most one by a number that is not too close to zero. -/
theorem abs_div_sub_le {v w : ℚ} {m : Nat} (hva : |v - a| ≤ 1 / 2 ^ (k + m + 2))
    (hwb : |w - b| ≤ 1 / 2 ^ (k + m + 2)) (hb : 1 / 2 ^ m ≤ b) (hab : |a| ≤ b) :
    0 < w ∧ |v / w - a / b| ≤ 1 / 2 ^ k := by
  have hpos : (0 : ℚ) < b := lt_of_lt_of_le (by positivity) hb
  -- the divisor loses less than half of what keeps it from zero
  have hw : 1 / 2 ^ (m + 1) ≤ w := by
    have hsmall := hwb.trans (one_div_two_pow_le (j := m + 1) (by omega))
    have hsplit := one_div_two_pow_succ m
    linarith [(abs_le.mp hsmall).1]
  have hwpos : 0 < w := lt_of_lt_of_le (by positivity) hw
  refine ⟨hwpos, ?_⟩
  have hquotient : |a / b| ≤ 1 := by
    rw [abs_div, abs_of_pos hpos]
    exact (div_le_one hpos).mpr hab
  have hnumerator : |(v - a) - a / b * (w - b)| ≤ 1 / 2 ^ (k + (m + 1)) := calc
    |(v - a) - a / b * (w - b)| ≤ |v - a| + |a / b * (w - b)| := abs_sub _ _
    _ = |v - a| + |a / b| * |w - b| := by rw [abs_mul]
    _ ≤ 1 / 2 ^ (k + m + 2) + 1 * (1 / 2 ^ (k + m + 2)) :=
      add_le_add hva (mul_le_mul hquotient hwb (abs_nonneg _) zero_le_one)
    _ = 1 / 2 ^ (k + (m + 1)) := by rw [one_mul]; exact one_div_two_pow_succ (k + (m + 1))
  have hidentity : v / w - a / b = ((v - a) - a / b * (w - b)) / w := by
    field_simp
    ring
  calc |v / w - a / b| = |(v - a) - a / b * (w - b)| / w := by
        rw [hidentity, abs_div, abs_of_pos hwpos]
    _ ≤ 1 / 2 ^ (k + (m + 1)) / (1 / 2 ^ (m + 1)) :=
      div_le_div₀ (by positivity) hnumerator (by positivity) hw
    _ = 1 / 2 ^ k := by rw [pow_add]; field_simp

/-- A quotient of at most one costs three bits and those by which the divisor is kept from zero. -/
theorem div_near {m : Nat} (hx : x.Near (k + m + 3) a) (hy : y.Near (k + m + 3) b)
    (hb : 1 / 2 ^ m ≤ b) (hb' : b ≤ 2 ^ 9) (hab : |a| ≤ b) (hk : k ≤ 39) :
    Yields (x.div y) fun f => (float f).Near k (a / b) := by
  obtain ⟨v, hv, hva⟩ := hx
  obtain ⟨w, hw, hwb⟩ := hy
  have hpos : (0 : ℚ) < b := lt_of_lt_of_le (by positivity) hb
  have hv' := abs_le_of_near hva (hab.trans hb')
  have hw' := abs_le_of_near hwb ((abs_of_pos hpos).trans_le hb')
  rw [show k + m + 3 = k + 1 + m + 2 by omega] at hva hwb
  obtain ⟨hwpos, herror⟩ := abs_div_sub_le hva hwb hb hab
  have hquotient : |v / w| ≤ 2 ^ (0 + 1) := by
    refine abs_le_of_near herror ?_
    rw [abs_div, abs_of_pos hpos, pow_zero]
    exact (div_le_one hpos).mpr hab
  refine (div_spec hv hw hwpos.ne' (hv'.trans (by norm_num)) (hw'.trans (by norm_num))
    (hquotient.trans (by norm_num))).mono fun f hf => ?_
  exact near_of_roundRat hf (hquotient.trans (by norm_num)) herror hk

/-- A quotient by a positive integer costs one bit. -/
theorem div_ofNat_near {n : Nat} [n.AtLeastTwo] (hx : x.Near (k + 1) a) (hn : n ≤ 2 ^ 9)
    (ha : |a| ≤ 2 ^ 9) (hk : k ≤ 39) :
    Yields (x.div (OfNat.ofNat n)) fun f => (float f).Near k (a / OfNat.ofNat n) := by
  obtain ⟨v, hv, hva⟩ := hx
  have hone : (1 : ℚ) ≤ n := by exact_mod_cast Nat.one_le_of_lt (Nat.AtLeastTwo.prop (n := n))
  -- a divisor of at least one makes neither the number nor its error larger
  have hshrink : ∀ u : ℚ, |u / n| ≤ |u| := by
    intro u
    rw [abs_div, Nat.abs_cast]
    exact div_le_self (abs_nonneg u) hone
  have hv' := abs_le_of_near hva ha
  have hquotient : |v / n| ≤ 2 ^ 12 := (hshrink v).trans (hv'.trans (by norm_num))
  have hdivisor : |(n : ℚ)| ≤ 2 ^ 9 := by
    rw [Nat.abs_cast]
    exact_mod_cast hn
  refine (div_spec hv (toRat?_ofNat n) (by positivity) (hv'.trans (by norm_num))
    (hdivisor.trans (by norm_num)) (hquotient.trans (by norm_num))).mono fun f hf => ?_
  have hliteral : (OfNat.ofNat n : ℚ) = n := (Nat.cast_ofNat (R := ℚ)).symm
  refine near_of_roundRat hf hquotient ?_ hk
  rw [hliteral, ← sub_div]
  exact (hshrink _).trans hva

/-- The binary64 number nearest to a fraction of one. -/
theorem roundRat_fraction {n d : Nat} (hnd : n ≤ d) (hd : 0 < d) :
    0 ≤ roundRat (n / d) ∧ roundRat (n / d) ≤ 1 ∧ |roundRat (n / d) - n / d| ≤ 1 / 2 ^ 39 := by
  have hpos : (0 : ℚ) < d := by exact_mod_cast hd
  have hlow : (0 : ℚ) ≤ n / d := by positivity
  have hhigh : (n : ℚ) / d ≤ 1 := (div_le_one hpos).mpr (by exact_mod_cast hnd)
  have habs : |(n : ℚ) / d| ≤ 2 ^ 12 := by
    rw [abs_of_nonneg hlow]
    exact hhigh.trans (by norm_num)
  exact ⟨roundRat_nonneg hlow, roundRat_le_one hhigh,
    abs_roundRat_sub_le_of_abs habs (by norm_num)⟩

/-- A fraction of one is rounded once. -/
theorem div_fraction {n d : Nat} (hx : x.toRat? = some (n : ℚ)) (hd : 0 < d) (hnd : n ≤ d)
    (hd' : d ≤ 2 ^ 9) :
    Yields (x.div (instOfNat d).ofNat) fun f => f.toRat? = some (roundRat (n / d)) := by
  have hcast : ∀ {m : Nat}, m ≤ d → |(m : ℚ)| ≤ 2 ^ 52 := by
    intro m hm
    rw [Nat.abs_cast]
    exact_mod_cast (hm.trans hd').trans (by norm_num)
  have hpos : (0 : ℚ) < d := by exact_mod_cast hd
  refine div_spec hx (toRat?_ofNat d) hpos.ne' (hcast hnd) (hcast le_rfl) ?_
  rw [abs_of_nonneg (by positivity)]
  exact ((div_le_one hpos).mpr (by exact_mod_cast hnd)).trans (by norm_num)

/-! ## Comparison and rounding -/

/-- Comparing with an integer places the exact result, up to the error. -/
theorem lt_or_ge_of_near (hx : x.Near k q) (n : Nat) :
    (x.lt (instOfNat n).ofNat = true ∧ q ≤ n + 1 / 2 ^ k) ∨
      (x.lt (instOfNat n).ofNat = false ∧ n - 1 / 2 ^ k ≤ q) := by
  obtain ⟨v, hv, herror⟩ := hx
  obtain ⟨hlow, hhigh⟩ := abs_le.mp herror
  have hiff := lt_iff hv (toRat?_ofNat n)
  by_cases hlt : v < n
  · exact .inl ⟨hiff.mpr hlt, by linarith⟩
  · refine .inr ⟨Bool.eq_false_iff.mpr (hiff.not.mpr hlt), ?_⟩
    linarith [not_lt.mp hlt]

/-- Rounding to an integer adds one half to the error. -/
theorem roundHalfUp_near (hx : x.Near (k + 1) q) (hq : |q| ≤ 2 ^ 10) (hk : k ≤ 39) :
    Yields x.roundHalfUp fun n => |(n : ℚ) - q| ≤ 1 / 2 + 1 / 2 ^ k := by
  obtain ⟨v, hv, herror⟩ := hx
  have hv' := abs_le_of_near herror hq
  have hsum : |v + 1 / 2| ≤ 2 ^ 12 := calc
    |v + 1 / 2| ≤ |v| + |1 / 2| := abs_add_le _ _
    _ ≤ 2 ^ (10 + 1) + 1 := add_le_add hv' (by norm_num [abs_of_pos])
    _ ≤ 2 ^ 12 := by norm_num
  have hround := abs_roundRat_sub_le_of_abs (j := k + 1) hsum (by omega)
  refine ⟨_, roundHalfUp_spec hv (hv'.trans (by norm_num)), abs_le.mpr ?_⟩
  -- the floor lies less than one below the rounded sum
  have hfloor := Int.floor_le (roundRat (v + 1 / 2))
  have hfloor' := Int.lt_floor_add_one (roundRat (v + 1 / 2))
  have hsplit := one_div_two_pow_succ k
  obtain ⟨h₁, h₂⟩ := abs_le.mp hround
  obtain ⟨h₃, h₄⟩ := abs_le.mp herror
  constructor <;> linarith

/-- The remainder of a number below the modulus is that number. -/
theorem mod_eq_self {modulus : Nat} (hx : x.toRat? = some q) (hlow : 0 ≤ q) (hhigh : q < modulus)
    (hsmall : modulus ≤ 2 ^ 52) : (x.mod modulus).toRat? = some q := by
  cases x with
  | int n =>
    obtain rfl : (n : ℚ) = q := by simpa using hx
    have hn : 0 ≤ n := by exact_mod_cast hlow
    have hn' : n < modulus := by exact_mod_cast hhigh
    rw [mod, Int.emod_eq_of_lt hn hn', toRat?_int]
  | float f =>
    have hround : roundRat q = q := roundRat_of_toRat? (x := f) hx
    obtain ⟨negative, rank, rfl, hvalue⟩ := exists_of_toRat? hx
    have hone : (0 : ℚ) < grainsPerOne := by exact_mod_cast grainsPerOne_pos
    have hgrains : (signedGrains negative rank : ℚ) = q * grainsPerOne := by
      rw [hvalue, div_mul_cancel₀ _ hone.ne']
    have hnonneg : 0 ≤ signedGrains negative rank := signedGrains_nonneg (hvalue ▸ hlow)
    have hlt : signedGrains negative rank < ((modulus * grainsPerOne : Nat) : Int) := by
      have hcast : (signedGrains negative rank : ℚ) < modulus * grainsPerOne :=
        hgrains ▸ mul_lt_mul_of_pos_right hhigh hone
      exact_mod_cast hcast
    have hsafe : |q| ≤ safeMagnitude := by
      refine le_safeMagnitude (k := 52) ?_ (by norm_num)
      rw [abs_of_nonneg hlow]
      exact hhigh.le.trans (by exact_mod_cast hsmall)
    -- the grains are their own remainder, and they are those of a number already
    rw [mod, Binary64.mod, Int.emod_eq_of_lt hnonneg hlt, toRat?_float,
      toRat?_ofGrains false _ (hvalue ▸ hsafe), ← hvalue, hround]

end Near

end Number

end CssColor
