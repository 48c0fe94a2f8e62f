import CssColor.Proofs.Number.Value
import CssColor.Proofs.Outcome

/-!
# Arithmetic on numbers of moderate size

Colors are computed from numbers far below `2 ^ 52`. Integers of that size are binary64 numbers, so
an operation in which a binary64 number takes part rounds the exact result of the two values, and no
operation but a division by zero fails.

## Main definitions

* `Number.toRat?`: the exact value of a finite number.
* `Number.IsFloat`: the number is a binary64 number.
* `Number.Within`: the number is finite and below a power of two.

## Main results

* `Number.add_spec`, `sub_spec`, `mul_spec`, `div_spec`: the operations round exact results.
* `Number.lt_iff`, `le_iff`, `sameValue_iff`: comparison is that of the exact values.
* `Number.roundHalfUp_spec`: the sum with one half is rounded before its floor is taken.
* `Number.clamp_spec`: any number at all, a NaN included, is moved between two bounds.
* `Number.add_within`, `sub_within`, `mul_within`, `div_within`: operations on numbers below powers
  of two neither fail nor leave a power of two that the exact result does not leave.
-/

namespace CssColor.Number

open Binary64

/-- The exact value of a finite number. -/
def toRat? : Number → Option ℚ
  | int n => some n
  | float x => x.toRat?

/-- The number is a binary64 number. -/
def IsFloat (x : Number) : Prop := ∃ f, x = float f

@[simp] theorem isFloat_float (f : Binary64) : (float f).IsFloat := ⟨f, rfl⟩

@[simp] theorem toRat?_int (n : Int) : (int n).toRat? = some (n : ℚ) := rfl

@[simp] theorem toRat?_float (f : Binary64) : (float f).toRat? = f.toRat? := rfl

theorem toRat?_ofNat (n : Nat) : (instOfNat n).ofNat.toRat? = some (n : ℚ) := by
  simp [toRat?]

/-! ## Conversion -/

/-- Integers of moderate size are binary64 numbers. -/
theorem roundRat_intCast {n : Int} (h : |(n : ℚ)| ≤ 2 ^ 52) : roundRat n = n := by
  have hlt : n.natAbs < 2 ^ 53 := by
    have hcast : ((n.natAbs : ℕ) : ℚ) ≤ 2 ^ 52 := by rwa [Nat.cast_natAbs, Int.cast_abs]
    have hle : n.natAbs ≤ 2 ^ 52 := by exact_mod_cast hcast
    exact lt_of_le_of_lt hle (by norm_num)
  rcases le_or_gt 0 n with hn | hn
  · obtain ⟨m, rfl⟩ := Int.eq_ofNat_of_zero_le hn
    simpa using roundRat_natCast hlt
  · obtain ⟨m, hm⟩ := Int.eq_ofNat_of_zero_le (show 0 ≤ -n by omega)
    obtain rfl : n = -(m : Int) := by omega
    have hround : roundRat (m : ℚ) = m := roundRat_natCast (by omega)
    push_cast
    rw [roundRat_neg, hround]

/-- The numbers of color arithmetic are far below the bound of exact integers. -/
theorem abs_le_of_nonneg {q : ℚ} (hlow : 0 ≤ q) (hhigh : q ≤ 2 ^ 12) : |q| ≤ 2 ^ 52 := by
  rw [abs_of_nonneg hlow]
  exact hhigh.trans (by norm_num)

theorem le_safeMagnitude {q : ℚ} {k : Nat} (h : |q| ≤ 2 ^ k) (hk : k ≤ 1000) :
    |q| ≤ safeMagnitude :=
  h.trans (two_pow_le_safeMagnitude hk)

/-- The magnitude of an integer, counted in grains. -/
theorem natAbs_mul_div_grainsPerOne (n : Int) :
    ((n.natAbs * grainsPerOne : ℕ) : ℚ) / ((1 : ℕ) * grainsPerOne) = |(n : ℚ)| := by
  have hpos : (grainsPerOne : ℚ) ≠ 0 := by exact_mod_cast grainsPerOne_pos.ne'
  rw [Nat.cast_mul, mul_div_mul_right _ _ hpos, Nat.cast_one, div_one, Nat.cast_natAbs,
    Int.cast_abs]

/-- The number nearest to an integer has the rounded value, unless it overflows. -/
theorem toRat?_ofInt_of_lt {n : Int}
    (hlt : nearestRank (n.natAbs * grainsPerOne) 1 < 2047 * 2 ^ 52) :
    (ofInt n).toRat? = some (roundRat n) := by
  have hsign : (if decide (n < 0) = true then -|(n : ℚ)| else |(n : ℚ)|) = n := by
    rcases lt_or_ge n 0 with hn | hn
    · have hq : (n : ℚ) < 0 := by exact_mod_cast hn
      rw [if_pos (by simpa using hn), abs_of_neg hq]
      simp
    · have hq : (0 : ℚ) ≤ n := by exact_mod_cast hn
      rw [if_neg (by simpa using hn), abs_of_nonneg hq]
  rw [ofInt, ofRatio,
    toRat?_ofGrainRatio_of_lt _ Nat.one_pos (natAbs_mul_div_grainsPerOne n) hlt, hsign]

/-- Integers of moderate size are binary64 numbers. -/
theorem toRat?_ofInt {n : Int} (h : |(n : ℚ)| ≤ 2 ^ 52) : (ofInt n).toRat? = some (n : ℚ) := by
  have hsafe : |(n : ℚ)| ≤ safeMagnitude := le_safeMagnitude h (by norm_num)
  have hlt := nearestRank_lt_of_safe Nat.one_pos (natAbs_mul_div_grainsPerOne n ▸ hsafe)
  rw [toRat?_ofInt_of_lt hlt, roundRat_intCast h]

theorem fromRounding_of_toRat? {f : Binary64} {q : ℚ} (h : f.toRat? = some q) :
    fromRounding f = .ok f := by
  obtain ⟨negative, rank, rfl, -⟩ := exists_of_toRat? h
  rfl

/-- A number of moderate size keeps its value when it becomes a binary64 number. -/
theorem toBinary64_spec {x : Number} {q : ℚ} (hx : x.toRat? = some q) (hq : |q| ≤ 2 ^ 52) :
    Yields x.toBinary64 fun f => f.toRat? = some q := by
  cases x with
  | float f => exact .ok hx
  | int n =>
    obtain rfl : (n : ℚ) = q := by simpa using hx
    have hn := toRat?_ofInt hq
    exact ⟨ofInt n, fromRounding_of_toRat? hn, hn⟩

/-! ## Operations -/

section Operations

variable {x y : Number} {a b : ℚ}

/-- An operation in which a binary64 number takes part rounds its exact result. -/
theorem combine_spec {exact : Int → Int → Int} {rounded : Binary64 → Binary64 → Binary64}
    (op : ℚ → ℚ → ℚ)
    (hop : ∀ {f g : Binary64} {a b : ℚ}, f.toRat? = some a → g.toRat? = some b →
      |op a b| ≤ safeMagnitude → (rounded f g).toRat? = some (roundRat (op a b)))
    (hx : x.toRat? = some a) (hy : y.toRat? = some b) (hfloat : x.IsFloat ∨ y.IsFloat)
    (ha : |a| ≤ 2 ^ 52) (hb : |b| ≤ 2 ^ 52) (hbound : |op a b| ≤ 2 ^ 104) :
    Yields (combine exact rounded x y)
      fun z => z.IsFloat ∧ z.toRat? = some (roundRat (op a b)) := by
  -- both operands are made binary64 numbers as soon as one of them is
  have hstep : Yields (do
      let f ← x.toBinary64
      let g ← y.toBinary64
      return float (rounded f g)) fun z => z.IsFloat ∧ z.toRat? = some (roundRat (op a b)) := by
    refine (toBinary64_spec hx ha).bind fun f hf => (toBinary64_spec hy hb).bind fun g hg => ?_
    exact .ok ⟨isFloat_float _, hop hf hg (le_safeMagnitude hbound (by norm_num))⟩
  cases x with
  | float f => exact hstep
  | int m =>
    cases y with
    | float g => exact hstep
    | int n => simp [IsFloat] at hfloat

/-- An operation on numbers of moderate size rounds its exact result, also that of two integers,
which is one already. -/
theorem combine_round {exact : Int → Int → Int} {rounded : Binary64 → Binary64 → Binary64}
    (op : ℚ → ℚ → ℚ) (hexact : ∀ a b : Int, ((exact a b : Int) : ℚ) = op a b)
    (hop : ∀ {f g : Binary64} {a b : ℚ}, f.toRat? = some a → g.toRat? = some b →
      |op a b| ≤ safeMagnitude → (rounded f g).toRat? = some (roundRat (op a b)))
    (hx : x.toRat? = some a) (hy : y.toRat? = some b) (ha : |a| ≤ 2 ^ 52) (hb : |b| ≤ 2 ^ 52)
    (hab : |op a b| ≤ 2 ^ 52) :
    Yields (combine exact rounded x y) fun z => z.toRat? = some (roundRat (op a b)) := by
  by_cases hfloat : x.IsFloat ∨ y.IsFloat
  · exact (combine_spec op hop hx hy hfloat ha hb (hab.trans (by norm_num))).mono fun z hz => hz.2
  · match x, y with
    | int m, int n =>
      obtain rfl : (m : ℚ) = a := by simpa using hx
      obtain rfl : (n : ℚ) = b := by simpa using hy
      rw [← hexact] at hab ⊢
      rw [roundRat_intCast hab]
      exact .ok (toRat?_int _)
    | float f, _ => exact absurd (.inl (isFloat_float f)) hfloat
    | _, float g => exact absurd (.inr (isFloat_float g)) hfloat

/-- A sum with a binary64 number is one itself, rounded from the exact sum. -/
theorem add_spec (hx : x.toRat? = some a) (hy : y.toRat? = some b)
    (hfloat : x.IsFloat ∨ y.IsFloat) (ha : |a| ≤ 2 ^ 52) (hb : |b| ≤ 2 ^ 52) :
    Yields (x.add y) fun z => z.IsFloat ∧ z.toRat? = some (roundRat (a + b)) := by
  refine combine_spec (· + ·) toRat?_add hx hy hfloat ha hb ?_
  calc |a + b| ≤ |a| + |b| := abs_add_le a b
    _ ≤ 2 ^ 52 + 2 ^ 52 := add_le_add ha hb
    _ ≤ 2 ^ 104 := by norm_num

theorem sub_spec (hx : x.toRat? = some a) (hy : y.toRat? = some b)
    (hfloat : x.IsFloat ∨ y.IsFloat) (ha : |a| ≤ 2 ^ 52) (hb : |b| ≤ 2 ^ 52) :
    Yields (x.sub y) fun z => z.IsFloat ∧ z.toRat? = some (roundRat (a - b)) := by
  refine combine_spec (· - ·) toRat?_sub hx hy hfloat ha hb ?_
  calc |a - b| ≤ |a| + |b| := abs_sub a b
    _ ≤ 2 ^ 52 + 2 ^ 52 := add_le_add ha hb
    _ ≤ 2 ^ 104 := by norm_num

theorem mul_spec (hx : x.toRat? = some a) (hy : y.toRat? = some b)
    (hfloat : x.IsFloat ∨ y.IsFloat) (ha : |a| ≤ 2 ^ 52) (hb : |b| ≤ 2 ^ 52) :
    Yields (x.mul y) fun z => z.IsFloat ∧ z.toRat? = some (roundRat (a * b)) := by
  refine combine_spec (· * ·) toRat?_mul hx hy hfloat ha hb ?_
  calc |a * b| = |a| * |b| := abs_mul a b
    _ ≤ 2 ^ 52 * 2 ^ 52 := mul_le_mul ha hb (abs_nonneg b) (by positivity)
    _ ≤ 2 ^ 104 := by norm_num

/-- The sum of moderate numbers of either kind is the exact sum, rounded. -/
theorem add_round (hx : x.toRat? = some a) (hy : y.toRat? = some b) (ha : |a| ≤ 2 ^ 51)
    (hb : |b| ≤ 2 ^ 51) : Yields (x.add y) fun z => z.toRat? = some (roundRat (a + b)) := by
  refine combine_round (· + ·) (fun a b => by push_cast; rfl) toRat?_add hx hy
    (ha.trans (by norm_num)) (hb.trans (by norm_num)) ?_
  exact (abs_add_le a b).trans (by linarith)

theorem sub_round (hx : x.toRat? = some a) (hy : y.toRat? = some b) (ha : |a| ≤ 2 ^ 51)
    (hb : |b| ≤ 2 ^ 51) : Yields (x.sub y) fun z => z.toRat? = some (roundRat (a - b)) := by
  refine combine_round (· - ·) (fun a b => by push_cast; rfl) toRat?_sub hx hy
    (ha.trans (by norm_num)) (hb.trans (by norm_num)) ?_
  exact (abs_sub a b).trans (by linarith)

/-- A product of moderate size is rounded, also that of two integers, which is one already. -/
theorem mul_round (hx : x.toRat? = some a) (hy : y.toRat? = some b) (ha : |a| ≤ 2 ^ 52)
    (hb : |b| ≤ 2 ^ 52) (hab : |a * b| ≤ 2 ^ 52) :
    Yields (x.mul y) fun z => z.toRat? = some (roundRat (a * b)) :=
  combine_round (· * ·) (fun a b => by push_cast; rfl) toRat?_mul hx hy ha hb hab

theorem isZero_eq_false {f : Binary64} {q : ℚ} (hf : f.toRat? = some q) (hq : q ≠ 0) :
    f.isZero = false := by
  obtain ⟨negative, rank, rfl, rfl⟩ := exists_of_toRat? hf
  have hrank : rank.val ≠ 0 := by
    intro hzero
    rw [signedGrains_div, hzero, rankValue, grainsOfRank_of_lt (by positivity)] at hq
    simp at hq
  simpa [isZero] using hrank

/-- A quotient is rounded once, also that of two integers. -/
theorem div_spec (hx : x.toRat? = some a) (hy : y.toRat? = some b) (hb : b ≠ 0)
    (ha : |a| ≤ 2 ^ 52) (hb' : |b| ≤ 2 ^ 52) (hbound : |a / b| ≤ 2 ^ 104) :
    Yields (x.div y) fun f => f.toRat? = some (roundRat (a / b)) := by
  have hsafe : |a / b| ≤ safeMagnitude := le_safeMagnitude hbound (by norm_num)
  have hstep : Yields (do
      let f ← x.toBinary64
      let g ← y.toBinary64
      if g.isZero then throw .divisionByZero else return f.div g)
      fun f => f.toRat? = some (roundRat (a / b)) := by
    refine (toBinary64_spec hx ha).bind fun f hf => (toBinary64_spec hy hb').bind fun g hg => ?_
    rw [isZero_eq_false hg hb]
    exact .ok (Binary64.toRat?_div hf hg hb hsafe)
  cases x with
  | float f => exact hstep
  | int m =>
    cases y with
    | float g => exact hstep
    | int n =>
      obtain rfl : (m : ℚ) = a := by simpa using hx
      obtain rfl : (n : ℚ) = b := by simpa using hy
      have hn : n ≠ 0 := by exact_mod_cast hb
      have habs : ((m.natAbs : ℕ) : ℚ) / n.natAbs = |(m : ℚ) / n| := by
        rw [abs_div, Nat.cast_natAbs, Nat.cast_natAbs, Int.cast_abs, Int.cast_abs]
      -- the sign of the quotient is found from those of the two integers
      have hsign : (if (decide (m < 0) ^^ decide (n < 0)) = true then -|(m : ℚ) / n|
          else |(m : ℚ) / n|) = m / n := by
        rcases lt_or_ge m 0 with hm | hm <;> rcases lt_or_gt_of_ne hn with hneg | hpos
        · have hq : 0 ≤ (m : ℚ) / n :=
            div_nonneg_of_nonpos (by exact_mod_cast hm.le) (by exact_mod_cast hneg.le)
          simp [hm, hneg, abs_of_nonneg hq]
        · have hq : (m : ℚ) / n ≤ 0 :=
            div_nonpos_of_nonpos_of_nonneg (by exact_mod_cast hm.le) (by exact_mod_cast hpos.le)
          simp [hm, hpos.le, abs_of_nonpos hq]
        · have hq : (m : ℚ) / n ≤ 0 :=
            div_nonpos_of_nonneg_of_nonpos (by exact_mod_cast hm) (by exact_mod_cast hneg.le)
          simp [not_lt.mpr hm, hneg, abs_of_nonpos hq]
        · have hq : 0 ≤ (m : ℚ) / n :=
            div_nonneg (by exact_mod_cast hm) (by exact_mod_cast hpos.le)
          simp [not_lt.mpr hm, hpos.le, abs_of_nonneg hq]
      have hround := toRat?_ofRatio (decide (m < 0) ^^ decide (n < 0))
        (Int.natAbs_pos.mpr hn) (habs ▸ hsafe)
      rw [habs, hsign] at hround
      refine ⟨_, ?_, hround⟩
      rw [div, if_neg hn]
      exact fromRounding_of_toRat? hround

/-- Any binary64 number at all can be divided by a positive integer. -/
theorem float_div_ofNat (f : Binary64) {n : Nat} (hn : 0 < n) (hn' : n ≤ 2 ^ 52) :
    ∃ g, (float f).div (instOfNat n).ofNat = .ok g := by
  have hn₀ : (n : ℚ) ≠ 0 := by exact_mod_cast hn.ne'
  have hbound : |(n : ℚ)| ≤ 2 ^ 52 := by
    rw [Nat.abs_cast]
    exact_mod_cast hn'
  obtain ⟨g, hg, hvalue⟩ := toBinary64_spec (toRat?_ofNat n) hbound
  refine ⟨f.div g, ?_⟩
  rw [div, hg, toBinary64, pure_eq_ok, ok_bind, ok_bind, isZero_eq_false hvalue hn₀]
  · rfl
  · simp

end Operations

/-! ## Comparison -/

section Comparison

variable {x y : Number} {a b : ℚ}

/-- A finite number lies at a point, a whole number of grains away from zero. -/
theorem place?_of_toRat? (hx : x.toRat? = some a) :
    ∃ n : Int, x.place? = some (.point n) ∧ (n : ℚ) = a * grainsPerOne := by
  cases x with
  | int n =>
    obtain rfl : (n : ℚ) = a := by simpa using hx
    exact ⟨n * grainsPerOne, rfl, by push_cast; rfl⟩
  | float f =>
    obtain ⟨negative, rank, rfl, rfl⟩ := exists_of_toRat? hx
    have hpos : (grainsPerOne : ℚ) ≠ 0 := by exact_mod_cast grainsPerOne_pos.ne'
    exact ⟨signedGrains negative rank, rfl, (div_mul_cancel₀ _ hpos).symm⟩

/-- Finite numbers are compared by their exact values. -/
theorem compare?_of_toRat? (hx : x.toRat? = some a) (hy : y.toRat? = some b) :
    x.compare? y = some (compare a b) := by
  obtain ⟨m, hm, hma⟩ := place?_of_toRat? hx
  obtain ⟨n, hn, hnb⟩ := place?_of_toRat? hy
  have hpos : (0 : ℚ) < grainsPerOne := by exact_mod_cast grainsPerOne_pos
  have hcompare : compare m n = compare a b := by
    rcases lt_trichotomy a b with h | rfl | h
    · have hmn : (m : ℚ) < n := by rw [hma, hnb]; gcongr
      rw [compare_lt_iff_lt.mpr h, compare_lt_iff_lt.mpr (by exact_mod_cast hmn)]
    · have hmn : m = n := by exact_mod_cast hma.trans hnb.symm
      rw [hmn, compare_eq_iff_eq.mpr rfl, compare_eq_iff_eq.mpr rfl]
    · have hmn : (n : ℚ) < m := by rw [hma, hnb]; gcongr
      rw [compare_gt_iff_gt.mpr h, compare_gt_iff_gt.mpr (by exact_mod_cast hmn)]
  simp [compare?, hm, hn, Place.compare, hcompare]

/-- A finite number is smaller than another when its exact value is. -/
theorem lt_iff (hx : x.toRat? = some a) (hy : y.toRat? = some b) : x.lt y = true ↔ a < b := by
  rw [lt, compare?_of_toRat? hx hy]
  simp [compare_lt_iff_lt]

theorem sameValue_iff (hx : x.toRat? = some a) (hy : y.toRat? = some b) :
    x.sameValue y = true ↔ a = b := by
  rw [sameValue, compare?_of_toRat? hx hy]
  simp

theorem le_iff (hx : x.toRat? = some a) (hy : y.toRat? = some b) : x.le y = true ↔ a ≤ b := by
  rw [le, compare?_of_toRat? hx hy, le_iff_lt_or_eq]
  simp [compare_lt_iff_lt]

/-- The larger of two finite numbers has the larger value. -/
theorem toRat?_max (hx : x.toRat? = some a) (hy : y.toRat? = some b) :
    (x.max y).toRat? = some (Max.max a b) := by
  rw [max]
  split_ifs with h
  · rw [hy, max_eq_right ((lt_iff hx hy).mp h).le]
  · rw [hx, max_eq_left (not_lt.mp fun hab => h ((lt_iff hx hy).mpr hab))]

theorem toRat?_min (hx : x.toRat? = some a) (hy : y.toRat? = some b) :
    (x.min y).toRat? = some (Min.min a b) := by
  rw [min]
  split_ifs with h
  · rw [hy, min_eq_right ((lt_iff hy hx).mp h).le]
  · rw [hx, min_eq_left (not_lt.mp fun hba => h ((lt_iff hy hx).mpr hba))]

/-- Numbers with a place, infinities among them, are compared by their places. -/
theorem lt_of_place? {p r : Place} (hx : x.place? = some p) (hy : y.place? = some r) :
    x.lt y = (p.compare r == .lt) := by
  simp [lt, compare?, hx, hy]

/-- A NaN is moved as the upper bound is. -/
theorem clamp_nan (lo hi : Number) : (float .nan).clamp lo hi = hi.clamp lo hi := by
  simp [clamp, min, lt, compare?, place?]

/-- Any number at all, an infinity or a NaN included, is moved between two bounds. -/
theorem clamp_spec (x : Number) {lo hi : Number} (hlo : lo.toRat? = some a)
    (hhi : hi.toRat? = some b) (hab : a ≤ b) :
    ∃ q, (x.clamp lo hi).toRat? = some q ∧ a ≤ q ∧ q ≤ b := by
  -- below the upper bound the number is finite or the lowest place of all
  have hmin : (∃ q, (hi.min x).toRat? = some q ∧ q ≤ b) ∨
      hi.min x = float (.infinite true) := by
    cases hx : x.toRat? with
    | some q => exact .inl ⟨_, toRat?_min hhi hx, min_le_left b q⟩
    | none =>
      obtain ⟨n, hn, -⟩ := place?_of_toRat? hhi
      match x with
      | float .nan =>
        exact .inl ⟨b, by simp [min, lt, compare?, place?, hhi], le_rfl⟩
      | float (.infinite false) =>
        refine .inl ⟨b, ?_, le_rfl⟩
        rw [min, lt_of_place? rfl hn]
        exact hhi
      | float (.infinite true) =>
        rw [min, lt_of_place? rfl hn]
        exact .inr rfl
  rcases hmin with ⟨q, hq, hqb⟩ | hbottom
  · exact ⟨_, toRat?_max hlo hq, le_max_left a q, max_le hab hqb⟩
  · obtain ⟨n, hn, -⟩ := place?_of_toRat? hlo
    refine ⟨a, ?_, le_rfl, hab⟩
    rw [clamp, hbottom, max, lt_of_place? hn rfl]
    exact hlo

/-- A finite number is moved between its bounds. -/
theorem toRat?_clamp {lo hi : Number} {q : ℚ} (hx : x.toRat? = some q)
    (hlo : lo.toRat? = some a) (hhi : hi.toRat? = some b) :
    (x.clamp lo hi).toRat? = some (Max.max a (Min.min b q)) :=
  toRat?_max hlo (toRat?_min hhi hx)

end Comparison

/-! ## Integers near a number -/

section Rounding

variable {x : Number} {q : ℚ}

/-- The floor of a finite number is the floor of its value. -/
theorem floor_spec (hx : x.toRat? = some q) : x.floor = .ok ⌊q⌋ := by
  cases x with
  | int n =>
    obtain rfl : (n : ℚ) = q := by simpa using hx
    simp [floor]
  | float f =>
    obtain ⟨negative, rank, rfl, rfl⟩ := exists_of_toRat? hx
    rw [floor, Int.fdiv_eq_ediv_of_nonneg _ (by positivity), Rat.floor_intCast_div_natCast]
    rfl

/-- The integer part of a number that is not negative is its floor. -/
theorem truncate_spec (hx : x.toRat? = some q) (hq : 0 ≤ q) : x.truncate = .ok ⌊q⌋ := by
  cases x with
  | int n =>
    obtain rfl : (n : ℚ) = q := by simpa using hx
    simp [truncate]
  | float f =>
    obtain ⟨negative, rank, rfl, rfl⟩ := exists_of_toRat? hx
    rw [truncate, Int.tdiv_eq_ediv_of_nonneg (signedGrains_nonneg hq),
      Rat.floor_intCast_div_natCast]
    rfl

theorem toRat?_half : half.toRat? = some (1 / 2) := by
  have hbound : ((1 : ℕ) : ℚ) / (2 : ℕ) ≤ safeMagnitude := by
    refine le_trans ?_ (two_pow_le_safeMagnitude (Nat.zero_le _))
    norm_num
  have hdyadic := roundRat_dyadic (m := 1) (j := 1) (by norm_num) (by norm_num)
  have hhalf : ((1 : ℕ) : ℚ) / (2 : ℕ) = 1 / 2 := by norm_num
  rw [half, toRat?_ofRatio false (by norm_num) hbound, hhalf]
  simpa using hdyadic

/-- The sum with one half is rounded before its floor is taken. -/
theorem roundHalfUp_spec (hx : x.toRat? = some q) (hq : |q| ≤ 2 ^ 52) :
    x.roundHalfUp = .ok ⌊roundRat (q + 1 / 2)⌋ := by
  have hhalf : |(1 / 2 : ℚ)| ≤ 2 ^ 52 := by norm_num [abs_of_pos]
  obtain ⟨z, hz, -, hvalue⟩ :=
    add_spec hx (y := .float half) toRat?_half (.inr (isFloat_float _)) hq hhalf
  rw [roundHalfUp, hz]
  exact floor_spec hvalue

end Rounding

/-! ## Magnitudes -/

/-- The number is finite and its magnitude is at most `2 ^ k`. -/
def Within (k : Nat) (x : Number) : Prop := ∃ q, x.toRat? = some q ∧ |q| ≤ 2 ^ k

section Magnitudes

variable {x y : Number} {j k m : Nat}

/-- A bound may be replaced by a larger one. -/
theorem Within.mono (hx : x.Within j) (h : j ≤ k) : x.Within k := by
  obtain ⟨q, hq, hbound⟩ := hx
  exact ⟨q, hq, hbound.trans (pow_le_pow_right₀ one_le_two h)⟩

theorem within_ofNat {n : Nat} (h : n ≤ 2 ^ k) : (instOfNat n).ofNat.Within k := by
  refine ⟨n, toRat?_ofNat n, ?_⟩
  rw [Nat.abs_cast]
  exact_mod_cast h

/-- The result of an operation stays within a power of two within which its exact result lies. -/
theorem combine_within {exact : Int → Int → Int} {rounded : Binary64 → Binary64 → Binary64}
    (op : ℚ → ℚ → ℚ) (hexact : ∀ a b : Int, ((exact a b : Int) : ℚ) = op a b)
    (hop : ∀ {f g : Binary64} {a b : ℚ}, f.toRat? = some a → g.toRat? = some b →
      |op a b| ≤ safeMagnitude → (rounded f g).toRat? = some (roundRat (op a b)))
    (hx : x.Within 52) (hy : y.Within 52) (hm : m ≤ 104)
    (hbound : ∀ a b, x.toRat? = some a → y.toRat? = some b → |op a b| ≤ 2 ^ m) :
    Yields (combine exact rounded x y) (Within m) := by
  obtain ⟨a, hxa, ha⟩ := hx
  obtain ⟨b, hyb, hb⟩ := hy
  have hab := hbound a b hxa hyb
  -- two integers are combined exactly, and everything else is rounded
  by_cases hfloat : x.IsFloat ∨ y.IsFloat
  · have hab' : |op a b| ≤ 2 ^ 104 := hab.trans (pow_le_pow_right₀ one_le_two hm)
    refine (combine_spec op hop hxa hyb hfloat ha hb hab').mono ?_
    rintro z ⟨-, hz⟩
    exact ⟨_, hz, abs_roundRat_le hab⟩
  · match x, y with
    | int a', int b' =>
      obtain rfl : (a' : ℚ) = a := by simpa using hxa
      obtain rfl : (b' : ℚ) = b := by simpa using hyb
      exact .ok ⟨_, toRat?_int _, hexact a' b' ▸ hab⟩
    | float f, _ => exact absurd (.inl (isFloat_float f)) hfloat
    | _, float g => exact absurd (.inr (isFloat_float g)) hfloat

theorem abs_le_of_within (hx : x.Within k) {a : ℚ} (ha : x.toRat? = some a) : |a| ≤ 2 ^ k := by
  obtain ⟨q, hq, hbound⟩ := hx
  obtain rfl : q = a := Option.some.inj (hq.symm.trans ha)
  exact hbound

/-- A sum is bounded by the next power of two above the bounds of its summands. -/
theorem add_within (hx : x.Within j) (hy : y.Within k) (hj : j < m) (hk : k < m) (hm : m ≤ 52) :
    Yields (x.add y) (Within m) := by
  refine combine_within (· + ·) (fun a b => by push_cast; rfl) toRat?_add
    (hx.mono (by omega)) (hy.mono (by omega)) (by omega) fun a b ha hb => ?_
  obtain ⟨n, rfl⟩ : ∃ n, m = n + 1 := ⟨m - 1, by omega⟩
  calc |a + b| ≤ |a| + |b| := abs_add_le a b
    _ ≤ 2 ^ n + 2 ^ n := add_le_add (abs_le_of_within (hx.mono (by omega)) ha)
        (abs_le_of_within (hy.mono (by omega)) hb)
    _ = 2 ^ (n + 1) := by ring

theorem sub_within (hx : x.Within j) (hy : y.Within k) (hj : j < m) (hk : k < m) (hm : m ≤ 52) :
    Yields (x.sub y) (Within m) := by
  refine combine_within (· - ·) (fun a b => by push_cast; rfl) toRat?_sub
    (hx.mono (by omega)) (hy.mono (by omega)) (by omega) fun a b ha hb => ?_
  obtain ⟨n, rfl⟩ : ∃ n, m = n + 1 := ⟨m - 1, by omega⟩
  calc |a - b| ≤ |a| + |b| := abs_sub a b
    _ ≤ 2 ^ n + 2 ^ n := add_le_add (abs_le_of_within (hx.mono (by omega)) ha)
        (abs_le_of_within (hy.mono (by omega)) hb)
    _ = 2 ^ (n + 1) := by ring

/-- A product is bounded by the product of the bounds of its factors. -/
theorem mul_within (hx : x.Within j) (hy : y.Within k) (hm : j + k ≤ m) (hm' : m ≤ 52) :
    Yields (x.mul y) (Within m) := by
  refine combine_within (· * ·) (fun a b => by push_cast; rfl) toRat?_mul
    (hx.mono (by omega)) (hy.mono (by omega)) (by omega) fun a b ha hb => ?_
  calc |a * b| = |a| * |b| := abs_mul a b
    _ ≤ 2 ^ j * 2 ^ k := mul_le_mul (abs_le_of_within hx ha) (abs_le_of_within hy hb)
        (abs_nonneg b) (by positivity)
    _ = 2 ^ (j + k) := (pow_add _ _ _).symm
    _ ≤ 2 ^ m := pow_le_pow_right₀ one_le_two hm

/-- Dividing by a positive integer does not move a number away from zero. -/
theorem div_within {n : Nat} (hx : x.Within k) (hn : 0 < n) (hn' : n ≤ 2 ^ 52) (hk : k ≤ 52) :
    Yields (x.div (instOfNat n).ofNat) fun f => (float f).Within k := by
  obtain ⟨a, hxa, ha⟩ := hx
  have hpos : (1 : ℚ) ≤ n := by exact_mod_cast hn
  have hquotient : |a / (n : ℚ)| ≤ 2 ^ k := by
    rw [abs_div, Nat.abs_cast]
    exact (div_le_self (abs_nonneg a) hpos).trans ha
  refine (div_spec hxa (toRat?_ofNat n) (by positivity)
    (ha.trans (pow_le_pow_right₀ one_le_two hk))
    (abs_le_of_within (within_ofNat hn') (toRat?_ofNat n))
    (hquotient.trans (pow_le_pow_right₀ one_le_two (by omega)))).mono fun f hf => ?_
  exact ⟨_, hf, abs_roundRat_le hquotient⟩

/-- Moderate numbers can be rounded to an integer. -/
theorem roundHalfUp_of_within (hx : x.Within k) (hk : k ≤ 52) : ∃ n, x.roundHalfUp = .ok n := by
  obtain ⟨q, hq, hbound⟩ := hx
  exact ⟨_, roundHalfUp_spec hq (hbound.trans (pow_le_pow_right₀ one_le_two hk))⟩

end Magnitudes

end CssColor.Number
