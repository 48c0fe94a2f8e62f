import CssColor.Proofs.Number.Value

/-!
# Midpoints

Rounding is decided by the midpoint of two neighbouring numbers: what lies below it goes down, what
lies above it goes up, and the midpoint itself goes to the neighbour of even rank.

## Main results

* `lt_nearestQuotient_iff`: when a quotient rounds above an integer.
* `Binary64.lt_nearestRank_iff`: when a magnitude rounds above a rank.
* `Binary64.rankValue_lt_roundRat_iff`: when a rational rounds above the value of a rank.
* `Binary64.roundRat_midpoint`: what a midpoint itself rounds to.
-/

namespace CssColor

/-- A quotient rounds above a number from the midpoint to the next number on. The midpoint itself
rounds above an odd number only. -/
theorem lt_nearestQuotient_iff {d : Nat} (n k : Nat) (hd : 0 < d) :
    k < nearestQuotient n d ↔
      (2 * k + 1) * d < 2 * n ∨ ((2 * k + 1) * d = 2 * n ∧ k % 2 = 1) := by
  have hn : d * (n / d) + n % d = n := Nat.div_add_mod n d
  have hmod : n % d < d := Nat.mod_lt n hd
  have hmid : (2 * k + 1) * d = 2 * (d * k) + d := by ring
  rw [hmid]
  rcases lt_trichotomy (n / d) k with hlt | heq | hgt
  · have hround : ¬ k < nearestQuotient n d := by
      have := nearestQuotient_le_div_succ n d
      omega
    have hstep : d * (n / d + 1) ≤ d * k := Nat.mul_le_mul_left d hlt
    rw [Nat.mul_add] at hstep
    exact iff_of_false hround (by omega)
  -- here the remainder decides, and a tie leaves an even number alone
  · rw [nearestQuotient, heq]
    rw [heq] at hn
    split <;> omega
  · have hround : k < nearestQuotient n d := hgt.trans_le (div_le_nearestQuotient n d)
    have hstep : d * (k + 1) ≤ d * (n / d) := Nat.mul_le_mul_left d hgt
    rw [Nat.mul_add] at hstep
    exact iff_of_true hround (by omega)

namespace Binary64

/-- A rank and its successor are neighbours within one binade. -/
theorem exists_significand (rank : Nat) :
    ∃ significand shift, rank = shift * 2 ^ 52 + significand ∧ significand < 2 ^ 53 ∧
      (2 ^ 52 ≤ significand ∨ shift = 0) ∧ grainsOfRank rank = significand * 2 ^ shift ∧
      grainsOfRank (rank + 1) = (significand + 1) * 2 ^ shift := by
  rcases Nat.lt_or_ge rank (2 ^ 52) with hlow | hhigh
  · refine ⟨rank, 0, by omega, by omega, .inr rfl, ?_, ?_⟩
    · rw [grainsOfRank_of_lt hlow, Nat.pow_zero, Nat.mul_one]
    · rcases Nat.lt_or_eq_of_le hlow with hlt | heq
      · rw [grainsOfRank_of_lt hlt, Nat.pow_zero, Nat.mul_one]
      · have hfirst := grainsOfRank_add (le_refl (2 ^ 52)) (by norm_num) 0
        rw [← Nat.succ_eq_add_one, heq]
        simpa using hfirst
  · obtain ⟨significand, shift, hgrains, hge, hlt, hrank⟩ := grainsOfRank_of_le hhigh
    refine ⟨significand, shift, hrank, hlt, .inl hge, hgrains, ?_⟩
    rw [hrank, Nat.add_assoc, grainsOfRank_add (by omega) (by omega)]

/-- The last rank of a binade and the first one of the next. -/
theorem exists_last_rank (shift : Nat) :
    ∃ rank, rank + 1 = (shift + 2) * 2 ^ 52 ∧ grainsOfRank rank = (2 ^ 53 - 1) * 2 ^ shift ∧
      grainsOfRank (rank + 1) = 2 ^ 53 * 2 ^ shift := by
  obtain ⟨last, hlast⟩ : ∃ last, last = 2 ^ 53 - 1 := ⟨_, rfl⟩
  refine ⟨shift * 2 ^ 52 + last, by omega, ?_, ?_⟩
  · rw [grainsOfRank_add (by omega) (by omega), hlast]
  · rw [Nat.add_assoc, grainsOfRank_add (by omega) (by omega), show last + 1 = 2 ^ 53 by omega]

/-- A magnitude rounds above a rank from the midpoint to the next rank on. The midpoint itself
rounds above an odd rank only. -/
theorem lt_nearestRank_iff {d : Nat} (n rank : Nat) (hd : 0 < d) :
    rank < nearestRank n d ↔
      (grainsOfRank rank + grainsOfRank (rank + 1)) * d < 2 * n ∨
        ((grainsOfRank rank + grainsOfRank (rank + 1)) * d = 2 * n ∧ rank % 2 = 1) := by
  obtain ⟨significand, shift, rfl, hlt, hnormal, hgrains, hnext⟩ := exists_significand rank
  have hmid : (significand * 2 ^ shift + (significand + 1) * 2 ^ shift) * d =
      (2 * significand + 1) * (d * 2 ^ shift) := by ring
  rw [hgrains, hnext, hmid, nearestRank_eq]
  have hbelow := lt_mul_two_pow_binade n hd
  have hunit : 0 < d * 2 ^ shift := by positivity
  rcases lt_trichotomy (binade n d) shift with hless | heq | hmore
  · have hrank := nearestQuotient_binade_le n hd
    have hgap : d * 2 ^ (binade n d + 1) ≤ d * 2 ^ shift :=
      Nat.mul_le_mul_left d (Nat.pow_le_pow_right (by decide) hless)
    have htop : 2 ^ 52 * (d * 2 ^ shift) ≤ significand * (d * 2 ^ shift) :=
      Nat.mul_le_mul_right _ (by omega)
    rw [Nat.pow_succ, ← Nat.mul_assoc] at hgap
    rw [Nat.add_mul, Nat.mul_assoc]
    exact iff_of_false (by omega) (by omega)
  -- within the binade ranks and significands have the same parity
  · have hround := lt_nearestQuotient_iff n significand hunit
    have hparity : (shift * 2 ^ 52 + significand) % 2 = significand % 2 := by omega
    rw [heq, Nat.add_lt_add_iff_left, hround, hparity]
  · have hrank := le_nearestQuotient_binade hd (Nat.zero_lt_of_lt hmore)
    have habove := mul_two_pow_binade_le hd (Nat.zero_lt_of_lt hmore)
    have hgap : d * 2 ^ (shift + 1) ≤ d * 2 ^ binade n d :=
      Nat.mul_le_mul_left d (Nat.pow_le_pow_right (by decide) hmore)
    have htop : (significand + 1) * (d * 2 ^ shift) ≤ 2 ^ 53 * (d * 2 ^ shift) :=
      Nat.mul_le_mul_right _ hlt
    rw [Nat.pow_succ, ← Nat.mul_assoc] at hgap
    rw [Nat.add_mul] at htop
    rw [Nat.add_mul, Nat.mul_assoc]
    exact iff_of_true (by omega) (by omega)

/-- A nonnegative rational rounds above the value of a rank from the midpoint to the next value
on. The midpoint itself rounds above an odd rank only. -/
theorem rankValue_lt_roundRat_iff {q : ℚ} (rank : Nat) (hq : 0 ≤ q) :
    rankValue rank < roundRat q ↔
      rankValue rank + rankValue (rank + 1) < 2 * q ∨
        (rankValue rank + rankValue (rank + 1) = 2 * q ∧ rank % 2 = 1) := by
  obtain ⟨n, d, hd, rfl⟩ := exists_eq_div hq
  have hgrains : (0 : ℚ) < grainsPerOne := by exact_mod_cast grainsPerOne_pos
  have hd' : (0 : ℚ) < d := by exact_mod_cast hd
  -- both sides are brought to grains, where ranks are compared by natural numbers
  have hsum : rankValue rank + rankValue (rank + 1) =
      ((grainsOfRank rank + grainsOfRank (rank + 1) : ℕ) : ℚ) / grainsPerOne := by
    rw [rankValue, rankValue, ← add_div, Nat.cast_add]
  have hmid : 2 * ((n : ℚ) / d) = ((2 * (n * grainsPerOne) : ℕ) : ℚ) / (d * grainsPerOne) := by
    push_cast
    field_simp
  rw [roundRat_div n hd, rankValue_strictMono.lt_iff_lt, lt_nearestRank_iff _ _ hd, hsum, hmid,
    div_lt_div_iff₀ hgrains (by positivity), div_eq_div_iff hgrains.ne' (by positivity)]
  have hscale (a : ℕ) : (a : ℚ) * (d * grainsPerOne) = (a * d : ℕ) * grainsPerOne := by
    push_cast
    ring
  rw [hscale, mul_lt_mul_iff_left₀ hgrains, mul_left_inj' hgrains.ne', Nat.cast_lt,
    Nat.cast_inj]

/-- What rounds above a value reaches the next one. -/
theorem rankValue_succ_le {q : ℚ} {rank : Nat} (hq : 0 ≤ q) (h : rankValue rank < roundRat q) :
    rankValue (rank + 1) ≤ roundRat q := by
  obtain ⟨found, hfound⟩ := exists_rankValue hq
  rw [hfound, rankValue_strictMono.lt_iff_lt] at h
  rw [hfound]
  exact rankValue_strictMono.monotone h

/-- The midpoint of two neighbouring values goes to the one of even rank. -/
theorem roundRat_midpoint {rank : Nat} {q : ℚ}
    (hq : rankValue rank + rankValue (rank + 1) = 2 * q) :
    roundRat q = rankValue (rank + rank % 2) := by
  have hstep := rankValue_strictMono (Nat.lt_succ_self rank)
  have hnonneg : 0 ≤ q := by
    have := rankValue_nonneg rank
    have := rankValue_nonneg (rank + 1)
    linarith
  -- the midpoint is rounded up exactly from an odd rank, so always to an even one
  have hround := rankValue_lt_roundRat_iff rank hnonneg
  rw [hq] at hround
  rcases Nat.mod_two_eq_zero_or_one rank with heven | hodd
  · have hdown : ¬ rankValue rank < roundRat q := by simp [hround, heven]
    rw [heven, Nat.add_zero]
    apply le_antisymm
    · exact not_lt.mp hdown
    · exact roundRat_rankValue rank ▸ roundRat_mono (by linarith)
  · rw [hodd]
    apply le_antisymm
    · exact roundRat_rankValue (rank + 1) ▸ roundRat_mono (by linarith)
    · exact rankValue_succ_le hnonneg (hround.mpr (.inr ⟨rfl, hodd⟩))

end Binary64

end CssColor
