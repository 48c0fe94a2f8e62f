import CssColor.Number.Binary64
import Mathlib.Algebra.Order.Ring.Nat
import Mathlib.Tactic.Linarith
import Mathlib.Tactic.Positivity
import Mathlib.Tactic.Ring

/-!
# The nearest rank

Rounding to a rank is monotone, and every magnitude of a rank rounds to that rank. What later files
need of rounding follows from these two facts, midpoints apart.

## Main results

* `nearestQuotient_mono`: a larger quotient rounds to a larger integer.
* `Binary64.nearestRank_mono`: a larger magnitude rounds to a larger rank.
* `Binary64.nearestRank_grainsOfRank`: the magnitude of a rank rounds to the rank.
* `Binary64.nearestRank_le`: a magnitude up to that of a rank rounds to at most the rank.
* `Binary64.grainsOfRank_strictMono`: ranks are in the order of their magnitudes.
-/

namespace CssColor

/-- A quotient is rounded to its floor or above. -/
theorem div_le_nearestQuotient (n d : Nat) : n / d ≤ nearestQuotient n d := by
  unfold nearestQuotient
  dsimp only
  split <;> omega

/-- A quotient is rounded to its floor or to the next integer. -/
theorem nearestQuotient_le_div_succ (n d : Nat) : nearestQuotient n d ≤ n / d + 1 := by
  unfold nearestQuotient
  dsimp only
  split <;> omega

/-- Quotients in order have integer parts in order. -/
theorem div_le_div_of_mul_le {n d n' d' : Nat} (hd : 0 < d) (hd' : 0 < d')
    (h : n * d' ≤ n' * d) : n / d ≤ n' / d' := by
  refine (Nat.le_div_iff_mul_le hd').mpr (Nat.le_of_mul_le_mul_right ?_ hd)
  calc n / d * d' * d = n / d * d * d' := by ring
    _ ≤ n * d' := Nat.mul_le_mul_right d' (Nat.div_mul_le_self n d)
    _ ≤ n' * d := h

/-- A larger quotient rounds to a larger integer. -/
theorem nearestQuotient_mono {n d n' d' : Nat} (hd : 0 < d) (hd' : 0 < d')
    (h : n * d' ≤ n' * d) : nearestQuotient n d ≤ nearestQuotient n' d' := by
  have hdiv : n / d ≤ n' / d' := div_le_div_of_mul_le hd hd' h
  rcases Nat.lt_or_eq_of_le hdiv with hlt | heq
  · exact (nearestQuotient_le_div_succ n d).trans
      (Nat.succ_le_of_lt hlt |>.trans (div_le_nearestQuotient n' d'))
  -- with equal integer parts the remainders decide, and they are in the same order
  · have hn := Nat.div_add_mod n d
    have hn' := Nat.div_add_mod n' d'
    rw [← heq] at hn'
    have hmod : n % d * d' ≤ n' % d' * d := by nlinarith
    unfold nearestQuotient
    dsimp only
    rw [← heq]
    split_ifs with hdown hdown' hdown'
    · exact le_refl _
    · exact Nat.le_succ _
    · exfalso
      rcases hdown' with hless | ⟨hhalf, heven⟩
      · have : 2 * (n % d) < d := by nlinarith
        exact hdown (.inl this)
      · have : 2 * (n % d) ≤ d := by nlinarith
        exact hdown ((Nat.lt_or_eq_of_le this).imp id fun hexact => ⟨hexact, heven⟩)
    · exact le_refl _

/-- A multiple of the divisor is rounded to the factor. -/
theorem nearestQuotient_mul_self (k : Nat) {d : Nat} (hd : 0 < d) :
    nearestQuotient (k * d) d = k := by
  simp [nearestQuotient, Nat.mul_div_cancel k hd, hd]

/-- A quotient is not rounded above an integer that it does not exceed. -/
theorem nearestQuotient_le {n d k : Nat} (hd : 0 < d) (h : n ≤ k * d) :
    nearestQuotient n d ≤ k := by
  have hmono : nearestQuotient n d ≤ nearestQuotient (k * d) d :=
    nearestQuotient_mono hd hd (Nat.mul_le_mul_right d h)
  rwa [nearestQuotient_mul_self k hd] at hmono

/-- A quotient is not rounded below an integer that does not exceed it. -/
theorem le_nearestQuotient {n d k : Nat} (hd : 0 < d) (h : k * d ≤ n) :
    k ≤ nearestQuotient n d := by
  have hmono : nearestQuotient (k * d) d ≤ nearestQuotient n d :=
    nearestQuotient_mono hd hd (Nat.mul_le_mul_right d h)
  rwa [nearestQuotient_mul_self k hd] at hmono

namespace Binary64

/-! ## The binade of a magnitude -/

/-- The binade of a magnitude of `n / d` grains: the binary logarithm of the spacing of ranks
around it. -/
def binade (n d : Nat) : Nat := (n / d).log2 - 52

/-- A magnitude has the rank of its binade and of the nearest multiple of the spacing there. -/
theorem nearestRank_eq (n d : Nat) :
    nearestRank n d = binade n d * 2 ^ 52 + nearestQuotient n (d * 2 ^ binade n d) := rfl

/-- Larger magnitudes have later binades. -/
theorem binade_mono {n d n' d' : Nat} (hd : 0 < d) (hd' : 0 < d') (h : n * d' ≤ n' * d) :
    binade n d ≤ binade n' d' := by
  have hdiv : n / d ≤ n' / d' := div_le_div_of_mul_le hd hd' h
  rcases Nat.eq_zero_or_pos (n / d) with hzero | hpos
  · simp [binade, hzero]
  · have hlog : (n / d).log2 ≤ (n' / d').log2 :=
      (Nat.le_log2 (by omega)).mpr ((Nat.log2_self_le (by omega)).trans hdiv)
    unfold binade
    omega

/-- A magnitude is below the end of its binade. -/
theorem lt_mul_two_pow_binade {d : Nat} (n : Nat) (hd : 0 < d) :
    n < 2 ^ 53 * (d * 2 ^ binade n d) := by
  have hlt : n / d < 2 ^ ((n / d).log2 + 1) := Nat.lt_log2_self
  have hpow : 2 ^ ((n / d).log2 + 1) ≤ 2 ^ (53 + binade n d) := by
    apply Nat.pow_le_pow_right (by decide)
    unfold binade
    omega
  calc n < 2 ^ (53 + binade n d) * d := (Nat.div_lt_iff_lt_mul hd).mp (hlt.trans_le hpow)
    _ = 2 ^ 53 * (d * 2 ^ binade n d) := by rw [Nat.pow_add]; ring

/-- A magnitude is not below the start of its binade, from the second binade on. -/
theorem mul_two_pow_binade_le {n d : Nat} (hd : 0 < d) (h : 0 < binade n d) :
    2 ^ 52 * (d * 2 ^ binade n d) ≤ n := by
  have hlog : (n / d).log2 = 52 + binade n d := by
    unfold binade at h ⊢
    omega
  have hne : n / d ≠ 0 := by
    intro hzero
    rw [hzero, Nat.log2_zero] at hlog
    omega
  have hle : 2 ^ (52 + binade n d) ≤ n / d := hlog ▸ Nat.log2_self_le hne
  calc 2 ^ 52 * (d * 2 ^ binade n d) = 2 ^ (52 + binade n d) * d := by rw [Nat.pow_add]; ring
    _ ≤ n := (Nat.le_div_iff_mul_le hd).mp hle

/-- Within its binade a magnitude rounds to at most `2 ^ 53`. -/
theorem nearestQuotient_binade_le {d : Nat} (n : Nat) (hd : 0 < d) :
    nearestQuotient n (d * 2 ^ binade n d) ≤ 2 ^ 53 :=
  nearestQuotient_le (by positivity) (lt_mul_two_pow_binade n hd).le

/-- Above the lowest binade a magnitude rounds to at least `2 ^ 52`. -/
theorem le_nearestQuotient_binade {n d : Nat} (hd : 0 < d) (h : 0 < binade n d) :
    2 ^ 52 ≤ nearestQuotient n (d * 2 ^ binade n d) :=
  le_nearestQuotient (by positivity) (mul_two_pow_binade_le hd h)

/-! ## Monotonicity and exactness -/

/-- A larger magnitude rounds to a larger rank. -/
theorem nearestRank_mono {n d n' d' : Nat} (hd : 0 < d) (hd' : 0 < d') (h : n * d' ≤ n' * d) :
    nearestRank n d ≤ nearestRank n' d' := by
  rw [nearestRank_eq, nearestRank_eq]
  rcases Nat.lt_or_eq_of_le (binade_mono hd hd' h) with hlt | heq
  -- the top of one binade is the bottom of the next
  · have htop := nearestQuotient_binade_le n hd
    have hbottom := le_nearestQuotient_binade hd' (Nat.zero_lt_of_lt hlt)
    have hstep : (binade n d + 1) * 2 ^ 52 ≤ binade n' d' * 2 ^ 52 := Nat.mul_le_mul_right _ hlt
    omega
  · rw [heq]
    apply Nat.add_le_add_left
    apply nearestQuotient_mono (by positivity) (by positivity)
    calc n * (d' * 2 ^ binade n' d') = n * d' * 2 ^ binade n' d' := by ring
      _ ≤ n' * d * 2 ^ binade n' d' := Nat.mul_le_mul_right _ h
      _ = n' * (d * 2 ^ binade n' d') := by ring

theorem grainsOfRank_eq (rank : Nat) : grainsOfRank rank =
    if rank < 2 ^ 52 then rank else (2 ^ 52 + rank % 2 ^ 52) * 2 ^ (rank / 2 ^ 52 - 1) := rfl

theorem grainsOfRank_of_lt {rank : Nat} (h : rank < 2 ^ 52) : grainsOfRank rank = rank :=
  if_pos h

/-- The magnitude of a significand of 53 bits in the binade of the given shift. At `2 ^ 53` the next
binade begins. -/
theorem grainsOfRank_add {significand : Nat} (hlow : 2 ^ 52 ≤ significand)
    (hhigh : significand ≤ 2 ^ 53) (shift : Nat) :
    grainsOfRank (shift * 2 ^ 52 + significand) = significand * 2 ^ shift := by
  rw [grainsOfRank_eq, if_neg (by omega)]
  rcases Nat.lt_or_eq_of_le hhigh with hlt | rfl
  · have hdiv : (shift * 2 ^ 52 + significand) / 2 ^ 52 = shift + 1 := by omega
    have hmod : 2 ^ 52 + (shift * 2 ^ 52 + significand) % 2 ^ 52 = significand := by omega
    rw [hdiv, hmod, Nat.add_sub_cancel]
  · have hdiv : (shift * 2 ^ 52 + 2 ^ 53) / 2 ^ 52 = shift + 2 := by omega
    have hmod : (shift * 2 ^ 52 + 2 ^ 53) % 2 ^ 52 = 0 := by omega
    rw [hdiv, hmod, Nat.add_zero, show shift + 2 - 1 = shift + 1 from rfl]
    ring

/-- From rank `2 ^ 52` on, a magnitude is a significand of 53 bits, shifted by its binade. -/
theorem grainsOfRank_of_le {rank : Nat} (h : 2 ^ 52 ≤ rank) :
    ∃ significand shift, grainsOfRank rank = significand * 2 ^ shift ∧
      2 ^ 52 ≤ significand ∧ significand < 2 ^ 53 ∧ rank = shift * 2 ^ 52 + significand := by
  have hmod : rank % 2 ^ 52 < 2 ^ 52 := Nat.mod_lt _ (by positivity)
  have hdiv : 1 ≤ rank / 2 ^ 52 := (Nat.one_le_div_iff (by positivity)).mpr h
  have hrank := Nat.div_add_mod rank (2 ^ 52)
  refine ⟨2 ^ 52 + rank % 2 ^ 52, rank / 2 ^ 52 - 1, ?_, by omega, by omega, by omega⟩
  rw [grainsOfRank_eq, if_neg (by omega)]

/-- The magnitude of a rank rounds to the rank. -/
theorem nearestRank_grainsOfRank (rank : Nat) {d : Nat} (hd : 0 < d) :
    nearestRank (grainsOfRank rank * d) d = rank := by
  rw [nearestRank_eq, binade, Nat.mul_div_cancel _ hd]
  rcases Nat.lt_or_ge rank (2 ^ 52) with hlow | hhigh
  · have hlog : rank.log2 - 52 = 0 := by
      rcases Nat.eq_zero_or_pos rank with rfl | hpos
      · rw [Nat.log2_zero]
      · have := (Nat.log2_lt (by omega)).mpr hlow
        omega
    rw [grainsOfRank_of_lt hlow, hlog, Nat.zero_mul, Nat.zero_add, Nat.pow_zero, Nat.mul_one,
      nearestQuotient_mul_self rank hd]
  -- above the first binade a magnitude is a significand of 53 bits with zeros behind it
  · obtain ⟨significand, shift, hgrains, hge, hlt, hrank⟩ := grainsOfRank_of_le hhigh
    have hlog : (significand * 2 ^ shift).log2 - 52 = shift := by
      have : (significand * 2 ^ shift).log2 = 52 + shift := by
        refine (Nat.log2_eq_iff (by positivity)).mpr ⟨?_, ?_⟩
        · rw [Nat.pow_add]
          exact Nat.mul_le_mul_right _ hge
        · calc significand * 2 ^ shift < 2 ^ 53 * 2 ^ shift :=
                Nat.mul_lt_mul_of_pos_right hlt (by positivity)
            _ = 2 ^ (52 + shift + 1) := by ring
      omega
    rw [hgrains, hlog, Nat.mul_right_comm, Nat.mul_assoc significand,
      nearestQuotient_mul_self significand (by positivity), hrank]

/-- A magnitude that is at most that of a rank rounds to at most the rank. -/
theorem nearestRank_le {n d rank : Nat} (hd : 0 < d) (h : n ≤ grainsOfRank rank * d) :
    nearestRank n d ≤ rank := by
  have hmono := nearestRank_mono hd hd (Nat.mul_le_mul_right d h)
  rwa [nearestRank_grainsOfRank rank hd] at hmono

/-- Ranks are in the order of their magnitudes. -/
theorem grainsOfRank_strictMono : StrictMono grainsOfRank := by
  intro low high h
  by_contra hle
  have hrank := nearestRank_le Nat.one_pos
    (show grainsOfRank high ≤ grainsOfRank low * 1 by omega)
  rw [← Nat.mul_one (grainsOfRank high), nearestRank_grainsOfRank high Nat.one_pos] at hrank
  omega

end Binary64

end CssColor
