import CssColor.Proofs.Hsl
import CssColor.Proofs.Hsl.Exact
import CssColor.Proofs.Number.Nearness

/-!
# Channels near exact levels

The conversion of hue, saturation and lightness to channels is compared with the levels of
`ExactHsl`. It branches on rounded numbers, and near the border of two branches it may take the
other one than exact numbers would. There the two branches nearly agree, since the exact levels do
not jump.

## Main definitions

* `Hsl.OnCircle`: a number is a point of the hue circle, up to whole turns.
* `Hsl.Shows`: three channels are the levels of a color, rounded to integers.
* `Hsl.ofWhole`: the exact color of a whole hue and of whole percentages.

## Main results

* `Hsl.levelAt_near`, `Hsl.wrap_near`: the level at a point of the circle.
* `Hsl.toRgb_near`: the channels of a color.
* `Hsl.toHex_near`: a whole hue and whole percentages are written as the nearest channels.
-/

namespace CssColor

open Binary64

namespace Hsl

open Number ExactHsl

/-! ## From hue, saturation and lightness -/

/-- The highest level of a color, from a saturation and a lightness that are taken as exact. -/
theorem highLevel_near {saturation lightness : Number} {s l : ℚ}
    (hs : saturation.toRat? = some s) (hl : lightness.toRat? = some l) (hs' : 0 ≤ s ∧ s ≤ 1)
    (hl' : 0 ≤ l ∧ l ≤ 1) :
    Yields (highLevel saturation lightness) (Near 36 (l + s * reach l / 2)) := by
  have hhalf := lt_iff hl (y := .float half) toRat?_half
  unfold highLevel
  split_ifs with hdark
  · -- a dark color reaches as far up as down to black
    have hreach : l + s * reach l / 2 = l * (1 + s) := by
      rw [reach, abs_of_nonpos (by linarith [hhalf.mp hdark])]
      ring
    have hfactor' : |1 + s| ≤ 2 ^ 1 := abs_le.mpr ⟨by linarith [hs'.1], by linarith [hs'.2]⟩
    rw [hreach]
    refine (add_near (k := 39) near_one (near_of_toRat? hs) (by norm_num) (abs_le_two_pow hs')
      le_rfl).bind fun factor hfactor => ?_
    exact mul_near (i := 0) (j := 1) (near_of_toRat? hl) hfactor (abs_le_two_pow hl') hfactor'
      (by norm_num) (by norm_num)
  · have hreach : l + s * reach l / 2 = l + s - l * s := by
      rw [reach, abs_of_nonneg (by linarith [not_lt.mp (hhalf.not.mp hdark)])]
      ring
    have hsum' : |l + s| ≤ 2 ^ 9 :=
      abs_le.mpr ⟨by linarith [hs'.1, hl'.1], by linarith [hs'.2, hl'.2]⟩
    have hproduct' : 0 ≤ l * s ∧ l * s ≤ 1 :=
      ⟨mul_nonneg hl'.1 hs'.1, mul_le_one₀ hl'.2 hs'.1 hs'.2⟩
    rw [hreach]
    refine (add_near (k := 39) (near_of_toRat? hl) (near_of_toRat? hs) (abs_le_two_pow hl')
      (abs_le_two_pow hs') le_rfl).bind fun sum hsum => ?_
    refine (mul_near (k := 39) (i := 0) (j := 0) (near_of_toRat? hl) (near_of_toRat? hs)
      (abs_le_two_pow hl') (abs_le_two_pow hs') (by norm_num) le_rfl).bind
      fun product hproduct => ?_
    exact sub_near (hsum.mono (by norm_num)) (hproduct.mono (by norm_num)) hsum'
      (abs_le_two_pow hproduct') (by norm_num)

section LevelAt

variable {high low t : Number} {hi lo q : ℚ} (hhigh : high.Near 34 hi) (hlow : low.Near 34 lo)
  (ht : t.toRat? = some q) (hq : 0 ≤ q ∧ q ≤ 1) (hlo : 0 ≤ lo) (hle : lo ≤ hi) (hhi : hi ≤ 1)

include hhigh hlow hlo hle hhi

/-- The difference of the two extreme levels is computed closely. -/
theorem range_near : Yields (high.sub low) (Near 32 (hi - lo)) :=
  sub_near hhigh hlow (abs_le_two_pow ⟨hlo.trans hle, hhi⟩) (abs_le_two_pow ⟨hlo, hle.trans hhi⟩)
    (by norm_num)

include ht hq

/-- The rising line. -/
theorem rise_near :
    Yields (do low.add (← (← (← high.sub low).mul 6).mul t))
      (Near 21 (lo + (hi - lo) * (6 * q))) := by
  have hrange' : 0 ≤ hi - lo ∧ hi - lo ≤ 1 := ⟨by linarith, by linarith⟩
  have hslope' : |(hi - lo) * 6| ≤ 2 ^ 3 := abs_le.mpr ⟨by linarith, by linarith⟩
  have hrise' : |(hi - lo) * 6 * q| ≤ 2 ^ 9 := by
    rw [abs_mul]
    exact (mul_le_mul hslope' (abs_le_two_pow (k := 0) hq) (abs_nonneg q) (by positivity)).trans
      (by norm_num)
  refine (range_near hhigh hlow hlo hle hhi).bind fun range hrange => ?_
  refine (mul_near (k := 26) (i := 0) (j := 3) hrange (near_ofNat 6) (abs_le_two_pow hrange')
    (by norm_num) (by norm_num) (by norm_num)).bind fun slope hslope => ?_
  refine (mul_near (k := 23) (i := 3) (j := 0) hslope (near_of_toRat? ht) hslope'
    (abs_le_two_pow hq) (by norm_num) (by norm_num)).bind fun rise hrise => ?_
  rw [← mul_assoc]
  exact add_near (hlow.mono (by norm_num)) hrise (abs_le_two_pow ⟨hlo, hle.trans hhi⟩) hrise'
    (by norm_num)

/-- The falling line, which meets the lowest level at two thirds of a turn. -/
theorem fall_near :
    Yields (do
      let remaining ← (float (← Number.div 2 3)).sub t
      low.add (← (← (← high.sub low).mul remaining).mul 6))
      (Near 21 (lo + (hi - lo) * (4 - 6 * q))) := by
  have hrange' : 0 ≤ hi - lo ∧ hi - lo ≤ 1 := ⟨by linarith, by linarith⟩
  -- every operation needs to know how large its exact operands are, from the inside out
  have hremaining' : |2 / 3 - q| ≤ 2 ^ 0 := abs_le.mpr ⟨by linarith [hq.2], by linarith [hq.1]⟩
  have hslope' : |(hi - lo) * (2 / 3 - q)| ≤ 2 ^ 0 := by
    rw [abs_mul]
    exact (mul_le_mul (abs_le_two_pow (k := 0) hrange') hremaining' (abs_nonneg _)
      (by positivity)).trans (by norm_num)
  have hfall' : |(hi - lo) * (2 / 3 - q) * 6| ≤ 2 ^ 9 := by
    rw [abs_mul]
    exact (mul_le_mul hslope' (le_refl |6|) (abs_nonneg _) (by positivity)).trans (by norm_num)
  refine (div_ofNat_near (k := 39) (near_ofNat 2) (by norm_num) (by norm_num) le_rfl).bind
    fun thirds hthirds => ?_
  refine (sub_near (k := 37) hthirds (near_of_toRat? ht) (by norm_num [abs_of_pos])
    (abs_le_two_pow hq) (by norm_num)).bind fun remaining hremaining => ?_
  refine (range_near hhigh hlow hlo hle hhi).bind fun range hrange => ?_
  refine (mul_near (k := 29) (i := 0) (j := 0) hrange (hremaining.mono (by norm_num))
    (abs_le_two_pow hrange') hremaining' (by norm_num) (by norm_num)).bind fun slope hslope => ?_
  refine (mul_near (k := 23) (i := 0) (j := 3) hslope (near_ofNat 6) hslope' (by norm_num)
    (by norm_num) (by norm_num)).bind fun fall hfall => ?_
  have hline : (hi - lo) * (4 - 6 * q) = (hi - lo) * (2 / 3 - q) * 6 := by ring
  rw [hline]
  exact add_near (hlow.mono (by norm_num)) hfall (abs_le_two_pow ⟨hlo, hle.trans hhi⟩) hfall'
    (by norm_num)

/-- The level of a channel at a point of the circle that is taken as exact. Where the rounded point
leads to another line than the exact one, the two lines are about to meet. -/
theorem levelAt_near :
    Yields (levelAt high low t) (Near 20 (lo + (hi - lo) * bump (q - 1 / 3))) := by
  -- a line that is near the presence gives a level that is near
  have hline : ∀ {z : Number} {x : ℚ}, z.Near 21 (lo + (hi - lo) * x) →
      |x - bump (q - 1 / 3)| ≤ 3 * (1 / 2 ^ 30) →
      z.Near 20 (lo + (hi - lo) * bump (q - 1 / 3)) := by
    intro z x hz hx
    refine hz.of_abs_sub_le ?_
    have hscaled : lo + (hi - lo) * x - (lo + (hi - lo) * bump (q - 1 / 3)) =
        (hi - lo) * (x - bump (q - 1 / 3)) := by ring
    rw [hscaled, abs_mul, abs_of_nonneg (sub_nonneg.mpr hle)]
    have hshrunk := mul_le_of_le_one_left (abs_nonneg (x - bump (q - 1 / 3)))
      (show hi - lo ≤ 1 by linarith)
    exact (hshrunk.trans hx).trans (by norm_num)
  have hpresence := fun {x : ℚ} => abs_line_sub_bump_le (x := x) (e := 1 / 2 ^ 30) hq (by norm_num)
  have hfold : ∀ (n : Nat) [n.AtLeastTwo], |(OfNat.ofNat n : ℚ)| ≤ 2 ^ 3 →
      Yields (Number.mul (OfNat.ofNat n) t) (Near 30 (OfNat.ofNat n * q)) := fun n _ hn =>
    mul_near (j := 0) (near_ofNat n) (near_of_toRat? ht) hn (abs_le_two_pow hq) (by norm_num)
      (by norm_num)
  unfold levelAt
  -- each branch knows its own border and the one before it, up to the rounding of the multiples
  refine (hfold 6 (by norm_num)).bind fun sixfold hsixfold => ?_
  rcases lt_or_ge_of_near hsixfold 1 with ⟨hlt, h₆⟩ | ⟨hge, h₆⟩
  · rw [if_pos hlt]
    refine (rise_near hhigh hlow ht hq hlo hle hhi).mono fun z hz => hline hz ?_
    exact hpresence (.inl ⟨rfl, by simpa using h₆⟩)
  rw [if_neg (by simp [hge])]
  refine (hfold 2 (by norm_num)).bind fun twofold htwofold => ?_
  rcases lt_or_ge_of_near htwofold 1 with ⟨hlt, h₂⟩ | ⟨hge, h₂⟩
  · rw [if_pos hlt]
    have hfull := @hpresence 1 (.inr (.inl ⟨rfl, by simpa using h₆, by simpa using h₂⟩))
    refine .ok (hline ?_ hfull)
    rw [mul_one, add_sub_cancel]
    exact hhigh.mono (by norm_num)
  rw [if_neg (by simp [hge])]
  refine (hfold 3 (by norm_num)).bind fun threefold hthreefold => ?_
  rcases lt_or_ge_of_near hthreefold 2 with ⟨hlt, h₃⟩ | ⟨hge, h₃⟩
  · rw [if_pos hlt]
    refine (fall_near hhigh hlow ht hq hlo hle hhi).mono fun z hz => hline hz ?_
    exact hpresence (.inr (.inr (.inl ⟨rfl, by simpa using h₂, by simpa using h₃⟩)))
  · rw [if_neg (by simp [hge])]
    refine .ok (hline (x := 0) ?_ (hpresence (.inr (.inr (.inr ⟨rfl, by simpa using h₃⟩)))))
    rw [mul_zero, add_zero]
    exact hlow.mono (by norm_num)

end LevelAt

/-- The number lies between zero and one and is, up to whole turns, near `q`. -/
def OnCircle (k : Nat) (q : ℚ) (t : Number) : Prop :=
  ∃ v, t.toRat? = some v ∧ (0 ≤ v ∧ v ≤ 1) ∧ ∃ n : ℤ, |v - (q + n)| ≤ 1 / 2 ^ k

/-- Neither end of the unit interval is passed by rounding. -/
theorem wrap_near {t : Number} {q : ℚ} (ht : t.Near 37 q) (hq : -1 / 2 ≤ q ∧ q ≤ 3 / 2) :
    Yields (wrap t) (OnCircle 35 q) := by
  obtain ⟨v, hv, herror⟩ := ht
  obtain ⟨hlow, hhigh⟩ := abs_le.mp herror
  have hsmall : (1 : ℚ) / 2 ^ 37 ≤ 1 / 2 := by norm_num
  have hv' : |v| ≤ 2 ^ 51 := abs_le.mpr ⟨by linarith [hq.1], by linarith [hq.2]⟩
  -- one turn forth or back, rounded
  have hturn : ∀ {w : ℚ} {n : ℤ}, v + n = w → 0 ≤ w → w ≤ 1 → ∀ z : Number,
      z.toRat? = some (roundRat w) → OnCircle 35 q z := by
    rintro w n rfl hw hw' z hz
    refine ⟨_, hz, ⟨roundRat_nonneg hw, roundRat_le_one hw'⟩, n, ?_⟩
    have hround := abs_roundRat_sub_le_of_abs (j := 37) (abs_le_two_pow (k := 0) ⟨hw, hw'⟩)
      (by norm_num)
    calc |roundRat (v + n) - (q + n)| ≤ |roundRat (v + n) - (v + n)| + |v + n - (q + n)| :=
          abs_sub_le _ _ _
      _ ≤ 1 / 2 ^ 37 + 1 / 2 ^ 37 := add_le_add hround (by rwa [add_sub_add_right_eq_sub])
      _ ≤ 1 / 2 ^ 35 := by norm_num
  have hzero := lt_iff hv (toRat?_ofNat 0)
  have hone := le_iff (toRat?_ofNat 1) hv
  push_cast at hzero hone
  unfold wrap
  -- one turn is added below zero and taken off from one on
  split_ifs with hneg hfull
  · have hv₀ := hzero.mp hneg
    refine (add_round hv (toRat?_ofNat 1) hv' (by norm_num)).mono (hturn (n := 1) ?_ ?_ ?_)
    · push_cast
      rfl
    · push_cast
      linarith [hq.1]
    · push_cast
      linarith
  · have hv₁ := hone.mp hfull
    refine (sub_round hv (toRat?_ofNat 1) hv' (by norm_num)).mono (hturn (n := -1) ?_ ?_ ?_)
    · push_cast
      ring
    · push_cast
      linarith
    · push_cast
      linarith [hq.2]
  · have hv₀ := not_lt.mp (hzero.not.mp hneg)
    have hv₁ := not_le.mp (hone.not.mp hfull)
    refine .ok ⟨v, hv, ⟨hv₀, hv₁.le⟩, 0, ?_⟩
    rw [Int.cast_zero, add_zero]
    exact herror.trans (by norm_num)

/-- The level of a channel of a color, from its highest and its lowest level and from the point on
the circle that stands as far from one third as the hue from the place of the channel. -/
theorem level_near {color : ExactHsl} (h : color.InRange) (place : ℚ) {high low t : Number} {q : ℚ}
    (hhigh : high.Near 34 (color.lightness + color.chroma / 2))
    (hlow : low.Near 34 (color.lightness - color.chroma / 2)) (ht : OnCircle 35 q t)
    (hplace : q - 1 / 3 = color.hue - place) :
    Yields (levelAt high low t) (Near 19 (color.level place)) := by
  obtain ⟨v, hv, hv', n, herror⟩ := ht
  obtain ⟨hlo, hhi⟩ := bounds_mem h
  obtain ⟨hchroma, hreach⟩ := chroma_mem h
  have hchroma' : color.chroma ≤ 1 := hreach.trans (reach_le_one _)
  refine (levelAt_near hhigh hlow hv hv' hlo (by linarith) hhi).mono fun z hz => ?_
  refine hz.of_abs_sub_le ?_
  -- both points have nearly the same presence, whole turns apart
  have hpresence : |bump (v - 1 / 3) - bump (color.hue - place)| ≤ 1 / 2 ^ 20 := by
    have hbump := abs_bump_sub_le (v - 1 / 3) (color.hue - place + n)
    have hdistance : v - 1 / 3 - (color.hue - place + n) = v - (q + n) := by linarith
    rw [bump_add_intCast, hdistance] at hbump
    exact (hbump.trans (mul_le_mul_of_nonneg_left herror (by norm_num))).trans (by norm_num)
  have hscaled : color.lightness - color.chroma / 2 +
      (color.lightness + color.chroma / 2 - (color.lightness - color.chroma / 2)) *
        bump (v - 1 / 3) - color.level place =
      color.chroma * (bump (v - 1 / 3) - bump (color.hue - place)) := by
    rw [level_eq]
    ring
  rw [hscaled, abs_mul, abs_of_nonneg hchroma]
  exact (mul_le_of_le_one_left (abs_nonneg _) hchroma').trans hpresence

/-- The channel is the level `q`, rounded to an integer. -/
def Shown (k : Nat) (q : ℚ) (n : Int) : Prop := |(n : ℚ) - q * 255| ≤ 1 / 2 + 1 / 2 ^ k

/-- A channel that shows a fraction of one lies between 0 and 255. -/
theorem Shown.mem {k : Nat} {q : ℚ} {n : Int} (h : Shown k q n) (hk : 2 ≤ k)
    (hq : 0 ≤ q ∧ q ≤ 1) : 0 ≤ n ∧ n ≤ 255 := by
  have hsmall := one_div_two_pow_le hk
  obtain ⟨hlow, hhigh⟩ := abs_le.mp h
  have hn : (-1 : ℚ) < n := by linarith [hq.1]
  have hn' : (n : ℚ) < 256 := by linarith [hq.2]
  have hint : -1 < n := by exact_mod_cast hn
  have hint' : n < 256 := by exact_mod_cast hn'
  omega

/-- A channel that shows a fraction of one is a byte. -/
theorem Shown.exists_level {k : Nat} {q : ℚ} {n : Int} (h : Shown k q n) (hk : 2 ≤ k)
    (hq : 0 ≤ q ∧ q ≤ 1) : ∃ level : Fin 256, ((level : Nat) : Int) = n := by
  obtain ⟨hlow, hhigh⟩ := h.mem hk hq
  exact ⟨⟨n.toNat, by omega⟩, Int.toNat_of_nonneg hlow⟩

/-- A channel that shows a level shows every level close to it, a little less exactly. -/
theorem Shown.of_abs_sub_le {k : Nat} {p q : ℚ} {n : Int} (h : Shown (k + 1) p n)
    (hpq : |p - q| * 255 ≤ 1 / 2 ^ (k + 1)) : Shown k q n := by
  have hscaled : |p * 255 - q * 255| ≤ 1 / 2 ^ (k + 1) := by
    rw [← sub_mul, abs_mul, abs_of_pos (by norm_num : (0 : ℚ) < 255)]
    exact hpq
  have htriangle := abs_sub_le (n : ℚ) (p * 255) (q * 255)
  have hsplit := one_div_two_pow_succ k
  rw [Shown] at h ⊢
  linarith

/-- A level that is known closely is shown by its channel. -/
theorem scaled_near {level : Number} {q : ℚ} (h : level.Near 19 q) (hq : 0 ≤ q ∧ q ≤ 1) :
    Yields (do (← level.mul 255).roundHalfUp) (Shown 7 q) := by
  refine (mul_near (k := 8) (i := 0) (j := 8) h (near_ofNat 255) (abs_le_two_pow hq) (by norm_num)
    (by norm_num) (by norm_num)).bind fun scaled hscaled => ?_
  have hscaled' : |q * 255| ≤ 2 ^ 10 := abs_le.mpr ⟨by linarith [hq.1], by linarith [hq.2]⟩
  exact roundHalfUp_near hscaled hscaled' (by norm_num)

/-- A level near a fraction of one needs not be moved between 0 and 255. -/
theorem channelOfLevel_near {level : Number} {q : ℚ} (h : level.Near 19 q) (hq : 0 ≤ q ∧ q ≤ 1) :
    Yields (channelOfLevel level) (Shown 7 q) := by
  have hclamp : ∀ n, Shown 7 q n → Yields ((Number.int n).clamp 0 255).truncate (Shown 7 q) := by
    intro n hshown
    obtain ⟨hlow, hhigh⟩ := hshown.mem (by norm_num) hq
    have hvalue := toRat?_clamp (toRat?_int n) (toRat?_ofNat 0) (toRat?_ofNat 255)
    rw [min_eq_right (by exact_mod_cast hhigh), max_eq_right (by exact_mod_cast hlow)] at hvalue
    have htruncate := truncate_spec hvalue (by exact_mod_cast hlow)
    rw [Int.floor_intCast] at htruncate
    exact ⟨n, htruncate, hshown⟩
  unfold channelOfLevel
  simpa only [bind_assoc] using (scaled_near h hq).bind hclamp

/-- The channels are the levels of a color, rounded to integers. -/
structure Shows (k : Nat) (levels : Rgb ℚ) (channels : Rgb Int) : Prop where
  /-- The red channel is the red level, rounded. -/
  red : Shown k levels.red channels.red
  /-- The green channel is the green level, rounded. -/
  green : Shown k levels.green channels.green
  /-- The blue channel is the blue level, rounded. -/
  blue : Shown k levels.blue channels.blue

/-- A whole hue stands on the circle. -/
theorem turn_near {hue : Number} {degrees : Nat} (hhue : hue.toRat? = some (degrees : ℚ))
    (hdegrees : degrees < 360) :
    Yields ((hue.mod 360).div 360) fun turn =>
      (float turn).Near 39 (degrees / 360) ∧ OnCircle 35 (degrees / 360) (float turn) := by
  have hlt : (degrees : ℚ) < (360 : ℕ) := by exact_mod_cast hdegrees
  have hmod := mod_eq_self hhue (Nat.cast_nonneg _) hlt (by norm_num)
  obtain ⟨hlow, hhigh, herror⟩ := roundRat_fraction hdegrees.le (by norm_num)
  refine (div_fraction hmod (by norm_num) hdegrees.le (by norm_num)).mono fun turn hturn => ?_
  rw [Nat.cast_ofNat] at hturn hlow hhigh herror
  refine ⟨⟨_, hturn, herror⟩, _, hturn, ⟨hlow, hhigh⟩, 0, ?_⟩
  rw [Int.cast_zero, add_zero]
  exact herror.trans (by norm_num)

/-- The lowest level of a color is as far below the lightness as the highest one is above. -/
theorem lowLevel_near {color : ExactHsl} (h : color.InRange) {high lightness : Number}
    (hhigh : high.Near 36 (color.lightness + color.chroma / 2))
    (hl : lightness.toRat? = some color.lightness) :
    Yields (do (← Number.mul 2 lightness).sub high)
      (Near 34 (color.lightness - color.chroma / 2)) := by
  have hdouble' : |2 * color.lightness| ≤ 2 ^ 9 :=
    abs_le.mpr ⟨by linarith [h.lightness.1], by linarith [h.lightness.2]⟩
  have hhigh' : 0 ≤ color.lightness + color.chroma / 2 ∧
      color.lightness + color.chroma / 2 ≤ 1 :=
    ⟨by linarith [(chroma_mem h).1, h.lightness.1], (bounds_mem h).2⟩
  have hlow : color.lightness - color.chroma / 2 =
      2 * color.lightness - (color.lightness + color.chroma / 2) := by ring
  refine (mul_near (k := 39) (i := 1) (j := 0) (near_ofNat 2) (near_of_toRat? hl) (by norm_num)
    (abs_le_two_pow h.lightness) (by norm_num) le_rfl).bind fun double hdouble => ?_
  rw [hlow]
  exact sub_near (hdouble.mono (by norm_num)) hhigh hdouble' (abs_le_two_pow hhigh') (by norm_num)

/-- A grey has the same level everywhere. -/
theorem grey_near {color : ExactHsl} (h : color.InRange) (hgrey : color.saturation = 0)
    {lightness : Number} (hl : lightness.toRat? = some color.lightness) :
    Yields (do
      let level ← (← lightness.mul 255).roundHalfUp
      return (⟨level, level, level⟩ : Rgb Int)) (Shows 7 color.toLevels) := by
  have hlevel : ∀ place, color.level place = color.lightness := by
    intro place
    rw [level, chroma, hgrey, zero_mul, zero_mul, add_zero]
  have hshows : ∀ n, Shown 7 color.lightness n →
      Yields (pure ⟨n, n, n⟩ : Except NumericError (Rgb Int)) (Shows 7 color.toLevels) := by
    intro n hshown
    rw [toLevels, hlevel, hlevel, hlevel]
    exact .ok ⟨hshown, hshown, hshown⟩
  simpa only [bind_assoc] using (scaled_near (near_of_toRat? hl) h.lightness).bind hshows

/-- The channels of a color, from a whole hue and from a saturation and a lightness that are taken
as exact. -/
theorem toRgb_near {hue saturation lightness : Number} {degrees : Nat} {s l : ℚ}
    (hhue : hue.toRat? = some (degrees : ℚ)) (hdegrees : degrees < 360)
    (hs : saturation.toRat? = some s) (hl : lightness.toRat? = some l)
    (h : (ExactHsl.mk (degrees / 360) s l).InRange) :
    Yields (toRgb hue saturation lightness)
      (Shows 7 (ExactHsl.mk (degrees / 360) s l).toLevels) := by
  unfold toRgb
  split_ifs with hgrey
  · exact grey_near h (by simpa using (sameValue_iff hs (toRat?_ofNat 0)).mp hgrey) hl
  have hhue' : 0 ≤ (degrees : ℚ) / 360 ∧ (degrees : ℚ) / 360 ≤ 1 := by
    have hle : (degrees : ℚ) ≤ 360 := by exact_mod_cast hdegrees.le
    exact ⟨by positivity, (div_le_one (by norm_num)).mpr hle⟩
  refine (highLevel_near hs hl h.saturation h.lightness).bind fun high hhigh => ?_
  rw [← bind_assoc]
  refine (lowLevel_near h hhigh hl).bind fun low hlow => ?_
  replace hhigh := hhigh.mono (show 34 ≤ 36 by norm_num)
  refine (turn_near hhue hdegrees).bind fun turn hstands => ?_
  obtain ⟨hturn, hgreenTurn⟩ := hstands
  refine (div_ofNat_near (k := 39) near_one (by norm_num) (by norm_num) le_rfl).bind
    fun third hthird => ?_
  -- red stands one third of a turn ahead of green, and blue one third behind
  refine (add_near (k := 37) hturn hthird (abs_le_two_pow hhue') (by norm_num [abs_of_pos])
    (by norm_num)).bind fun ahead hahead => ?_
  refine (wrap_near hahead ⟨by linarith [hhue'.1], by linarith [hhue'.2]⟩).bind
    fun redTurn hredTurn => ?_
  refine (level_near h 0 hhigh hlow hredTurn (by ring)).bind fun red hred => ?_
  refine (level_near h (1 / 3) hhigh hlow hgreenTurn rfl).bind fun green hgreen => ?_
  refine (sub_near (k := 37) hturn hthird (abs_le_two_pow hhue') (by norm_num [abs_of_pos])
    (by norm_num)).bind fun behind hbehind => ?_
  refine (wrap_near hbehind ⟨by linarith [hhue'.1], by linarith [hhue'.2]⟩).bind
    fun blueTurn hblueTurn => ?_
  refine (level_near h (2 / 3) hhigh hlow hblueTurn (by ring)).bind fun blue hblue => ?_
  refine (channelOfLevel_near hred (level_mem h _)).bind fun r hr => ?_
  refine (channelOfLevel_near hgreen (level_mem h _)).bind fun g hg => ?_
  refine (channelOfLevel_near hblue (level_mem h _)).bind fun b hb => ?_
  exact .ok ⟨hr, hg, hb⟩

/-- A whole percentage, taken as exact after its division. -/
theorem percent_near {x : Number} {percent : Nat} (hx : x.toRat? = some (percent : ℚ))
    (h : percent ≤ 100) :
    Yields (x.div 100) fun f => ∃ v, (float f).toRat? = some v ∧ (0 ≤ v ∧ v ≤ 1) ∧
      |v - percent / 100| ≤ 1 / 2 ^ 39 := by
  obtain ⟨hlow, hhigh, herror⟩ := roundRat_fraction h (by norm_num)
  refine (div_fraction hx (by norm_num) h (by norm_num)).mono fun f hf => ?_
  rw [Nat.cast_ofNat] at hf hlow hhigh herror
  exact ⟨_, hf, ⟨hlow, hhigh⟩, herror⟩

/-- The color of a whole hue and of whole percentages. -/
def ofWhole (degrees saturation lightness : Nat) : ExactHsl :=
  ⟨degrees / 360, saturation / 100, lightness / 100⟩

theorem inRange_ofWhole {degrees saturation lightness : Nat} (hs : saturation ≤ 100)
    (hl : lightness ≤ 100) : (ofWhole degrees saturation lightness).InRange := by
  have hfraction : ∀ {n : Nat}, n ≤ 100 → 0 ≤ (n : ℚ) / 100 ∧ (n : ℚ) / 100 ≤ 1 := by
    intro n hn
    have hle : (n : ℚ) ≤ 100 := by exact_mod_cast hn
    exact ⟨by positivity, (div_le_one (by norm_num)).mpr hle⟩
  exact ⟨hfraction hs, hfraction hl⟩

/-- A whole hue and whole percentages are shown as the nearest channels. -/
theorem toHex_near {hue saturation lightness : Number} {degrees s l : Nat}
    (hhue : hue.toRat? = some (degrees : ℚ)) (hdegrees : degrees < 360)
    (hs : saturation.toRat? = some (s : ℚ)) (hs' : s ≤ 100)
    (hl : lightness.toRat? = some (l : ℚ)) (hl' : l ≤ 100) :
    Yields (toHex hue saturation lightness) fun shown => ∃ levels : Rgb (Fin 256),
      shown = levels.literal ∧ Shows 6 (ofWhole degrees s l).toLevels
        (levels.map fun level : Fin 256 => (level : Int)) := by
  unfold toHex
  refine (percent_near hs hs').bind fun saturation ⟨v, hv, hv', hsaturation⟩ => ?_
  refine (percent_near hl hl').bind fun lightness ⟨w, hw, hw', hlightness⟩ => ?_
  set color : ExactHsl := ⟨degrees / 360, v, w⟩
  have hcolor : color.InRange := ⟨hv', hw'⟩
  refine (toRgb_near hhue hdegrees hv hw hcolor).bind fun channels hchannels => ?_
  -- rounding the two percentages moves no level by more than a tiny part of a channel
  have hshown : ∀ {place : ℚ} {n : Int}, Shown 7 (color.level place) n →
      Shown 6 ((ofWhole degrees s l).level place) n := by
    intro place n h
    have hhue : |color.hue - ((ofWhole degrees s l).hue + (0 : ℤ))| ≤ 0 := by simp [color, ofWhole]
    have hlevel := abs_level_sub_le hcolor (inRange_ofWhole hs' hl') hsaturation hlightness hhue
      place
    refine h.of_abs_sub_le ?_
    linarith
  obtain ⟨red, green, blue⟩ := channels
  obtain ⟨hred, hgreen, hblue⟩ := hchannels
  obtain ⟨r, rfl⟩ := hred.exists_level (by norm_num) (level_mem hcolor 0)
  obtain ⟨g, rfl⟩ := hgreen.exists_level (by norm_num) (level_mem hcolor (1 / 3))
  obtain ⟨b, rfl⟩ := hblue.exists_level (by norm_num) (level_mem hcolor (2 / 3))
  exact ⟨_, Rgb.toHex_levels ⟨r, g, b⟩, _, rfl, hshown hred, hshown hgreen, hshown hblue⟩

end Hsl

end CssColor
