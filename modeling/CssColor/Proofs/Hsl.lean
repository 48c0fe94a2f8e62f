import CssColor.Hsl
import CssColor.Proofs.Channel

/-!
# Bounds on hue, saturation and lightness

The conversions between channels and hue, saturation and lightness are chains of rounded operations.
They do not fail on the numbers that colors are written with, and rounding leads none of the results
out of its range.

## Main definitions

* `Number.InUnit`: the number is finite and lies between zero and one.

## Main results

* `Hsl.toHex_spec`: every hue with saturation and lightness below 1600 percent gives a canonical
  color.
* `Hsl.ofRgb_spec`: three bytes give a hue from 0 to 359 and fractions between zero and one.
-/

namespace CssColor

open Binary64

namespace Number

/-- The number is finite and lies between zero and one. -/
def InUnit (x : Number) : Prop := ∃ q, x.toRat? = some q ∧ 0 ≤ q ∧ q ≤ 1

/-- The remainder modulo a positive integer is below it. -/
theorem mod_within {x : Number} {q : ℚ} {modulus k : Nat} (hx : x.toRat? = some q)
    (hpos : 0 < modulus) (hk : modulus ≤ 2 ^ k) (hk' : k ≤ 1000) : (x.mod modulus).Within k := by
  have hbound : ((modulus : ℕ) : ℚ) ≤ 2 ^ k := by exact_mod_cast hk
  cases x with
  | int n =>
    have hmod : (0 : Int) < modulus := by exact_mod_cast hpos
    have hlow : (0 : ℚ) ≤ (n % modulus : Int) := by exact_mod_cast Int.emod_nonneg n hmod.ne'
    have hhigh : ((n % modulus : Int) : ℚ) ≤ modulus := by
      exact_mod_cast (Int.emod_lt_of_pos n hmod).le
    exact ⟨_, rfl, by rw [abs_of_nonneg hlow]; exact hhigh.trans hbound⟩
  | float f =>
    obtain ⟨negative, rank, rfl, -⟩ := exists_of_toRat? hx
    have hone : (0 : ℚ) < grainsPerOne := by exact_mod_cast grainsPerOne_pos
    -- the remainder is taken on grains, where it is exact
    set grains := signedGrains negative rank % ((modulus * grainsPerOne : Nat) : Int) with hgrains
    have hmod : (0 : Int) < ((modulus * grainsPerOne : Nat) : Int) := by
      exact_mod_cast Nat.mul_pos hpos grainsPerOne_pos
    have hlow : (0 : ℚ) ≤ grains := by exact_mod_cast Int.emod_nonneg _ hmod.ne'
    have hhigh : (grains : ℚ) ≤ modulus * grainsPerOne := by
      have hlt := (Int.emod_lt_of_pos (signedGrains negative rank) hmod).le
      exact_mod_cast hlt
    have hquotient : |(grains : ℚ) / grainsPerOne| ≤ 2 ^ k := by
      rw [abs_of_nonneg (div_nonneg hlow hone.le)]
      exact ((div_le_iff₀ hone).mpr hhigh).trans hbound
    exact ⟨_, toRat?_ofGrains false grains (le_safeMagnitude hquotient hk'),
      abs_roundRat_le hquotient⟩

end Number

namespace Hsl

open Number

/-! ## From hue, saturation and lightness -/

/-- A moderate point of the hue circle is brought onto one turn. -/
theorem wrap_spec {t : Number} (ht : t.Within 10) : Yields (wrap t) (Within 11) := by
  have hone : Within 0 1 := within_ofNat (n := 1) (by norm_num)
  unfold wrap
  split_ifs
  · exact add_within ht hone (by norm_num) (by norm_num) (by norm_num)
  · exact sub_within ht hone (by norm_num) (by norm_num) (by norm_num)
  · exact .ok (ht.mono (by norm_num))

/-- The level of a channel is a moderate number at every point of the hue circle, whichever of the
four pieces of the curve the point lies on. -/
theorem levelAt_spec {high low t : Number} (hhigh : high.Within 9) (hlow : low.Within 10)
    (ht : t.Within 11) : Yields (levelAt high low t) (Within 27) := by
  have hsix : Within 3 6 := within_ofNat (n := 6) (by norm_num)
  have htwo : Within 1 2 := within_ofNat (n := 2) (by norm_num)
  have hthree : Within 2 3 := within_ofNat (n := 3) (by norm_num)
  have hrange : Yields (high.sub low) (Within 11) :=
    sub_within hhigh hlow (by norm_num) (by norm_num) (by norm_num)
  unfold levelAt
  refine (mul_within (m := 14) hsix ht (by norm_num) (by norm_num)).bind fun sixfold _ => ?_
  split_ifs
  · -- rising
    refine hrange.bind fun range hrange => ?_
    refine (mul_within (m := 14) hrange hsix (by norm_num) (by norm_num)).bind
      fun slope hslope => ?_
    refine (mul_within (m := 25) hslope ht (by norm_num) (by norm_num)).bind fun rise hrise => ?_
    exact add_within hlow hrise (by norm_num) (by norm_num) (by norm_num)
  · refine (mul_within (m := 12) htwo ht (by norm_num) (by norm_num)).bind fun twofold _ => ?_
    split_ifs
    · exact .ok (hhigh.mono (by norm_num))
    · refine (mul_within (m := 13) hthree ht (by norm_num) (by norm_num)).bind fun threefold _ => ?_
      split_ifs
      · -- falling
        refine (div_within (n := 3) htwo (by norm_num) (by norm_num) (by norm_num)).bind
          fun thirds hthirds => ?_
        refine (sub_within (m := 12) hthirds ht (by norm_num) (by norm_num) (by norm_num)).bind
          fun remaining hremaining => ?_
        refine hrange.bind fun range hrange => ?_
        refine (mul_within (m := 23) hrange hremaining (by norm_num) (by norm_num)).bind
          fun slope hslope => ?_
        refine (mul_within (m := 26) hslope hsix (by norm_num) (by norm_num)).bind
          fun fall hfall => ?_
        exact add_within hlow hfall (by norm_num) (by norm_num) (by norm_num)
      · exact .ok (hlow.mono (by norm_num))

/-- Of moderate parts the high level is moderate too. -/
theorem highLevel_spec {saturation lightness : Number} (hs : saturation.Within 4)
    (hl : lightness.Within 4) : Yields (highLevel saturation lightness) (Within 9) := by
  have hone : Within 0 1 := within_ofNat (n := 1) (by norm_num)
  unfold highLevel
  split_ifs
  · refine (add_within (m := 5) hone hs (by norm_num) (by norm_num) (by norm_num)).bind
      fun factor hfactor => ?_
    exact mul_within hl hfactor (by norm_num) (by norm_num)
  · refine (add_within (m := 5) hl hs (by norm_num) (by norm_num) (by norm_num)).bind
      fun sum hsum => ?_
    refine (mul_within (m := 8) hl hs (by norm_num) (by norm_num)).bind fun product hproduct => ?_
    exact sub_within hsum hproduct (by norm_num) (by norm_num) (by norm_num)

/-- A moderate level is rounded to a channel. -/
theorem channelOfLevel_spec {level : Number} (h : level.Within 27) :
    ∃ n, channelOfLevel level = .ok n := by
  have hscale : Within 8 255 := within_ofNat (n := 255) (by norm_num)
  obtain ⟨scaled, hscaled, hwithin⟩ :=
    mul_within (m := 35) h hscale (by norm_num) (by norm_num)
  obtain ⟨n, hn⟩ := roundHalfUp_of_within hwithin (by norm_num)
  obtain ⟨q, hq, hlow, -⟩ := clamp_spec (.int n) (toRat?_ofNat 0) (toRat?_ofNat 255) (by norm_num)
  refine ⟨⌊q⌋, ?_⟩
  simp only [channelOfLevel, hscaled, hn, ok_bind]
  exact truncate_spec hq (by simpa using hlow)

/-- A color by hue, saturation and lightness always has channels. The hue may be any finite number,
since it is reduced to one turn before it is used. -/
theorem toRgb_spec {hue saturation lightness : Number} {turns : ℚ} (hh : hue.toRat? = some turns)
    (hs : saturation.Within 4) (hl : lightness.Within 4) :
    ∃ channels, toRgb hue saturation lightness = .ok channels := by
  have hscale : Within 8 255 := within_ofNat (n := 255) (by norm_num)
  have hone : Within 0 1 := within_ofNat (n := 1) (by norm_num)
  have htwo : Within 1 2 := within_ofNat (n := 2) (by norm_num)
  unfold toRgb
  split_ifs
  · -- a grey does not depend on the hue
    obtain ⟨scaled, hscaled, hwithin⟩ := mul_within (m := 12) hl hscale (by norm_num) (by norm_num)
    obtain ⟨grey, hgrey⟩ := roundHalfUp_of_within hwithin (by norm_num)
    simp only [hscaled, hgrey, ok_bind]
    exact ⟨_, rfl⟩
  · obtain ⟨high, hhigh, hhigh'⟩ := highLevel_spec hs hl
    obtain ⟨double, hdouble, hdouble'⟩ := mul_within (m := 5) htwo hl (by norm_num) (by norm_num)
    obtain ⟨low, hlow, hlow'⟩ :=
      sub_within (m := 10) hdouble' hhigh' (by norm_num) (by norm_num) (by norm_num)
    -- any hue is brought to one turn, so that its size does not matter from here on
    have hdegrees : (hue.mod 360).Within 9 :=
      mod_within hh (by norm_num) (by norm_num) (by norm_num)
    obtain ⟨turn, hturn, hturn'⟩ :=
      div_within (n := 360) hdegrees (by norm_num) (by norm_num) (by norm_num)
    obtain ⟨third, hthird, hthird'⟩ :=
      div_within (n := 3) hone (by norm_num) (by norm_num) (by norm_num)
    obtain ⟨ahead, hahead, hahead'⟩ :=
      add_within (m := 10) hturn' hthird' (by norm_num) (by norm_num) (by norm_num)
    obtain ⟨behind, hbehind, hbehind'⟩ :=
      sub_within (m := 10) hturn' hthird' (by norm_num) (by norm_num) (by norm_num)
    obtain ⟨redTurn, hredTurn, hredTurn'⟩ := wrap_spec hahead'
    obtain ⟨blueTurn, hblueTurn, hblueTurn'⟩ := wrap_spec hbehind'
    obtain ⟨red, hred, hred'⟩ := levelAt_spec hhigh' hlow' hredTurn'
    obtain ⟨green, hgreen, hgreen'⟩ := levelAt_spec hhigh' hlow' (hturn'.mono (by norm_num))
    obtain ⟨blue, hblue, hblue'⟩ := levelAt_spec hhigh' hlow' hblueTurn'
    obtain ⟨r, hr⟩ := channelOfLevel_spec hred'
    obtain ⟨g, hg⟩ := channelOfLevel_spec hgreen'
    obtain ⟨b, hb⟩ := channelOfLevel_spec hblue'
    refine ⟨⟨r, g, b⟩, ?_⟩
    simp only [hhigh, hdouble, hlow, hturn, hthird, hahead, hbehind, hredTurn, hblueTurn, hred,
      hgreen, hblue, hr, hg, hb, ok_bind]
    rfl

/-- Saturation and lightness below 1600 percent give a canonical color at every hue. -/
theorem toHex_spec {hue saturation lightness : Number} {turns s l : ℚ}
    (hh : hue.toRat? = some turns) (hs : saturation.toRat? = some s)
    (hl : lightness.toRat? = some l)
    (hs' : |s| ≤ 1600) (hl' : |l| ≤ 1600) :
    Yields (toHex hue saturation lightness) IsCanonical := by
  -- percentages may lie outside of their range, but three digits keep them moderate
  have hpercent : ∀ {x : Number} {q : ℚ}, x.toRat? = some q → |q| ≤ 1600 →
      Yields (x.div 100) fun f => (float f).Within 4 := by
    intro x q hx hq
    have hbound : |q / ((100 : ℕ) : ℚ)| ≤ 2 ^ 4 := by
      rw [abs_div, Nat.abs_cast, div_le_iff₀ (by norm_num)]
      exact hq.trans (by norm_num)
    have hq' : |q| ≤ 2 ^ 52 := hq.trans (by norm_num)
    refine (div_spec hx (toRat?_ofNat 100) (by norm_num) hq' (by norm_num)
      (hbound.trans (by norm_num))).mono fun f hf => ?_
    exact ⟨_, hf, abs_roundRat_le hbound⟩
  unfold toHex
  refine (hpercent hs hs').bind fun saturation hsaturation => ?_
  refine (hpercent hl hl').bind fun lightness hlightness => ?_
  obtain ⟨channels, hchannels⟩ := toRgb_spec hh hsaturation hlightness
  rw [hchannels]
  exact Rgb.toHex_spec _

/-! ## To hue, saturation and lightness -/

/-- Two different numbers have a difference that does not round to zero, since it is a whole number
of grains. -/
theorem roundRat_sub_pos {x y : Number} {a b : ℚ} (hx : x.toRat? = some a) (hy : y.toRat? = some b)
    (h : b < a) : 0 < roundRat (a - b) := by
  obtain ⟨m, -, hm⟩ := place?_of_toRat? hx
  obtain ⟨n, -, hn⟩ := place?_of_toRat? hy
  have hone : (0 : ℚ) < grainsPerOne := by exact_mod_cast grainsPerOne_pos
  have hlt : n < m := by
    have hcast : (n : ℚ) < m := by rw [hm, hn]; gcongr
    exact_mod_cast hcast
  have hgrain : grainsOfRank 1 = 1 := grainsOfRank_of_lt (by norm_num)
  have hrank : rankValue 1 = 1 / grainsPerOne := by rw [rankValue, hgrain, Nat.cast_one]
  -- one grain is the least difference, and it is a binary64 number itself
  have hleast : rankValue 1 ≤ a - b := by
    rw [hrank, div_le_iff₀ hone, sub_mul, ← hm, ← hn]
    exact_mod_cast (show (1 : Int) ≤ m - n by omega)
  calc 0 < rankValue 1 := by rw [hrank]; exact div_pos one_pos hone
    _ = roundRat (rankValue 1) := (roundRat_rankValue 1).symm
    _ ≤ roundRat (a - b) := roundRat_mono hleast

/-- A quotient by a number of at least the same magnitude does not leave the unit interval. -/
theorem div_spec_of_le {x y : Number} {a b : ℚ} (hx : x.toRat? = some a) (hy : y.toRat? = some b)
    (hpos : 0 < b) (hab : |a| ≤ b) (hb : b ≤ 2 ^ 52) :
    Yields (x.div y) fun f => ∃ q, f.toRat? = some q ∧ |q| ≤ 1 ∧ (0 ≤ a → 0 ≤ q) := by
  have hquotient : |a / b| ≤ 1 := by
    rw [abs_div, abs_of_pos hpos]
    exact (div_le_one hpos).mpr hab
  have hb' : |b| ≤ 2 ^ 52 := by rwa [abs_of_pos hpos]
  refine (div_spec hx hy hpos.ne' (hab.trans hb) hb' (hquotient.trans (by norm_num))).mono ?_
  intro f hf
  refine ⟨_, hf, ?_, fun ha => roundRat_nonneg (div_nonneg ha hpos.le)⟩
  simpa using abs_roundRat_le (k := 0) (by simpa using hquotient)

/-- Three levels with the bounds between which they lie. -/
structure Spread (levels : Rgb Number) (lo hi : ℚ) : Prop where
  /-- The levels are binary64 numbers. -/
  isFloat : levels.red.IsFloat ∧ levels.green.IsFloat ∧ levels.blue.IsFloat
  /-- The red level lies between the bounds. -/
  red : ∃ q, levels.red.toRat? = some q ∧ lo ≤ q ∧ q ≤ hi
  /-- The green level lies between the bounds. -/
  green : ∃ q, levels.green.toRat? = some q ∧ lo ≤ q ∧ q ≤ hi
  /-- The blue level lies between the bounds. -/
  blue : ∃ q, levels.blue.toRat? = some q ∧ lo ≤ q ∧ q ≤ hi

/-- The position on the hue circle lies at most eight sixths away from red. -/
theorem sextant_spec {levels : Rgb Number} {highest spread : Number} {lo hi : ℚ}
    (hlevels : Spread levels lo hi) (hlo : 0 ≤ lo) (hhi : hi ≤ 1)
    (hspread : spread.toRat? = some (roundRat (hi - lo))) (hpos : 0 < roundRat (hi - lo)) :
    Yields (sextant levels highest spread) (Within 3) := by
  obtain ⟨⟨hfr, hfg, hfb⟩, hred, hgreen, hblue⟩ := hlevels
  have hunit : roundRat (hi - lo) ≤ 1 := roundRat_le_one (by linarith)
  -- a difference of two levels is at most their spread, also after rounding
  have hdifference : ∀ {x y : Number}, x.IsFloat → (∃ q, x.toRat? = some q ∧ lo ≤ q ∧ q ≤ hi) →
      (∃ q, y.toRat? = some q ∧ lo ≤ q ∧ q ≤ hi) →
      Yields (do return float (← (← x.sub y).div spread)) (Within 0) := by
    rintro x y hfx ⟨a, hx, ha, ha'⟩ ⟨b, hy, hb, hb'⟩
    have hsub : |roundRat (a - b)| ≤ roundRat (hi - lo) := by
      rw [abs_le, ← roundRat_neg]
      exact ⟨roundRat_mono (by linarith), roundRat_mono (by linarith)⟩
    have hamag : |a| ≤ 2 ^ 52 := abs_le_of_nonneg (by linarith) (by linarith)
    have hbmag : |b| ≤ 2 ^ 52 := abs_le_of_nonneg (by linarith) (by linarith)
    refine (sub_spec hx hy (.inl hfx) hamag hbmag).bind fun d hd => ?_
    refine (div_spec_of_le hd.2 hspread hpos hsub (hunit.trans (by norm_num))).bind fun f hf => ?_
    obtain ⟨q, hq, hbound, -⟩ := hf
    exact .ok ⟨q, hq, by simpa using hbound⟩
  have htwo : Within 1 2 := within_ofNat (n := 2) (by norm_num)
  have hfour : Within 2 4 := within_ofNat (n := 4) (by norm_num)
  unfold sextant
  split_ifs
  · exact (hdifference hfg hgreen hblue).mono fun z hz => hz.mono (by norm_num)
  · refine (hdifference hfb hblue hred).bind fun z hz => ?_
    exact add_within htwo hz (by norm_num) (by norm_num) (by norm_num)
  · refine (hdifference hfr hred hgreen).bind fun z hz => ?_
    exact add_within hfour hz (by norm_num) (by norm_num) (by norm_num)

/-- The spread of the levels is at most what it is divided by, in either formula, so that the
saturation does not leave the unit interval. -/
theorem saturation_spec {highest lowest sum spread : Number} {lo hi : ℚ} (hfloat : highest.IsFloat)
    (hhighest : highest.toRat? = some hi) (hlowest : lowest.toRat? = some lo)
    (hsum : sum.toRat? = some (roundRat (hi + lo)))
    (hspread : spread.toRat? = some (roundRat (hi - lo)))
    (hlo : 0 ≤ lo) (hlt : lo < hi) (hhi : hi ≤ 1) :
    (Yields (spread.div sum) fun f => (float f).InUnit) ∧
      Yields (do spread.div (← (← Number.sub 2 highest).sub lowest))
        fun f => (float f).InUnit := by
  have hpos : 0 < roundRat (hi - lo) := roundRat_sub_pos hhighest hlowest hlt
  have habs : |roundRat (hi - lo)| = roundRat (hi - lo) := abs_of_pos hpos
  have hquotient : ∀ {y : Number} {b : ℚ}, y.toRat? = some b → roundRat (hi - lo) ≤ b → b ≤ 2 →
      Yields (spread.div y) fun f => (float f).InUnit := by
    intro y b hy hle hb
    refine (div_spec_of_le hspread hy (hpos.trans_le hle) (habs.trans_le hle)
      (hb.trans (by norm_num))).mono ?_
    rintro f ⟨q, hq, hbound, hnonneg⟩
    exact ⟨q, hq, hnonneg hpos.le, (abs_le.mp hbound).2⟩
  have hround_le_two : ∀ {q : ℚ}, q ≤ 2 → roundRat q ≤ 2 := by
    intro q hq
    simpa using roundRat_le_natCast (n := 2) (by norm_num) (by simpa using hq)
  constructor
  · exact hquotient hsum (roundRat_mono (by linarith)) (hround_le_two (by linarith))
  · have hhi' : |hi| ≤ 2 ^ 52 := abs_le_of_nonneg (by linarith) (by linarith)
    have hlo' : |lo| ≤ 2 ^ 52 := abs_le_of_nonneg (by linarith) (by linarith)
    refine (sub_spec (toRat?_ofNat 2) hhighest (.inr hfloat) (by norm_num) hhi').bind fun u hu => ?_
    -- two minus the highest level rounds to at least one, which no level exceeds
    have hone : 1 ≤ roundRat ((2 : ℕ) - hi) := by
      have h := natCast_le_roundRat (q := (2 : ℕ) - hi) (n := 1) (by norm_num)
        (by push_cast; linarith)
      simpa using h
    have htwo : roundRat ((2 : ℕ) - hi) ≤ 2 := hround_le_two (by push_cast; linarith)
    have hu' : |roundRat ((2 : ℕ) - hi)| ≤ 2 ^ 52 :=
      abs_le_of_nonneg (by linarith) (by linarith)
    refine (sub_spec hu.2 hlowest (.inl hu.1) hu' hlo').bind fun v hv => ?_
    exact hquotient hv.2 (roundRat_mono (by linarith)) (hround_le_two (by linarith))

/-- A byte divided by 255 is a fraction of one. -/
theorem level_spec (level : Fin 256) :
    Yields ((Number.int (level : Int)).div 255) fun f => (float f).InUnit := by
  have hlow : (0 : ℚ) ≤ (((level : Nat) : Int) : ℚ) := by positivity
  have hhigh : ((((level : Nat) : Int)) : ℚ) ≤ 255 := by
    exact_mod_cast (show ((level : Nat) : Int) ≤ 255 by omega)
  refine (div_spec_of_le (toRat?_int _) (toRat?_ofNat 255) (by norm_num) ?_ (by norm_num)).mono ?_
  · rw [abs_of_nonneg hlow]
    exact_mod_cast hhigh
  · rintro f ⟨q, hq, hbound, hnonneg⟩
    exact ⟨q, hq, hnonneg hlow, (abs_le.mp hbound).2⟩

/-- Three levels lie between the least and the greatest of their values. -/
theorem spread_of_levels {red green blue : Binary64} {r g b : ℚ} (hr : red.toRat? = some r)
    (hg : green.toRat? = some g) (hb : blue.toRat? = some b) :
    Spread ⟨float red, float green, float blue⟩ (Min.min (Min.min r g) b)
      (Max.max (Max.max r g) b) where
  isFloat := ⟨isFloat_float _, isFloat_float _, isFloat_float _⟩
  red := ⟨r, hr, (min_le_left _ _).trans (min_le_left _ _),
    (le_max_left _ _).trans (le_max_left _ _)⟩
  green := ⟨g, hg, (min_le_left _ _).trans (min_le_right _ _),
    (le_max_right _ _).trans (le_max_left _ _)⟩
  blue := ⟨b, hb, min_le_right _ _, le_max_right _ _⟩

/-- The lightness, half the sum of the extremes, is a fraction of one. -/
theorem lightness_spec {sum : Number} {lo hi : ℚ} (hsum : sum.toRat? = some (roundRat (hi + lo)))
    (hlo : 0 ≤ lo) (hle : lo ≤ hi) (hhi : hi ≤ 1) :
    Yields (sum.div 2) fun f => (float f).InUnit := by
  have hsum0 : 0 ≤ roundRat (hi + lo) := roundRat_nonneg (by linarith)
  have hsum2 : roundRat (hi + lo) ≤ (2 : ℕ) :=
    roundRat_le_natCast (by norm_num) (by push_cast; linarith)
  refine (div_spec_of_le hsum (toRat?_ofNat 2) (by norm_num) ?_ (by norm_num)).mono ?_
  · rwa [abs_of_nonneg hsum0]
  · rintro f ⟨q, hq, hbound, hnonneg⟩
    exact ⟨q, hq, hnonneg hsum0, (abs_le.mp hbound).2⟩

/-- The hue is a number of degrees on one turn, the other two parts are fractions of one. -/
structure InRange (color : Hsl) : Prop where
  /-- The hue stays below a full turn. -/
  hue : 0 ≤ color.hue ∧ color.hue < 360
  /-- The saturation is a fraction of one. -/
  saturation : (float color.saturation).InUnit
  /-- The lightness is a fraction of one. -/
  lightness : (float color.lightness).InUnit

/-- Whatever the position on the hue circle, its remainder is taken modulo a full turn. -/
theorem hue_spec {levels : Rgb Number} (highest : Number) {spread : Number} {lo hi : ℚ}
    (hlevels : Spread levels lo hi) (hlo : 0 ≤ lo) (hhi : hi ≤ 1)
    (hspread : spread.toRat? = some (roundRat (hi - lo))) (hpos : 0 < roundRat (hi - lo))
    {saturation lightness : Binary64} (hsaturation : (float saturation).InUnit)
    (hlightness : (float lightness).InUnit) :
    Yields (do
      let sixths ← sextant levels highest spread
      let degrees ← (← sixths.mul 60).roundHalfUp
      return ({ hue := degrees % 360, saturation, lightness } : Hsl)) InRange := by
  refine (sextant_spec hlevels hlo hhi hspread hpos).bind fun sixths hsixths => ?_
  have hsixty : Within 6 60 := within_ofNat (n := 60) (by norm_num)
  refine (mul_within (m := 9) hsixths hsixty (by norm_num) (by norm_num)).bind
    fun degrees hdegrees => ?_
  obtain ⟨n, hn⟩ := roundHalfUp_of_within hdegrees (by norm_num)
  rw [hn]
  exact .ok ⟨⟨Int.emod_nonneg _ (by norm_num), Int.emod_lt_of_pos _ (by norm_num)⟩, hsaturation,
    hlightness⟩

/-- Three bytes have a hue from 0 to 359 and a saturation and a lightness between zero and one. -/
theorem ofRgb_spec (levels : Rgb (Fin 256)) :
    Yields (ofRgb ((levels.map fun level : Fin 256 => (level : Int)).map Number.int)) InRange := by
  unfold ofRgb
  refine (level_spec levels.red).bind fun red hred => ?_
  refine (level_spec levels.green).bind fun green hgreen => ?_
  refine (level_spec levels.blue).bind fun blue hblue => ?_
  obtain ⟨r, hr, hr0, hr1⟩ := hred
  obtain ⟨g, hg, hg0, hg1⟩ := hgreen
  obtain ⟨b, hb, hb0, hb1⟩ := hblue
  have hlevels := spread_of_levels hr hg hb
  set highest := ((float red).max (float green)).max (float blue) with hhighest
  set lowest := ((float red).min (float green)).min (float blue)
  set hi := Max.max (Max.max r g) b
  set lo := Min.min (Min.min r g) b
  have hhighest' : highest.toRat? = some hi := toRat?_max (toRat?_max hr hg) hb
  have hlowest' : lowest.toRat? = some lo := toRat?_min (toRat?_min hr hg) hb
  have hfloat : highest.IsFloat := by
    rw [hhighest, Number.max, Number.max]
    split_ifs <;> exact isFloat_float _
  have hlo0 : 0 ≤ lo := le_min (le_min hr0 hg0) hb0
  have hhi1 : hi ≤ 1 := max_le (max_le hr1 hg1) hb1
  have hle : lo ≤ hi := (min_le_right _ _).trans (le_max_right _ _)
  have hhi' : |hi| ≤ 2 ^ 52 := abs_le_of_nonneg (by linarith) (by linarith)
  have hlo' : |lo| ≤ 2 ^ 52 := abs_le_of_nonneg (by linarith) (by linarith)
  refine (add_spec hhighest' hlowest' (.inl hfloat) hhi' hlo').bind fun sum hsum => ?_
  refine (lightness_spec hsum.2 hlo0 hle hhi1).bind fun lightness hlightness => ?_
  split
  case isTrue =>
    -- a grey has no hue and no saturation
    exact .ok ⟨⟨le_rfl, by norm_num⟩, ⟨0, toRat?_zero false, le_rfl, zero_le_one⟩, hlightness⟩
  case isFalse hgrey =>
    have hlt : lo < hi := by
      refine lt_of_le_of_ne hle fun heq => hgrey ?_
      exact (sameValue_iff hhighest' hlowest').mpr heq.symm
    have hpos := roundRat_sub_pos hhighest' hlowest' hlt
    refine (sub_spec hhighest' hlowest' (.inl hfloat) hhi' hlo').bind fun spread hspread => ?_
    obtain ⟨hdark, hpale⟩ :=
      saturation_spec hfloat hhighest' hlowest' hsum.2 hspread.2 hlo0 hlt hhi1
    -- what follows is the same for both formulas of the saturation
    have hrest := fun saturation (hsaturation : (float saturation).InUnit) =>
      hue_spec highest hlevels hlo0 hhi1 hspread.2 hpos hsaturation hlightness
    split
    · exact hdark.bind hrest
    · simpa only [bind_assoc] using hpale.bind hrest

end Hsl

end CssColor
