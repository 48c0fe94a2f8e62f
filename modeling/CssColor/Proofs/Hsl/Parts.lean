import CssColor.Proofs.Hsl
import CssColor.Proofs.Hsl.Exact
import CssColor.Proofs.Number.Nearness

/-!
# Hue, saturation and lightness near exact ones

The conversion of channels to hue, saturation and lightness is compared with `ExactHsl.ofLevels`. It
starts from the binary64 fractions of three bytes, which are taken as exact levels: the channels
that it finds highest and lowest are then the right ones. Two of these fractions that differ at all
differ by nearly one part of 255, which bounds what a division by their difference can do.

## Main definitions

* `Channel.value`: the binary64 fraction of a byte.
* `Hsl.Tells`: a hue in whole degrees and two fractions are those of an exact color.

## Main results

* `Channel.le_abs_value_sub`: different fractions are not close to each other.
* `Hsl.sextant_near`, `Hsl.saturation_dark_near`, `Hsl.saturation_pale_near`: the parts of a color
  that is not grey.
* `Hsl.ofRgb_near`: three bytes have the parts of their fractions, with the hue rounded.
-/

namespace CssColor

open Binary64

/-! ## Fractions of bytes -/

namespace Channel

/-- The binary64 fraction of a byte. -/
def value (level : Fin 256) : ℚ := roundRat ((level : Nat) / (255 : Nat))

/-- The binary64 fraction of a byte is a fraction of one, and close to the exact one. -/
theorem value_spec (level : Fin 256) :
    (0 ≤ value level ∧ value level ≤ 1) ∧ |value level - level / 255| ≤ 1 / 2 ^ 39 := by
  obtain ⟨hlow, hhigh, herror⟩ :=
    Number.roundRat_fraction (show (level : Nat) ≤ 255 by omega) (by norm_num)
  exact ⟨⟨hlow, hhigh⟩, by simpa [value] using herror⟩

/-- Different fractions are not close to each other. -/
theorem le_abs_value_sub {a b : Fin 256} (h : value a ≠ value b) :
    1 / 2 ^ 8 ≤ |value a - value b| := by
  have hne : ((a : Nat) : Int) - (b : Nat) ≠ 0 := by
    intro hzero
    exact h (congrArg value (Fin.ext (by omega)))
  have hone : (1 : ℚ) ≤ |((a : Nat) : ℚ) - (b : Nat)| := by exact_mod_cast Int.one_le_abs hne
  have hexact : (1 : ℚ) / 255 ≤ |(a : ℚ) / 255 - b / 255| := by
    rw [← sub_div, abs_div, abs_of_pos (by norm_num : (0 : ℚ) < 255)]
    exact div_le_div_of_nonneg_right hone (by norm_num)
  have ha := (value_spec a).2
  have hb := (value_spec b).2
  rw [abs_sub_comm] at ha
  have hpath : |(a : ℚ) / 255 - b / 255| ≤
      |(a : ℚ) / 255 - value a| + (|value a - value b| + |value b - b / 255|) :=
    (abs_sub_le _ (value a) _).trans (add_le_add le_rfl (abs_sub_le _ (value b) _))
  linarith

end Channel

/-- The binary64 fractions of three bytes. -/
def Rgb.values (levels : Rgb (Fin 256)) : Rgb ℚ := levels.map Channel.value

namespace Rgb

/-- The fractions of three bytes are fractions of one. -/
theorem values_mem (levels : Rgb (Fin 256)) :
    0 ≤ levels.values.lowest ∧ levels.values.highest ≤ 1 := by
  obtain ⟨⟨hred, hred'⟩, -⟩ := Channel.value_spec levels.red
  obtain ⟨⟨hgreen, hgreen'⟩, -⟩ := Channel.value_spec levels.green
  obtain ⟨⟨hblue, hblue'⟩, -⟩ := Channel.value_spec levels.blue
  exact ⟨le_min (le_min hred hgreen) hblue, max_le (max_le hred' hgreen') hblue'⟩

/-- The fractions of a color that is not grey are spread. -/
theorem le_spread_values {levels : Rgb (Fin 256)}
    (h : levels.values.highest ≠ levels.values.lowest) :
    1 / 2 ^ 8 ≤ levels.values.highest - levels.values.lowest := by
  obtain ⟨a, ha⟩ : ∃ a, levels.values.highest = Channel.value a := by
    rcases @highest_cases levels.values with h | h | h <;> exact ⟨_, h⟩
  obtain ⟨b, hb⟩ : ∃ b, levels.values.lowest = Channel.value b := by
    rcases @lowest_cases levels.values with h | h | h <;> exact ⟨_, h⟩
  have hspread := Channel.le_abs_value_sub (ha ▸ hb ▸ h)
  rwa [← ha, ← hb, abs_of_nonneg (sub_nonneg.mpr lowest_le_highest)] at hspread

end Rgb

namespace Hsl

open Number ExactHsl

/-! ## Hue -/

/-- The difference of two levels in proportion to the spread of all levels. -/
theorem abs_div_spread_le {low high a b : ℚ} (ha : low ≤ a ∧ a ≤ high) (hb : low ≤ b ∧ b ≤ high) :
    |a - b| ≤ high - low ∧ |(a - b) / (high - low)| ≤ 1 := by
  have hspread : 0 ≤ high - low := by linarith [ha.1, ha.2]
  have hdifference : |a - b| ≤ high - low :=
    abs_le.mpr ⟨by linarith [ha.1, hb.2], by linarith [ha.2, hb.1]⟩
  refine ⟨hdifference, ?_⟩
  rw [abs_div, abs_of_nonneg hspread]
  exact div_le_one_of_le₀ hdifference hspread

/-- On the hue circle no color stands more than five sixths of a turn away from zero. -/
theorem abs_sextant_le (values : Rgb ℚ) : |ExactHsl.sextant values| ≤ 5 := by
  have hred := abs_le.mp (abs_div_spread_le Rgb.green_mem (@Rgb.blue_mem values)).2
  have hgreen := abs_le.mp (abs_div_spread_le Rgb.blue_mem (@Rgb.red_mem values)).2
  have hblue := abs_le.mp (abs_div_spread_le Rgb.red_mem (@Rgb.green_mem values)).2
  rw [ExactHsl.sextant, abs_le]
  split_ifs <;> constructor <;> linarith

/-- Levels whose exact values are known. -/
structure Holds (values : Rgb ℚ) (levels : Rgb Number) : Prop where
  /-- The exact red level. -/
  red : levels.red.toRat? = some values.red
  /-- The exact green level. -/
  green : levels.green.toRat? = some values.green
  /-- The exact blue level. -/
  blue : levels.blue.toRat? = some values.blue

section Parts

variable {values : Rgb ℚ} {levels : Rgb Number} {highest lowest spread : Number}
  (hvalues : 0 ≤ values.lowest ∧ values.highest ≤ 1)
  (hhighest : highest.toRat? = some values.highest)
  (hwide : 1 / 2 ^ 8 ≤ values.highest - values.lowest)
  (hspread : spread.Near 39 (values.highest - values.lowest))

include hvalues hhighest hwide hspread

/-- The position on the hue circle. The highest channel is found by comparing exact values, so it is
the right one. -/
theorem sextant_near (hlevels : Holds values levels) :
    Yields (sextant levels highest spread) (Near 26 (ExactHsl.sextant values)) := by
  -- the three branches differ only in their channels and in where they start on the circle
  have hdifference : ∀ {x y : Number} {a b : ℚ}, x.toRat? = some a → y.toRat? = some b →
      values.lowest ≤ a ∧ a ≤ values.highest → values.lowest ≤ b ∧ b ≤ values.highest →
      Yields (do return float (← (← x.sub y).div spread))
        (Near 28 ((a - b) / (values.highest - values.lowest))) := by
    intro x y a b hx hy ha hb
    have habs : ∀ {c : ℚ}, values.lowest ≤ c ∧ c ≤ values.highest → |c| ≤ 2 ^ 9 := fun hc =>
      abs_le_two_pow ⟨hvalues.1.trans hc.1, hc.2.trans hvalues.2⟩
    refine (sub_near (k := 39) (near_of_toRat? hx) (near_of_toRat? hy) (habs ha) (habs hb)
      le_rfl).bind fun difference hdifference => ?_
    refine (div_near (k := 28) (m := 8) hdifference hspread hwide ?_ (abs_div_spread_le ha hb).1
      (by norm_num)).bind fun quotient hquotient => .ok hquotient
    linarith
  -- the levels are exact, so the branch that is taken is the exact one
  have hred := sameValue_iff hhighest hlevels.red
  have hgreen := sameValue_iff hhighest hlevels.green
  unfold sextant ExactHsl.sextant
  by_cases hr : values.highest = values.red
  · rw [if_pos (hred.mpr hr), if_pos hr]
    exact (hdifference hlevels.green hlevels.blue Rgb.green_mem Rgb.blue_mem).mono fun z hz =>
      hz.mono (by norm_num)
  rw [if_neg (hred.not.mpr hr), if_neg hr]
  by_cases hg : values.highest = values.green
  · rw [if_pos (hgreen.mpr hg), if_pos hg]
    refine (hdifference hlevels.blue hlevels.red Rgb.blue_mem Rgb.red_mem).bind fun z hz => ?_
    exact add_near (near_ofNat 2) hz (by norm_num)
      ((abs_div_spread_le Rgb.blue_mem Rgb.red_mem).2.trans (by norm_num)) (by norm_num)
  · rw [if_neg (hgreen.not.mpr hg), if_neg hg]
    refine (hdifference hlevels.red hlevels.green Rgb.red_mem Rgb.green_mem).bind fun z hz => ?_
    exact add_near (near_ofNat 4) hz (by norm_num)
      ((abs_div_spread_le Rgb.red_mem Rgb.green_mem).2.trans (by norm_num)) (by norm_num)

omit hhighest in
/-- The saturation, from a divisor that is near what the lightness can reach. -/
theorem div_reach_near {divisor : Number}
    (hdivisor : divisor.Near 35 (reach ((values.highest + values.lowest) / 2))) :
    Yields (spread.div divisor) fun f => (float f).Near 24 (ofLevels values).saturation := by
  have hreach := spread_le_reach hvalues.1 hvalues.2
  refine div_near (k := 24) (m := 8) (hspread.mono (by norm_num)) hdivisor (hwide.trans hreach)
    ((reach_le_one _).trans (by norm_num)) ?_ (by norm_num)
  rwa [abs_of_nonneg (sub_nonneg.mpr Rgb.lowest_le_highest)]

/-! Both formulas of the saturation divide by what the lightness can reach. Near the middle, where
the wrong one may be taken, their divisors are nearly the same. -/

omit hhighest in
/-- The saturation of a dark color, as the difference of the extremes divided by their sum. -/
theorem saturation_dark_near {sum : Number} (hsum : sum.Near 39 (values.highest + values.lowest))
    (hdark : (values.highest + values.lowest) / 2 ≤ 1 / 2 + 1 / 2 ^ 38) :
    Yields (spread.div sum) fun f => (float f).Near 24 (ofLevels values).saturation := by
  have hdouble : values.highest + values.lowest = 2 * ((values.highest + values.lowest) / 2) := by
    ring
  rw [hdouble] at hsum
  refine div_reach_near hvalues hwide hspread ((hsum.mono (by norm_num)).of_abs_sub_le ?_)
  exact (abs_two_mul_sub_reach_le hdark (by norm_num)).trans (by norm_num)

/-- The saturation of a pale color, with the distances of the extremes from white in place of their
sum. -/
theorem saturation_pale_near (hlowest : lowest.toRat? = some values.lowest)
    (hpale : 1 / 2 - 1 / 2 ^ 38 ≤ (values.highest + values.lowest) / 2) :
    Yields (do spread.div (← (← Number.sub 2 highest).sub lowest)) fun f =>
      (float f).Near 24 (ofLevels values).saturation := by
  obtain ⟨hhighest', hlowest'⟩ := Rgb.extremes_mem hvalues.1 hvalues.2
  have hrest' : |2 - values.highest| ≤ 2 ^ 9 :=
    abs_le.mpr ⟨by linarith [hhighest'.2], by linarith [hhighest'.1]⟩
  refine (sub_near (k := 39) (near_ofNat 2) (near_of_toRat? hhighest) (by norm_num)
    (abs_le_two_pow hhighest') le_rfl).bind fun rest hrest => ?_
  refine (sub_near (k := 37) hrest (near_of_toRat? hlowest) hrest' (abs_le_two_pow hlowest')
    (by norm_num)).bind fun divisor hdivisor => ?_
  have hdouble : 2 - values.highest - values.lowest =
      2 - 2 * ((values.highest + values.lowest) / 2) := by
    ring
  rw [hdouble] at hdivisor
  refine div_reach_near hvalues hwide hspread ((hdivisor.mono (by norm_num)).of_abs_sub_le ?_)
  exact (abs_two_sub_sub_reach_le hpale (by norm_num)).trans (by norm_num)

end Parts

/-- A hue in whole degrees and two fractions are those of an exact color. -/
structure Tells (exact : ExactHsl) (color : Hsl) : Prop where
  /-- The hue is rounded to a degree, and whole turns are taken off. -/
  hue : ∃ n : ℤ, |(color.hue : ℚ) / 360 - (exact.hue + n)| ≤ 1 / 720 + 1 / 2 ^ 16
  /-- The saturation is computed closely. -/
  saturation : (float color.saturation).Near 24 exact.saturation
  /-- The lightness is computed closely. -/
  lightness : (float color.lightness).Near 24 exact.lightness

/-- The hue in whole degrees, from the position in sixths of a turn. -/
theorem hue_near {values : Rgb ℚ} {sixths : Number}
    (hsixths : sixths.Near 26 (ExactHsl.sextant values)) {saturation lightness : Binary64}
    (hsaturation : (float saturation).Near 24 (ofLevels values).saturation)
    (hlightness : (float lightness).Near 24 (ofLevels values).lightness) :
    Yields (do
      let degrees ← (← sixths.mul 60).roundHalfUp
      return ({ hue := degrees % 360, saturation, lightness } : Hsl))
      (Tells (ofLevels values)) := by
  have hsextant := abs_sextant_le values
  have hdegrees' : |ExactHsl.sextant values * 60| ≤ 2 ^ 10 := by
    rw [abs_mul, abs_of_pos (by norm_num : (0 : ℚ) < 60)]
    linarith
  refine (mul_near (k := 17) (i := 3) (j := 6) hsixths (near_ofNat 60)
    (hsextant.trans (by norm_num)) (by norm_num) (by norm_num) (by norm_num)).bind
    fun scaled hscaled => ?_
  refine (roundHalfUp_near hscaled hdegrees' (by norm_num)).bind fun degrees hdegrees => ?_
  refine .ok ⟨⟨-(degrees / 360), ?_⟩, hsaturation, hlightness⟩
  -- the remainder leaves whole turns out, and a degree is one part of 360
  have hremainder : ((degrees % 360 : Int) : ℚ) = degrees - 360 * (degrees / 360 : Int) := by
    exact_mod_cast Int.emod_def degrees 360
  have hturns : ((degrees % 360 : Int) : ℚ) / 360 -
      (ExactHsl.sextant values / 6 + (-(degrees / 360) : Int)) =
      (degrees - ExactHsl.sextant values * 60) / 360 := by
    rw [hremainder]
    push_cast
    ring
  have hsmall : (1 / 2 + 1 / 2 ^ 16 : ℚ) / 360 ≤ 1 / 720 + 1 / 2 ^ 16 := by norm_num
  show |((degrees % 360 : Int) : ℚ) / 360 -
    (ExactHsl.sextant values / 6 + (-(degrees / 360) : Int))| ≤ _
  rw [hturns, abs_div, abs_of_pos (by norm_num : (0 : ℚ) < 360)]
  exact (div_le_div_of_nonneg_right hdegrees (by norm_num)).trans hsmall

/-- The parts of a grey. -/
theorem tells_grey {values : Rgb ℚ} (hgrey : values.highest = values.lowest) {lightness : Binary64}
    (hlightness : (float lightness).Near 24 (ofLevels values).lightness) :
    Tells (ofLevels values) { hue := 0, saturation := Binary64.zero false, lightness } where
  hue := by
    have hred : values.highest = values.red :=
      le_antisymm (hgrey ▸ Rgb.red_mem.1) Rgb.red_mem.2
    have hsextant : ExactHsl.sextant values = 0 := by
      rw [ExactHsl.sextant, if_pos hred, hgrey, sub_self, div_zero]
    refine ⟨0, ?_⟩
    rw [ofLevels, hsextant]
    norm_num
  saturation := by
    simp only [ofLevels, hgrey, sub_self, zero_div]
    exact near_of_toRat? (toRat?_zero false)
  lightness := hlightness

/-- Three bytes have the hue, the saturation and the lightness of their fractions, with the hue in
whole degrees. -/
theorem ofRgb_near (levels : Rgb (Fin 256)) :
    Yields (ofRgb ((levels.map fun level : Fin 256 => (level : Int)).map Number.int))
      (Tells (ofLevels levels.values)) := by
  have hfraction : ∀ level : Fin 256, Yields ((Number.int (level : Int)).div 255) fun f =>
      (float f).toRat? = some (Channel.value level) := fun level =>
    div_fraction (d := 255) (toRat?_int _) (by norm_num) (by omega) (by norm_num)
  have hvalues := levels.values_mem
  unfold ofRgb
  refine (hfraction levels.red).bind fun red hred => ?_
  refine (hfraction levels.green).bind fun green hgreen => ?_
  refine (hfraction levels.blue).bind fun blue hblue => ?_
  have hlevels : Holds levels.values ⟨float red, float green, float blue⟩ := ⟨hred, hgreen, hblue⟩
  have hhighest : (((float red).max (float green)).max (float blue)).toRat? =
      some levels.values.highest := toRat?_max (toRat?_max hred hgreen) hblue
  have hlowest : (((float red).min (float green)).min (float blue)).toRat? =
      some levels.values.lowest := toRat?_min (toRat?_min hred hgreen) hblue
  set highest := ((float red).max (float green)).max (float blue)
  set lowest := ((float red).min (float green)).min (float blue)
  obtain ⟨hhighest', hlowest'⟩ := Rgb.extremes_mem hvalues.1 hvalues.2
  refine (add_near (k := 39) (near_of_toRat? hhighest) (near_of_toRat? hlowest)
    (abs_le_two_pow hhighest') (abs_le_two_pow hlowest') le_rfl).bind fun sum hsum => ?_
  have hsum' : |levels.values.highest + levels.values.lowest| ≤ 2 ^ 9 :=
    abs_le.mpr ⟨by linarith [hhighest'.1, hlowest'.1], by linarith [hhighest'.2, hlowest'.2]⟩
  refine (div_ofNat_near (k := 38) hsum (by norm_num) hsum' (by norm_num)).bind
    fun lightness hlightness => ?_
  have hlightness' : (float lightness).Near 24 (ofLevels levels.values).lightness :=
    hlightness.mono (by norm_num)
  have hsame := sameValue_iff hhighest hlowest
  split
  case isTrue hgrey => exact .ok (tells_grey (hsame.mp hgrey) hlightness')
  case isFalse hgrey =>
    have hwide := Rgb.le_spread_values (hsame.not.mp hgrey)
    refine (sub_near (k := 39) (near_of_toRat? hhighest) (near_of_toRat? hlowest)
      (abs_le_two_pow hhighest') (abs_le_two_pow hlowest') le_rfl).bind fun spread hspread => ?_
    -- what follows is the same for both formulas of the saturation
    have hrest : ∀ saturation, (float saturation).Near 24 (ofLevels levels.values).saturation →
        Yields (do
          let sixths ← sextant ⟨float red, float green, float blue⟩ highest spread
          let degrees ← (← sixths.mul 60).roundHalfUp
          return ({ hue := degrees % 360, saturation, lightness } : Hsl))
          (Tells (ofLevels levels.values)) := fun saturation hsaturation =>
      (sextant_near hvalues hhighest hwide hspread hlevels).bind fun sixths hsixths =>
        hue_near hsixths hsaturation hlightness'
    -- the rounded lightness chooses the formula, so the exact one may lie just beyond the middle
    obtain ⟨v, hv, herror⟩ := hlightness
    obtain ⟨hbelow, habove⟩ := abs_le.mp herror
    have hhalf := le_iff hv (y := .float half) toRat?_half
    split
    case isTrue h =>
      exact (saturation_dark_near hvalues hwide hspread hsum (by linarith [hhalf.mp h])).bind hrest
    case isFalse h =>
      have hpale := saturation_pale_near hvalues hhighest hwide hspread hlowest
        (by linarith [not_le.mp (hhalf.not.mp h)])
      simpa only [bind_assoc] using hpale.bind hrest

end Hsl

end CssColor
