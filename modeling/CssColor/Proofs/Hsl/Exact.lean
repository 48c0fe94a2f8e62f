import CssColor.Channel
import Mathlib.Algebra.Order.Group.MinMax
import Mathlib.Algebra.Order.Round
import Mathlib.Data.Rat.Floor
import Mathlib.Tactic.FieldSimp
import Mathlib.Tactic.GCongr
import Mathlib.Tactic.Linarith
import Mathlib.Tactic.NormNum
import Mathlib.Tactic.Positivity
import Mathlib.Tactic.Ring

/-!
# Hue, saturation and lightness without rounding

The level of a channel is the lightness, moved up or down by the saturation. How far it can be moved
is the `reach` of the lightness, and how far it is moved is the `bump` of the distance between the
hue and the place of the channel on the hue circle. Red, green and blue stand one third of a turn
apart. In this form the levels vary at a bounded rate with the three parts of a color, so that small
changes of the parts make small changes of the levels.

## Main definitions

* `ExactHsl.bump`: the presence of a channel at a distance from it on the hue circle.
* `ExactHsl.toLevels`: the levels of a color.
* `ExactHsl.ofLevels`: the color with given levels.

## Main results

* `ExactHsl.toLevels_ofLevels`: the two are inverse to each other.
* `ExactHsl.abs_level_sub_le`: by how much the levels of two colors differ at most.
-/

namespace CssColor

/-! ## Three levels -/

namespace Rgb

/-- The highest of three levels. -/
def highest (levels : Rgb ℚ) : ℚ := max (max levels.red levels.green) levels.blue

/-- The lowest of three levels. -/
def lowest (levels : Rgb ℚ) : ℚ := min (min levels.red levels.green) levels.blue

variable {levels : Rgb ℚ}

/-- The red level lies between the extremes, as the other two do. -/
theorem red_mem : levels.lowest ≤ levels.red ∧ levels.red ≤ levels.highest :=
  ⟨(min_le_left _ _).trans (min_le_left _ _), (le_max_left _ _).trans (le_max_left _ _)⟩

theorem green_mem : levels.lowest ≤ levels.green ∧ levels.green ≤ levels.highest :=
  ⟨(min_le_left _ _).trans (min_le_right _ _), (le_max_right _ _).trans (le_max_left _ _)⟩

theorem blue_mem : levels.lowest ≤ levels.blue ∧ levels.blue ≤ levels.highest :=
  ⟨min_le_right _ _, le_max_right _ _⟩

theorem lowest_le_highest : levels.lowest ≤ levels.highest := red_mem.1.trans red_mem.2

/-- Of levels that are fractions of one, both extremes are. -/
theorem extremes_mem (hlow : 0 ≤ levels.lowest) (hhigh : levels.highest ≤ 1) :
    (0 ≤ levels.highest ∧ levels.highest ≤ 1) ∧ 0 ≤ levels.lowest ∧ levels.lowest ≤ 1 :=
  ⟨⟨hlow.trans lowest_le_highest, hhigh⟩, hlow, lowest_le_highest.trans hhigh⟩

/-- Each extreme is the level of one of the channels. -/
theorem lowest_cases :
    levels.lowest = levels.red ∨ levels.lowest = levels.green ∨ levels.lowest = levels.blue := by
  rcases min_choice (min levels.red levels.green) levels.blue with h | h
  · rcases min_choice levels.red levels.green with h' | h'
    · exact .inl (h.trans h')
    · exact .inr (.inl (h.trans h'))
  · exact .inr (.inr h)

theorem highest_cases :
    levels.highest = levels.red ∨ levels.highest = levels.green ∨
      levels.highest = levels.blue := by
  rcases max_choice (max levels.red levels.green) levels.blue with h | h
  · rcases max_choice levels.red levels.green with h' | h'
    · exact .inl (h.trans h')
    · exact .inr (.inl (h.trans h'))
  · exact .inr (.inr h)

end Rgb

/-- A color by hue, saturation and lightness, in exact numbers. -/
structure ExactHsl where
  /-- The hue in turns. -/
  hue : ℚ
  /-- The saturation as a fraction. -/
  saturation : ℚ
  /-- The lightness as a fraction. -/
  lightness : ℚ

namespace ExactHsl

/-! ## The hue circle -/

/-- The presence of a channel at a distance from it on the hue circle: full up to one sixth of a
turn, and none from one third of a turn on. -/
def bump (t : ℚ) : ℚ := max 0 (min 1 (2 - 6 * |t - round t|))

theorem bump_nonneg (t : ℚ) : 0 ≤ bump t := le_max_left _ _

theorem bump_le_one (t : ℚ) : bump t ≤ 1 := max_le zero_le_one (min_le_left _ _)

/-- Whole turns do not count. -/
theorem bump_add_intCast (t : ℚ) (n : ℤ) : bump (t + n) = bump t := by
  rw [bump, round_add_intCast, bump]
  push_cast
  rw [add_sub_add_right_eq_sub]

/-- The presence falls from full to none within one sixth of a turn. -/
theorem abs_bump_sub_le (t u : ℚ) : |bump t - bump u| ≤ 6 * |t - u| := by
  -- the nearest integer of the one is not nearer to the other than its own
  have hdistance : ∀ t u : ℚ, |t - round t| - |u - round u| ≤ |t - u| := by
    intro t u
    have hround := round_le t (round u)
    have htriangle := abs_sub_le t u (round u)
    linarith
  have hboth : |(2 - 6 * |t - round t|) - (2 - 6 * |u - round u|)| ≤ 6 * |t - u| := by
    have h₁ := hdistance t u
    have h₂ := hdistance u t
    rw [abs_sub_comm u t] at h₂
    rw [abs_le]
    constructor <;> linarith
  calc |bump t - bump u|
      ≤ |min 1 (2 - 6 * |t - round t|) - min 1 (2 - 6 * |u - round u|)| := by
        rw [bump, bump, max_comm 0, max_comm 0]
        exact abs_max_sub_max_le_abs _ _ _
    _ ≤ max |(1 : ℚ) - 1| |(2 - 6 * |t - round t|) - (2 - 6 * |u - round u|)| :=
        abs_min_sub_min_le_max _ _ _ _
    _ ≤ 6 * |t - u| := max_le (by simp) hboth

/-- Up to half a turn the distance is measured from zero. -/
theorem abs_sub_round_of_abs_le {t : ℚ} (h : |t| ≤ 1 / 2) : |t - round t| = |t| := by
  apply le_antisymm
  · simpa using round_le t 0
  · rcases eq_or_ne (round t) 0 with hzero | hne
    · rw [hzero, Int.cast_zero, sub_zero]
    · -- any other integer is at least half a turn away
      have hone : (1 : ℚ) ≤ |(round t : ℚ)| := by
        rw [← Int.cast_abs]
        exact_mod_cast Int.one_le_abs hne
      have htriangle := abs_sub_abs_le_abs_sub (round t : ℚ) t
      rw [abs_sub_comm] at htriangle
      linarith

/-- On the half turn around a channel no whole turns have to be taken off. -/
theorem bump_of_abs_le {t : ℚ} (h : |t| ≤ 1 / 2) : bump t = max 0 (min 1 (2 - 6 * |t|)) := by
  rw [bump, abs_sub_round_of_abs_le h]

/-- Over one turn, counted from where it begins, the presence rises, stays full, falls and stays
none, each along a straight line. -/
theorem bump_sub_third {t : ℚ} (hlow : 0 ≤ t) (hhigh : t ≤ 1) :
    bump (t - 1 / 3) = max 0 (min 1 (min (6 * t) (4 - 6 * t))) := by
  rcases le_or_gt t (5 / 6) with hnear | hfar
  · have hhalf : |t - 1 / 3| ≤ 1 / 2 := by
      rw [abs_le]
      constructor <;> linarith
    have hlines : 2 - 6 * |t - 1 / 3| = min (6 * t) (4 - 6 * t) := by
      rcases le_total t (1 / 3) with h | h
      · rw [abs_of_nonpos (by linarith), min_eq_left (by linarith)]
        ring
      · rw [abs_of_nonneg (by linarith), min_eq_right (by linarith)]
        ring
    rw [bump_of_abs_le hhalf, hlines]
  · -- the nearer way around the circle is the one through zero
    have habs : |t - 1 / 3 + (-1 : ℤ)| = 4 / 3 - t := by
      push_cast
      rw [abs_of_nonpos (by linarith)]
      ring
    rw [← bump_add_intCast _ (-1), bump_of_abs_le (habs.trans_le (by linarith)), habs,
      min_eq_right (by linarith), max_eq_left (by linarith),
      min_eq_right (show 4 - 6 * t ≤ 6 * t by linarith), min_eq_right (by linarith),
      max_eq_left (by linarith)]

/-- Each of the four lines still gives the presence, up to an error, when it is followed a little
beyond its ends. -/
theorem abs_line_sub_bump_le {t x e : ℚ} (ht : 0 ≤ t ∧ t ≤ 1) (he : 0 ≤ e ∧ e ≤ 1 / 3)
    (hx : (x = 6 * t ∧ 6 * t ≤ 1 + e) ∨ (x = 1 ∧ 1 - e ≤ 6 * t ∧ 2 * t ≤ 1 + e) ∨
      (x = 4 - 6 * t ∧ 1 - e ≤ 2 * t ∧ 3 * t ≤ 2 + e) ∨ (x = 0 ∧ 2 - e ≤ 3 * t)) :
    |x - bump (t - 1 / 3)| ≤ 3 * e := by
  obtain ⟨hlow, hhigh⟩ := ht
  obtain ⟨hpos, hsmall⟩ := he
  rw [bump_sub_third hlow hhigh, abs_le]
  rcases hx with ⟨rfl, h⟩ | ⟨rfl, h, h'⟩ | ⟨rfl, h, h'⟩ | ⟨rfl, h⟩
  all_goals
    simp only [max_def, min_def]
    constructor <;> split_ifs <;> linarith

/-! ## Levels -/

/-- The difference of the highest and the lowest level of a fully saturated color. -/
def reach (lightness : ℚ) : ℚ := 1 - |2 * lightness - 1|

/-- The difference of the highest and the lowest level. -/
def chroma (color : ExactHsl) : ℚ := color.saturation * reach color.lightness

/-- The level of the channel that has its place at the given point of the hue circle. -/
def level (color : ExactHsl) (place : ℚ) : ℚ :=
  color.lightness + color.chroma * (bump (color.hue - place) - 1 / 2)

/-- The levels of a color. -/
def toLevels (color : ExactHsl) : Rgb ℚ :=
  ⟨color.level 0, color.level (1 / 3), color.level (2 / 3)⟩

/-- Saturation and lightness are fractions of one. -/
structure InRange (color : ExactHsl) : Prop where
  /-- The saturation goes from grey to the full color. -/
  saturation : 0 ≤ color.saturation ∧ color.saturation ≤ 1
  /-- The lightness goes from black to white. -/
  lightness : 0 ≤ color.lightness ∧ color.lightness ≤ 1

theorem reach_le_one (lightness : ℚ) : reach lightness ≤ 1 := by
  rw [reach]
  linarith [abs_nonneg (2 * lightness - 1)]

theorem reach_nonneg {lightness : ℚ} (hlow : 0 ≤ lightness) (hhigh : lightness ≤ 1) :
    0 ≤ reach lightness := by
  rw [reach, sub_nonneg, abs_le]
  constructor <;> linarith

/-- The reach is what the lightness leaves on its narrower side, twice. -/
theorem reach_le (lightness : ℚ) :
    reach lightness ≤ 2 * lightness ∧ reach lightness ≤ 2 * (1 - lightness) := by
  rw [reach]
  constructor
  · linarith [neg_abs_le (2 * lightness - 1)]
  · linarith [le_abs_self (2 * lightness - 1)]

/-- Dark colors reach as far as pale ones do. -/
theorem reach_one_sub (lightness : ℚ) : reach (1 - lightness) = reach lightness := by
  rw [reach, reach, ← abs_neg (2 * lightness - 1)]
  ring_nf

/-- A little beyond the middle a dark color still reaches nearly as far as down to black. -/
theorem abs_two_mul_sub_reach_le {lightness e : ℚ} (h : lightness ≤ 1 / 2 + e) (he : 0 ≤ e) :
    |2 * lightness - reach lightness| ≤ 4 * e := by
  rcases le_total lightness (1 / 2) with hdark | hpale
  · rw [reach, abs_of_nonpos (by linarith : 2 * lightness - 1 ≤ 0), abs_le]
    constructor <;> linarith
  · rw [reach, abs_of_nonneg (by linarith : 0 ≤ 2 * lightness - 1), abs_le]
    constructor <;> linarith

/-- So does a pale color up to white. -/
theorem abs_two_sub_sub_reach_le {lightness e : ℚ} (h : 1 / 2 - e ≤ lightness) (he : 0 ≤ e) :
    |2 - 2 * lightness - reach lightness| ≤ 4 * e := by
  have hmirror := abs_two_mul_sub_reach_le (show 1 - lightness ≤ 1 / 2 + e by linarith) he
  rwa [reach_one_sub, mul_sub, mul_one] at hmirror

/-- A change of the lightness changes the reach by at most twice as much. -/
theorem abs_reach_sub_le (x y : ℚ) : |reach x - reach y| ≤ 2 * |x - y| := by
  have hdifference : reach x - reach y = |2 * y - 1| - |2 * x - 1| := by
    rw [reach, reach]
    ring
  calc |reach x - reach y| ≤ |(2 * y - 1) - (2 * x - 1)| := by
        rw [hdifference]
        exact abs_abs_sub_abs_le_abs_sub _ _
    _ = |2 * (y - x)| := by ring_nf
    _ = 2 * |x - y| := by rw [abs_mul, abs_of_pos (by norm_num : (0 : ℚ) < 2), abs_sub_comm]

variable {color other : ExactHsl}

/-- The saturation is the share that the chroma has of the reach. -/
theorem chroma_mem (h : color.InRange) :
    0 ≤ color.chroma ∧ color.chroma ≤ reach color.lightness := by
  have hreach := reach_nonneg h.lightness.1 h.lightness.2
  exact ⟨mul_nonneg h.saturation.1 hreach, mul_le_of_le_one_left hreach h.saturation.2⟩

/-- The lowest and the highest level are fractions of one. -/
theorem bounds_mem (h : color.InRange) :
    0 ≤ color.lightness - color.chroma / 2 ∧ color.lightness + color.chroma / 2 ≤ 1 := by
  obtain ⟨-, hhigh⟩ := chroma_mem h
  obtain ⟨hdown, hup⟩ := reach_le color.lightness
  constructor <;> linarith

/-- The level of a channel starts half the chroma below the lightness and rises with the presence of
the channel. -/
theorem level_eq (color : ExactHsl) (place : ℚ) :
    color.level place = color.lightness - color.chroma / 2 +
      color.chroma * bump (color.hue - place) := by
  rw [level]
  ring

/-- A place is the same after whole turns. -/
theorem level_add_intCast (color : ExactHsl) (place : ℚ) (n : ℤ) :
    color.level (place + n) = color.level place := by
  have hturn : color.hue - (place + n) = color.hue - place + (-n : ℤ) := by
    push_cast
    ring
  rw [level, level, hturn, bump_add_intCast]

/-- The levels of a color are fractions of one. -/
theorem level_mem (h : color.InRange) (place : ℚ) :
    0 ≤ color.level place ∧ color.level place ≤ 1 := by
  obtain ⟨hlow, hhigh⟩ := bounds_mem h
  obtain ⟨hchroma, -⟩ := chroma_mem h
  have hpresence := mul_nonneg hchroma (bump_nonneg (color.hue - place))
  have hpresence' := mul_le_of_le_one_right hchroma (bump_le_one (color.hue - place))
  rw [level_eq]
  constructor <;> linarith

section Drift

variable {turns saturation lightness : ℚ} (h : color.InRange) (h' : other.InRange)
  (hsaturation : |color.saturation - other.saturation| ≤ saturation)
  (hlightness : |color.lightness - other.lightness| ≤ lightness)

include h h' hsaturation hlightness

/-- Colors with nearly the same saturation and lightness have nearly the same chroma. -/
theorem abs_chroma_sub_le : |color.chroma - other.chroma| ≤ saturation + 2 * lightness := by
  have hreach : |reach color.lightness| ≤ 1 := by
    rw [abs_of_nonneg (reach_nonneg h.lightness.1 h.lightness.2)]
    exact reach_le_one _
  have hreach_sub : |reach color.lightness - reach other.lightness| ≤ 2 * lightness :=
    (abs_reach_sub_le _ _).trans (by gcongr)
  have hfraction : |other.saturation| ≤ 1 := by
    rw [abs_of_nonneg h'.saturation.1]
    exact h'.saturation.2
  -- first the saturation changes, then the reach
  calc |color.chroma - other.chroma|
      = |(color.saturation - other.saturation) * reach color.lightness +
          other.saturation * (reach color.lightness - reach other.lightness)| := by
        rw [chroma, chroma]
        ring_nf
    _ ≤ |color.saturation - other.saturation| * |reach color.lightness| +
          |other.saturation| * |reach color.lightness - reach other.lightness| := by
        rw [← abs_mul, ← abs_mul]
        exact abs_add_le _ _
    _ ≤ saturation * 1 + 1 * (2 * lightness) :=
        add_le_add
          (mul_le_mul hsaturation hreach (abs_nonneg _) ((abs_nonneg _).trans hsaturation))
          (mul_le_mul hfraction hreach_sub (abs_nonneg _) zero_le_one)
    _ = saturation + 2 * lightness := by ring

/-- Two colors of nearly the same hue, saturation and lightness have nearly the same levels. The
lightness counts twice, since it also changes the reach of the saturation. -/
theorem abs_level_sub_le {n : ℤ} (hturns : |color.hue - (other.hue + n)| ≤ turns) (place : ℚ) :
    |color.level place - other.level place| ≤ 2 * lightness + saturation / 2 + 6 * turns := by
  have hchroma : |other.chroma| ≤ 1 := by
    obtain ⟨hlow, hhigh⟩ := chroma_mem h'
    rw [abs_of_nonneg hlow]
    exact hhigh.trans (reach_le_one _)
  have hchroma_sub := abs_chroma_sub_le h h' hsaturation hlightness
  set presence := bump (color.hue - place) with hpresence
  set presence' := bump (other.hue - place) with hpresence'
  have hhalf : |presence - 1 / 2| ≤ 1 / 2 := by
    have hlow := bump_nonneg (color.hue - place)
    have hhigh := bump_le_one (color.hue - place)
    rw [abs_le]
    constructor <;> linarith
  have hpresence_sub : |presence - presence'| ≤ 6 * turns := by
    have hbump := abs_bump_sub_le (color.hue - place) (other.hue - place + n)
    have hdistance : color.hue - place - (other.hue - place + n) = color.hue - (other.hue + n) := by
      ring
    rw [bump_add_intCast, hdistance] at hbump
    exact hbump.trans (by gcongr)
  -- first the lightness changes, then the chroma around it, and then the presence
  calc |color.level place - other.level place|
      = |(color.lightness - other.lightness) + (color.chroma - other.chroma) * (presence - 1 / 2) +
          other.chroma * (presence - presence')| := by
        rw [level, level, ← hpresence, ← hpresence']
        ring_nf
    _ ≤ |color.lightness - other.lightness| + |color.chroma - other.chroma| * |presence - 1 / 2| +
          |other.chroma| * |presence - presence'| := by
        rw [← abs_mul, ← abs_mul]
        exact (abs_add_le _ _).trans (add_le_add (abs_add_le _ _) le_rfl)
    _ ≤ lightness + (saturation + 2 * lightness) * (1 / 2) + 1 * (6 * turns) :=
        add_le_add
          (add_le_add hlightness (mul_le_mul hchroma_sub hhalf (abs_nonneg _)
            ((abs_nonneg _).trans hchroma_sub)))
          (mul_le_mul hchroma hpresence_sub (abs_nonneg _) zero_le_one)
    _ = 2 * lightness + saturation / 2 + 6 * turns := by ring

end Drift

/-! ## The color with given levels -/

/-- The position of a color on the hue circle in sixths of a turn. It is measured from the place of
its highest channel, and a grey stands at zero. -/
def sextant (levels : Rgb ℚ) : ℚ :=
  let spread := levels.highest - levels.lowest
  if levels.highest = levels.red then (levels.green - levels.blue) / spread
  else if levels.highest = levels.green then 2 + (levels.blue - levels.red) / spread
  else 4 + (levels.red - levels.green) / spread

/-- The color with given levels. -/
def ofLevels (levels : Rgb ℚ) : ExactHsl where
  hue := sextant levels / 6
  saturation :=
    (levels.highest - levels.lowest) / reach ((levels.highest + levels.lowest) / 2)
  lightness := (levels.highest + levels.lowest) / 2

/-- Two channels of which one is lowest, seen from the place of the highest one: their difference
decides the distance to their places, and with it their presence. -/
theorem bump_offset {low spread v w : ℚ} (hspread : 0 < spread) (hv : low ≤ v ∧ v ≤ low + spread)
    (hw : low ≤ w ∧ w ≤ low + spread) (hlowest : v = low ∨ w = low) :
    bump ((v - w) / spread / 6) = 1 ∧
      low + spread * bump ((v - w) / spread / 6 - 1 / 3) = v ∧
      low + spread * bump ((v - w) / spread / 6 + 1 / 3) = w := by
  obtain ⟨offset, hoffset⟩ : ∃ offset, offset = (v - w) / spread := ⟨_, rfl⟩
  have hproduct : spread * offset = v - w := by
    rw [hoffset]
    field_simp
  have hlow : -1 ≤ offset := by
    rw [hoffset, le_div_iff₀ hspread]
    linarith
  have hhigh : offset ≤ 1 := by
    rw [hoffset, div_le_iff₀ hspread]
    linarith
  have hbehind : v = low → offset ≤ 0 := by
    intro h
    rw [hoffset]
    exact div_nonpos_of_nonpos_of_nonneg (by linarith) hspread.le
  have hahead : w = low → 0 ≤ offset := by
    intro h
    rw [hoffset]
    exact div_nonneg (by linarith) hspread.le
  rw [← hoffset]
  refine ⟨?_, ?_, ?_⟩
  · have hsmall : |offset / 6| ≤ 1 / 6 := by
      rw [abs_le]
      constructor <;> linarith
    rw [bump_of_abs_le (hsmall.trans (by norm_num)), min_eq_left (by linarith),
      max_eq_right zero_le_one]
  · -- behind by one third of a turn, less the offset
    have habs : |offset / 6 - 1 / 3| = 1 / 3 - offset / 6 := by
      rw [abs_of_nonpos (by linarith)]
      ring
    have hpresence : 2 - 6 * (1 / 3 - offset / 6) = offset := by ring
    rw [bump_of_abs_le (habs.trans_le (by linarith)), habs, hpresence, min_eq_right hhigh]
    rcases hlowest with h | h
    · rw [max_eq_left (hbehind h), mul_zero, add_zero, h]
    · rw [max_eq_right (hahead h), hproduct, h]
      ring
  · -- ahead by one third of a turn and the offset
    have habs : |offset / 6 + 1 / 3| = offset / 6 + 1 / 3 := abs_of_nonneg (by linarith)
    have hpresence : 2 - 6 * (offset / 6 + 1 / 3) = -offset := by ring
    rw [bump_of_abs_le (habs.trans_le (by linarith)), habs, hpresence,
      min_eq_right (by linarith)]
    rcases hlowest with h | h
    · rw [max_eq_right (neg_nonneg.mpr (hbehind h)), mul_neg, hproduct, h]
      ring
    · rw [max_eq_left (neg_nonpos.mpr (hahead h)), mul_zero, add_zero, h]

section OfLevels

open Rgb

variable {levels : Rgb ℚ} (hlow : 0 ≤ levels.lowest) (hhigh : levels.highest ≤ 1)

include hlow hhigh

/-- Levels between zero and one never differ by more than their middle can reach. -/
theorem spread_le_reach :
    levels.highest - levels.lowest ≤ reach ((levels.highest + levels.lowest) / 2) := by
  rw [reach, le_sub_comm, abs_le]
  constructor <;> linarith

/-- The parts of a color whose levels are fractions of one are fractions of one themselves. -/
theorem inRange_ofLevels : (ofLevels levels).InRange where
  saturation := by
    have hspread : 0 ≤ levels.highest - levels.lowest := sub_nonneg.mpr lowest_le_highest
    have hreach := spread_le_reach hlow hhigh
    exact ⟨div_nonneg hspread (hspread.trans hreach), div_le_one_of_le₀ hreach
      (hspread.trans hreach)⟩
  lightness := by
    have hle : levels.lowest ≤ levels.highest := lowest_le_highest
    rw [ofLevels]
    constructor <;> linarith

/-- The chroma of a color is the difference of its extreme levels. -/
theorem chroma_ofLevels : (ofLevels levels).chroma = levels.highest - levels.lowest := by
  have hreach := spread_le_reach hlow hhigh
  have hspread : 0 ≤ levels.highest - levels.lowest := sub_nonneg.mpr lowest_le_highest
  rcases (hspread.trans hreach).eq_or_lt with hzero | hpos
  · -- black and white reach nowhere, and their levels do not differ
    have hnone : levels.highest - levels.lowest = 0 := le_antisymm (by linarith) hspread
    rw [chroma, ofLevels, hnone, zero_div, zero_mul]
  · exact div_mul_cancel₀ _ hpos.ne'

/-- The levels of the color with given levels, seen from the lowest of them. -/
theorem level_ofLevels (place : ℚ) :
    (ofLevels levels).level place = levels.lowest +
      (levels.highest - levels.lowest) * bump (sextant levels / 6 - place) := by
  rw [level_eq, chroma_ofLevels hlow hhigh, ofLevels]
  ring

/-- The levels around the place of the highest channel: the next one stands one third of a turn
ahead of it and the last one as far behind. -/
theorem level_around {next last place : ℚ} (hspread : 0 < levels.highest - levels.lowest)
    (hnext : levels.lowest ≤ next ∧ next ≤ levels.highest)
    (hlast : levels.lowest ≤ last ∧ last ≤ levels.highest)
    (hlowest : next = levels.lowest ∨ last = levels.lowest)
    (hsextant : sextant levels =
      6 * place + (next - last) / (levels.highest - levels.lowest)) :
    (ofLevels levels).level place = levels.highest ∧
      (ofLevels levels).level (place + 1 / 3) = next ∧
      (ofLevels levels).level (place - 1 / 3) = last := by
  -- seen from the place of the highest channel, the hue is the offset that the other two have
  have hturn (distance : ℚ) : sextant levels / 6 - (place + distance) =
      (next - last) / (levels.highest - levels.lowest) / 6 - distance := by
    rw [hsextant]
    ring
  obtain ⟨hself, hahead, hbehind⟩ := bump_offset hspread ⟨hnext.1, by linarith [hnext.2]⟩
    ⟨hlast.1, by linarith [hlast.2]⟩ hlowest
  refine ⟨?_, ?_, ?_⟩
  · have hplace := hturn 0
    rw [add_zero, sub_zero] at hplace
    rw [level_ofLevels hlow hhigh, hplace, hself]
    ring
  · rw [level_ofLevels hlow hhigh, hturn, hahead]
  · rw [sub_eq_add_neg place, level_ofLevels hlow hhigh, hturn, sub_neg_eq_add, hbehind]

/-- The levels of a grey do not depend on the hue. -/
theorem toLevels_ofLevels_of_grey (hgrey : levels.highest = levels.lowest) :
    (ofLevels levels).toLevels = levels := by
  have hlevel : ∀ {x : ℚ} (place : ℚ), levels.lowest ≤ x ∧ x ≤ levels.highest →
      (ofLevels levels).level place = x := by
    intro x place hx
    rw [level_ofLevels hlow hhigh, hgrey, sub_self, zero_mul, add_zero]
    exact le_antisymm hx.1 (hx.2.trans hgrey.le)
  rw [toLevels, hlevel 0 red_mem, hlevel (1 / 3) green_mem, hlevel (2 / 3) blue_mem]

/-- The color with given levels has these levels. -/
theorem toLevels_ofLevels : (ofLevels levels).toLevels = levels := by
  rcases (@lowest_le_highest levels).eq_or_lt with hgrey | hlt
  · exact toLevels_ofLevels_of_grey hlow hhigh hgrey.symm
  have hround := fun {next last place : ℚ} =>
    @level_around levels hlow hhigh next last place (sub_pos.mpr hlt)
  have hlowest := @lowest_cases levels
  suffices h : (ofLevels levels).level 0 = levels.red ∧
      (ofLevels levels).level (1 / 3) = levels.green ∧
      (ofLevels levels).level (2 / 3) = levels.blue by
    rw [toLevels, h.1, h.2.1, h.2.2]
  by_cases hr : levels.highest = levels.red
  · -- red is highest, green comes next and blue last, one turn before its place
    have hsextant : sextant levels = 6 * 0 +
        (levels.green - levels.blue) / (levels.highest - levels.lowest) := by
      rw [sextant, if_pos hr, mul_zero, zero_add]
    obtain ⟨hself, hnext, hlast⟩ := hround green_mem blue_mem (by grind) hsextant
    have hturn := level_add_intCast (ofLevels levels) (0 - 1 / 3) 1
    norm_num at hturn hnext hlast ⊢
    exact ⟨hself.trans hr, hnext, hturn.trans hlast⟩
  by_cases hg : levels.highest = levels.green
  · -- green is highest, blue comes next and red last
    have hsextant : sextant levels = 6 * (1 / 3) +
        (levels.blue - levels.red) / (levels.highest - levels.lowest) := by
      rw [sextant, if_neg hr, if_pos hg]
      norm_num
    obtain ⟨hself, hnext, hlast⟩ := hround blue_mem red_mem (by grind) hsextant
    norm_num at hself hnext hlast ⊢
    exact ⟨hlast, hself.trans hg, hnext⟩
  · -- blue is highest, red comes next, one turn after its place, and green last
    have hb : levels.highest = levels.blue :=
      ((@highest_cases levels).resolve_left hr).resolve_left hg
    have hsextant : sextant levels = 6 * (2 / 3) +
        (levels.red - levels.green) / (levels.highest - levels.lowest) := by
      rw [sextant, if_neg hr, if_neg hg]
      norm_num
    obtain ⟨hself, hnext, hlast⟩ := hround red_mem green_mem (by grind) hsextant
    have hturn := level_add_intCast (ofLevels levels) 0 1
    norm_num at hself hturn hnext hlast ⊢
    exact ⟨hturn.symm.trans hnext, hlast, hself.trans hb⟩

end OfLevels

end ExactHsl

end CssColor
