import CssColor.Proofs.Hsl.Channels
import CssColor.Proofs.Hsl.Parts
import CssColor.Proofs.Rendering
import CssColor.Proofs.Token

/-!
# Drift of colors in calls of `hsl`

A call of `hsl` is written with a whole hue and whole percentages. A color that is written in this
way and read again may therefore move. Rounding the lightness moves the level of a channel by up to
one percent, rounding the saturation by up to a quarter of a percent and rounding the hue by up to a
120th, and the channel is rounded once more. Together this is less than six steps of a channel, and
five steps do occur.

## Main definitions

* `Rgb.CloseTo`: the channels of two colors differ by at most a number of steps.
* `Token.DriftsAtMost`: a bound on the drift of all colors in place of all tokens of `hsl`.

## Main results

* `Token.driftsAtMost_iff`: five steps are a bound, and the least one.
-/

namespace CssColor

open Hsl ExactHsl

/-- No channel of one color is more than `n` steps away from that of the other. -/
def Rgb.CloseTo (n : Int) (channels others : Rgb Int) : Prop :=
  |channels.red - others.red| ≤ n ∧ |channels.green - others.green| ≤ n ∧
    |channels.blue - others.blue| ≤ n

/-! ## One channel -/

/-- A level that is 21 thousandths away from that of a byte is shown at most five steps away. -/
theorem Hsl.Shown.abs_sub_le_five {q : ℚ} {n : Int} {level : Fin 256} (h : Shown 6 q n)
    (hlevel : |q - Channel.value level| ≤ 21 / 1000) : |n - (level : Int)| ≤ 5 := by
  obtain ⟨-, hvalue⟩ := Channel.value_spec level
  rw [Shown, abs_le] at h
  rw [abs_le] at hlevel hvalue
  have hlow : (-6 : ℚ) < (n : ℚ) - (level : ℕ) := by linarith
  have hhigh : (n : ℚ) - (level : ℕ) < 6 := by linarith
  have hlow' : -6 < n - ((level : ℕ) : Int) := by exact_mod_cast hlow
  have hhigh' : n - ((level : ℕ) : Int) < 6 := by exact_mod_cast hhigh
  exact abs_le.mpr ⟨by omega, by omega⟩

/-- The nearest whole percentage of a fraction that is nearly `q`. -/
theorem abs_percent_sub_le {fraction : Binary64} {percent : Nat} {v q : ℚ}
    (hnear : (Number.float fraction).Near 24 q) (hv : fraction.toRat? = some v)
    (herror : |(percent : ℚ) / 100 - v| ≤ 1 / 200 + 1 / 2 ^ 38) :
    |(percent : ℚ) / 100 - q| ≤ 1 / 200 + 1 / 2 ^ 38 + 1 / 2 ^ 24 := by
  obtain ⟨w, hw, hclose⟩ := hnear
  obtain rfl : v = w := by
    rw [Number.toRat?_float, hv] at hw
    exact Option.some.inj hw
  exact (abs_sub_le _ v q).trans (add_le_add herror hclose)

/-- Rounding the three parts of a color to whole numbers moves no level by more than 21
thousandths. -/
theorem abs_level_ofWhole_sub_le {exact : ExactHsl} (hexact : exact.InRange) {parts : Hsl}
    (htells : Tells exact parts) {hue saturation lightness : Nat} {s l : ℚ}
    (hhue : parts.hue = hue) (hs : parts.saturation.toRat? = some s)
    (hl : parts.lightness.toRat? = some l) (hsaturation : saturation ≤ 100)
    (hlightness : lightness ≤ 100)
    (hserror : |(saturation : ℚ) / 100 - s| ≤ 1 / 200 + 1 / 2 ^ 38)
    (hlerror : |(lightness : ℚ) / 100 - l| ≤ 1 / 200 + 1 / 2 ^ 38) (place : ℚ) :
    |(ofWhole hue saturation lightness).level place - exact.level place| ≤ 21 / 1000 := by
  obtain ⟨n, hturns⟩ := htells.hue
  rw [hhue, Int.cast_natCast] at hturns
  have hlevel := abs_level_sub_le (inRange_ofWhole hsaturation hlightness) hexact
    (abs_percent_sub_le htells.saturation hs hserror)
    (abs_percent_sub_le htells.lightness hl hlerror) hturns place
  linarith

namespace Token

/-! ## Written calls -/

/-- The decimal digits of a small number are read as that number. -/
theorem read_toDigits {n : Nat} (h : n < 1000) :
    Yields (Decimal.read (Nat.toDigits 10 n)) fun f =>
      (Number.float f).toRat? = some (n : ℚ) := by
  obtain ⟨hne, hlength, hdigits⟩ := isShortNumber_toDigits h
  have hvalue := Decimal.toRat?_nearest_digits hlength hdigits
  rw [Numeral.ofDigitText_toDigits] at hvalue
  refine ⟨_, Decimal.read_digits hne hdigits, ?_⟩
  rwa [Numeral.ofDigitText_toDigits]

/-- The color of a written call is the nearest one to its hue and percentages. -/
theorem hslColor_hslLayout (token : Token) {hue saturation lightness : Nat} (hhue : hue < 360)
    (hs : saturation ≤ 100) (hl : lightness ≤ 100) :
    Yields (token.hslLayout hue saturation lightness).toCall.hslColor fun shown =>
      ∃ levels : Rgb (Fin 256), shown = levels.literal ∧
        Shows 6 (ofWhole hue saturation lightness).toLevels
          (levels.map fun level : Fin 256 => (level : Int)) := by
  refine (read_toDigits (show hue < 1000 by omega)).bind fun h hread => ?_
  refine (read_toDigits (show saturation < 1000 by omega)).bind fun s hread' => ?_
  refine (read_toDigits (show lightness < 1000 by omega)).bind fun l hread'' => ?_
  exact toHex_near hread hhue hread' hs hread'' hl

theorem kind_of_ofHslCall? {text : String} {found : Recognition}
    (h : Recognition.ofHslCall? text = .ok (some found)) : found.kind = .hsl := by
  unfold Recognition.ofHslCall? at h
  split at h
  · obtain ⟨color, -, hfound⟩ := bind_eq_ok.mp h
    cases hfound
    rfl
  · cases h

/-- The token is of `hsl`, with the spelling and the opacity of a recognized call. -/
structure SpelledAs (token : Token) (found : Recognition) : Prop where
  /-- Colors are written in its place as calls of `hsl`. -/
  kind : token.kind = .hsl
  /-- The called function is written in the same case, with or without its last letter. -/
  function : token.function = found.function
  /-- The arguments are separated alike. -/
  separator : token.separator = found.separator
  /-- The opacity is the same text. -/
  alpha : token.alpha = found.alpha

/-- The spelling of a recognized call has the form of a call. -/
theorem SpelledAs.spells {token : Token} {found : Recognition} (h : token.SpelledAs found)
    {text : String} (hfound : Recognition.ofHslCall? text = .ok (some found)) : token.Spells := by
  have hwell : found.WellFormed :=
    (Recognition.ofHslCall?_spec text).of_eq_ok hfound found (Option.mem_some_self found)
  -- the forms ask for nothing but what the token shares with the recognized call
  let recorded : Token := found.spanning token.start token.stop
  have hkind : token.kind = recorded.kind := h.kind.trans (kind_of_ofHslCall? hfound).symm
  have hcall : recorded.kind.isCall = true := by
    rw [← hkind, h.kind]
    rfl
  obtain ⟨hspells, -, -⟩ := @spells_of_wellFormed recorded hwell hcall
  have hfunction : token.functionText = recorded.functionText := by
    rw [functionText, functionText, h.function, hkind]
    rfl
  have hseparator : token.separatorText = recorded.separatorText := by
    rw [separatorText, separatorText, h.separator]
    rfl
  refine ⟨?_, ?_, ?_⟩
  · rw [hfunction, hkind]
    exact hspells.function
  · rw [hseparator]
    exact hspells.separator
  · rw [h.alpha]
    exact hspells.alpha

/-! ## The bound -/

/-- Every color of six digits, written in place of a token with the spelling of a recognized call
of `hsl`, is recognized again with channels at most `n` steps away. -/
def DriftsAtMost (n : Int) : Prop :=
  ∀ (text : String) (found : Recognition) (token : Token) (color : String),
    Recognition.ofHslCall? text = .ok (some found) → token.SpelledAs found →
    Decode.isColor color.toList = true →
    ∃ written shown before after, token.render color = .ok written ∧
      Recognition.ofHslCall? written = .ok (some shown) ∧ Rgb.ofHex color = .ok before ∧
      Rgb.ofHex shown.color = .ok after ∧ after.CloseTo n before

/-- A bound on the drift may be replaced by a larger one. -/
theorem DriftsAtMost.mono {m n : Int} (h : DriftsAtMost m) (hmn : m ≤ n) : DriftsAtMost n := by
  intro text found token color hfound hspelled hcolor
  obtain ⟨written, shown, before, after, hwritten, hshown, hbefore, hafter, hred, hgreen, hblue⟩ :=
    h text found token color hfound hspelled hcolor
  exact ⟨written, shown, before, after, hwritten, hshown, hbefore, hafter, hred.trans hmn,
    hgreen.trans hmn, hblue.trans hmn⟩

/-- No channel drifts by more than five steps. Whole degrees and percentages move a level by less
than that, and rounding it to a channel adds at most one half on either side. -/
theorem driftsAtMost_five : DriftsAtMost 5 := by
  intro text found token color hfound hspelled hcolor
  have hspells := hspelled.spells hfound
  -- the parts of the color, and the whole numbers that are written for them
  obtain ⟨levels, -, hlevels⟩ := exists_levels_of_isColor hcolor
  obtain ⟨parts, hparts, htells⟩ := ofRgb_near levels
  have hrange := (ofRgb_spec levels).of_eq_ok hparts
  obtain ⟨hue, saturation, lightness, s, l, ⟨hh, hs, hl⟩, hofColor, hhue, hs', hl', hserror,
    hlerror⟩ := Inscription.ofColor_hsl_of_parts hlevels hparts hrange
  have hwritten := render_call (hspelled.kind ▸ hofColor)
  -- what is read again
  have hvalid := hslLayout_valid hspelled.kind hspells hh hs hl
  obtain ⟨shown, hshown, levels', rfl, hshows⟩ := token.hslColor_hslLayout hh hs hl
  have hagain := Call.ofHslCall?_text hvalid hshown
  rw [hslLayout, ← callText_eq] at hagain
  refine ⟨_, _, _, _, hwritten, hagain, hlevels, Rgb.ofHex_literal levels', ?_⟩
  -- the exact color of the bytes lies between the two
  obtain ⟨hlow, hhigh⟩ := Rgb.values_mem levels
  have hexact : (ofLevels levels.values).toLevels = levels.values := toLevels_ofLevels hlow hhigh
  have hclose := abs_level_ofWhole_sub_le (inRange_ofLevels hlow hhigh) htells hhue hs' hl' hs hl
    hserror hlerror
  refine ⟨hshows.red.abs_sub_le_five ?_, hshows.green.abs_sub_le_five ?_,
    hshows.blue.abs_sub_le_five ?_⟩
  · have hred : (ofLevels levels.values).level 0 = Channel.value levels.red :=
      congrArg Rgb.red hexact
    exact hred ▸ hclose 0
  · have hgreen : (ofLevels levels.values).level (1 / 3) = Channel.value levels.green :=
      congrArg Rgb.green hexact
    exact hgreen ▸ hclose (1 / 3)
  · have hblue : (ofLevels levels.values).level (2 / 3) = Channel.value levels.blue :=
      congrArg Rgb.blue hexact
    exact hblue ▸ hclose (2 / 3)

/-- The color `#02e4e6` has a hue of 180.53 degrees, a saturation of 98.28 percent and a lightness
of 45.49 percent. It is written as `hsl(181, 98%, 45%)`, which is `#02dfe3`. -/
theorem five_le_of_driftsAtMost {n : Int} (h : DriftsAtMost n) : 5 ≤ n := by
  -- this color is written as a call whose green channel is five steps away
  let found : Recognition := ⟨.hsl, "#02dfe3", "", "hsl", ", "⟩
  have hfound : Recognition.ofHslCall? "hsl(181, 98%, 45%)" = .ok (some found) := by
    decide +kernel
  obtain ⟨written, shown, before, after, hwritten, hshown, hbefore, hafter, -, hgreen, -⟩ :=
    h "hsl(181, 98%, 45%)" found (found.spanning 0 18) "#02e4e6" hfound ⟨rfl, rfl, rfl, rfl⟩
      (by decide)
  have hrender : (found.spanning 0 18).render "#02e4e6" = .ok "hsl(181, 98%, 45%)" := by
    decide +kernel
  rw [hrender] at hwritten
  cases hwritten
  rw [hfound] at hshown
  cases hshown
  have hbefore' : Rgb.ofHex "#02e4e6" = .ok ⟨2, 228, 230⟩ := by decide +kernel
  have hafter' : Rgb.ofHex "#02dfe3" = .ok ⟨2, 223, 227⟩ := by decide +kernel
  rw [hbefore'] at hbefore
  rw [show found.color = "#02dfe3" from rfl, hafter'] at hafter
  cases hbefore
  cases hafter
  exact hgreen

/-- In a call of `hsl` no color moves by more than five steps in any channel, and no smaller number
of steps bounds the drift. -/
theorem driftsAtMost_iff (n : Int) : DriftsAtMost n ↔ 5 ≤ n :=
  ⟨five_le_of_driftsAtMost, driftsAtMost_five.mono⟩

/-- Two steps do not bound the drift. -/
theorem not_driftsAtMost_two : ¬ DriftsAtMost 2 := by
  intro h
  have hfive := five_le_of_driftsAtMost h
  omega

end Token

end CssColor
