import CssColor.Opacity
import CssColor.Proofs.Channel
import CssColor.Proofs.Number.Significant
import CssColor.Proofs.Recognition.Grammar

/-!
# Opacity as a byte

A hex literal holds an opacity as a byte, a call holds it as a number or a percentage. Every opacity
that a call can write has a byte. A byte that is written with three decimals comes back: three
decimals and the roundings on the way move it by less than half a step of the bytes.

## Main results

* `Opacity.toHexDigits_spec`: every number, an infinity or a NaN included, has the digits of a byte.
* `Opacity.toHexDigits_of_near`: a number near a fraction of 255 has the digits of that byte.
* `Opacity.ofText_spec`: an opacity in a call is read as a number from zero to one.
* `Opacity.write_hexPair`: the text of a byte reads back as that byte.
-/

namespace CssColor.Opacity

open Text Binary64

/-! ## From numbers to bytes -/

/-- Every number is taken for an opacity, NaN and the infinities among them, and is written as the
digits of a byte. -/
theorem toHexDigits_spec (opacity : Number) :
    ∃ level : Fin 256, toHexDigits opacity = .ok (Channel.hexPair level) := by
  obtain ⟨q, hq, hlow, hhigh⟩ := Number.clamp_spec opacity (Number.toRat?_ofNat 0)
    (Number.toRat?_ofNat 1) (by norm_num)
  have hunit : (opacity.clamp 0 1).Within 0 := by
    refine ⟨q, hq, abs_le.mpr ⟨?_, ?_⟩⟩
    · exact le_trans (by norm_num) hlow
    · simpa using hhigh
  obtain ⟨scaled, hscaled, hwithin⟩ := Number.mul_within hunit
    (Number.within_ofNat (n := 255) (k := 8) (by norm_num)) (m := 8) (by norm_num) (by norm_num)
  obtain ⟨n, hn⟩ := Number.roundHalfUp_of_within hwithin (by norm_num)
  obtain ⟨level, hlevel⟩ := Channel.encode_spec (.int n)
  refine ⟨level, ?_⟩
  rw [toHexDigits, hscaled, ok_bind, hn, ok_bind, hlevel]

/-- A byte is at most all of 255. -/
theorem level_div_le_one (level : Fin 256) : (level : ℚ) / 255 ≤ 1 := by
  rw [div_le_one (by norm_num)]
  exact_mod_cast Nat.lt_succ_iff.mp level.isLt

/-- Moving a number to the unit interval does not move it away from a number in there. -/
theorem abs_clamp_sub_le {p q : ℚ} (hq : 0 ≤ q) (hq' : q ≤ 1) :
    |max 0 (min 1 p) - q| ≤ |p - q| := by
  rcases le_total p 0 with hp | hp
  · rw [min_eq_right (hp.trans zero_le_one), max_eq_left hp, abs_of_nonpos (by linarith),
      abs_of_nonpos (by linarith)]
    linarith
  · rcases le_total p 1 with hp' | hp'
    · rw [min_eq_right hp', max_eq_right hp]
    · rw [min_eq_left hp', max_eq_right zero_le_one, abs_of_nonneg (by linarith),
        abs_of_nonneg (by linarith)]
      linarith

/-- A number near an integer is rounded to it. -/
theorem roundHalfUp_of_near {x : Number} {q : ℚ} {n : Nat} (hx : x.toRat? = some q)
    (hn : n < 2 ^ 40) (hnear : |q - n| ≤ 3 / 8) : x.roundHalfUp = .ok (n : Int) := by
  obtain ⟨hlow, hhigh⟩ := abs_le.mp hnear
  have hn' : (n : ℚ) < 2 ^ 40 := by exact_mod_cast hn
  have hbound : |q| ≤ 2 ^ 52 := abs_le.mpr ⟨by linarith, by linarith⟩
  -- seven eighths more than the integer are a binary64 number, so the sum does not round beyond
  have hceil : roundRat (((8 * n + 7 : ℕ) : ℚ) / 2 ^ 3) = ((8 * n + 7 : ℕ) : ℚ) / 2 ^ 3 :=
    roundRat_dyadic (by omega) (by norm_num)
  have hfloor : ⌊roundRat (q + 1 / 2)⌋ = (n : Int) := by
    rw [Int.floor_eq_iff]
    constructor
    · exact natCast_le_roundRat (by omega) (by linarith)
    · have hle : q + 1 / 2 ≤ ((8 * n + 7 : ℕ) : ℚ) / 2 ^ 3 := by
        push_cast
        linarith
      have hround := (roundRat_mono hle).trans_eq hceil
      push_cast at hround ⊢
      linarith
  rw [Number.roundHalfUp_spec hx hbound, hfloor]

/-- A number that is nearer to a fraction of 255 than a quarter of a step has the digits of that
byte. -/
theorem toHexDigits_of_near {opacity : Number} {p : ℚ} {level : Fin 256}
    (hp : opacity.toRat? = some p) (hnear : |p - level / 255| ≤ 1 / 1020) :
    toHexDigits opacity = .ok (Channel.hexPair level) := by
  have hclamp := Number.toRat?_clamp hp (Number.toRat?_ofNat 0) (Number.toRat?_ofNat 1)
  rw [Nat.cast_zero, Nat.cast_one] at hclamp
  -- times 255 the distance is at most one quarter, which leaves room for one more rounding
  have hclose := (abs_clamp_sub_le (by positivity) (level_div_le_one level)).trans hnear
  set c := max 0 (min 1 p)
  have hc : 0 ≤ c := le_max_left _ _
  have hc' : c ≤ 1 := max_le zero_le_one (min_le_left _ _)
  obtain ⟨scaled, hscaled, hvalue⟩ := Number.mul_round hclamp (Number.toRat?_ofNat 255)
    (Number.abs_le_of_nonneg hc (by linarith)) (by norm_num)
    (Number.abs_le_of_nonneg (by positivity) (by push_cast; linarith))
  have hround : |roundRat (c * (255 : ℕ)) - c * (255 : ℕ)| ≤ 1 / 2 ^ 20 :=
    abs_roundRat_sub_le (k := 8) (by positivity) (by push_cast; linarith) (by norm_num)
  have hinteger : scaled.roundHalfUp = .ok ((level : ℕ) : Int) := by
    refine roundHalfUp_of_near hvalue (by omega) ?_
    rw [abs_le] at hround hclose ⊢
    push_cast at hround ⊢
    constructor <;> linarith [hround.1, hround.2, hclose.1, hclose.2]
  rw [toHexDigits, hscaled, ok_bind, hinteger, ok_bind, Channel.encode_level]

/-- All of an opacity has the digits of the largest byte. -/
theorem toHexDigits_of_one {opacity : Number} (hone : opacity.toRat? = some 1) :
    toHexDigits opacity = .ok ['f', 'f'] := by
  have hnear : |(1 : ℚ) - ((255 : Fin 256) : ℕ) / 255| ≤ 1 / 1020 := by norm_num
  exact toHexDigits_of_near hone hnear

/-! ## From text to numbers -/

/-- A number without its sign is read, whatever its length. -/
theorem exists_read_of_isFraction {text : List Char} (h : Call.IsFraction text) :
    ∃ f, Decimal.read text = .ok f := by
  rcases h with ⟨whole, decimals, rfl, hwhole, hne, hdecimals⟩ | ⟨hne, hdigits⟩
  · exact ⟨_, Decimal.read_fraction hwhole hne hdecimals⟩
  · exact ⟨_, Decimal.read_digits hne hdigits⟩

/-- A decimal is written with digits and a point. -/
theorem isDigit_or_point_of_isFraction {text : List Char} (h : Call.IsFraction text) :
    ∀ c ∈ text, c.isDigit = true ∨ c = '.' := by
  rcases h with ⟨whole, decimals, rfl, hwhole, -, hdecimals⟩ | ⟨-, hdigits⟩
  · intro c hc
    rcases List.mem_append.mp hc with hc | hc
    · exact .inl (hwhole c hc)
    · rcases List.mem_cons.mp hc with rfl | hc
      · exact .inr rfl
      · exact .inl (hdecimals c hc)
  · exact fun c hc => .inl (hdigits c hc)

theorem getLast?_ne_percent {text : List Char} (h : Call.IsFraction text) :
    text.getLast? ≠ some '%' := by
  intro hlast
  rcases isDigit_or_point_of_isFraction h '%' (List.mem_of_getLast? hlast) with hc | hc
  · exact absurd hc (by decide)
  · exact absurd hc (by decide)

/-- An opacity in a call is read as a number from zero to one. -/
theorem ofText_spec {value sign : List Char} (hvalue : Call.IsFraction value)
    (hsign : Call.IsSign sign) :
    Yields (ofText (value ++ sign)) fun opacity =>
      ∃ q, opacity.toRat? = some q ∧ 0 ≤ q ∧ q ≤ 1 := by
  have hclamp : ∀ x : Number, ∃ q, (x.clamp 0 1).toRat? = some q ∧ 0 ≤ q ∧ q ≤ 1 := fun x => by
    simpa using Number.clamp_spec x (Number.toRat?_ofNat 0) (Number.toRat?_ofNat 1) (by norm_num)
  obtain ⟨f, hf⟩ := exists_read_of_isFraction hvalue
  rcases hsign with rfl | rfl
  · refine ⟨(Number.float f).clamp 0 1, ?_, hclamp _⟩
    rw [List.append_nil, ofText, if_neg (getLast?_ne_percent hvalue), hf]
    rfl
  · obtain ⟨g, hg⟩ := Number.float_div_ofNat f (n := 100) (by norm_num) (by norm_num)
    refine ⟨(Number.float g).clamp 0 1, ?_, hclamp _⟩
    rw [ofText, if_pos (by simp), List.dropLast_concat, hf, ok_bind, hg]
    rfl

/-- An opacity that is not below one is that of an opaque color. -/
theorem toHexDigits_of_not_lt {opacity : Number} {q : ℚ} (hq : opacity.toRat? = some q)
    (hq' : q ≤ 1) (hlt : opacity.lt 1 = false) : toHexDigits opacity = .ok ['f', 'f'] := by
  have hone : q = 1 := by
    refine le_antisymm hq' (not_lt.mp fun h => ?_)
    have := (Number.lt_iff hq (Number.toRat?_ofNat 1)).mpr (by simpa using h)
    rw [hlt] at this
    exact Bool.false_ne_true this
  exact toHexDigits_of_one (hone ▸ hq)

/-! ## From bytes to text and back -/

/-- The opacity of two digits is their byte divided by 255. -/
theorem ofHexDigits_hexPair (level : Fin 256) :
    Yields (ofHexDigits (Channel.hexPair level))
      fun f => f.toRat? = some (roundRat (level / 255)) := by
  have hone := level_div_le_one level
  have hlevel : (level : ℚ) ≤ 255 := (div_le_one (by norm_num)).mp hone
  have hquotient : |(((level : ℕ) : Int) : ℚ) / (255 : ℕ)| ≤ 2 ^ 104 := by
    push_cast
    rw [abs_of_nonneg (by positivity)]
    exact hone.trans (by norm_num)
  rw [ofHexDigits, Channel.read_hexPair, ok_bind]
  have h := Number.div_spec (Number.toRat?_int (level : ℕ)) (Number.toRat?_ofNat 255) (by norm_num)
    (Number.abs_le_of_nonneg (by positivity) (by push_cast; linarith)) (by norm_num) hquotient
  simpa using h

/-- Only the last byte is opaque. -/
theorem lt_one_iff {level : Fin 256} {f : Binary64}
    (hf : f.toRat? = some (roundRat (level / 255))) :
    (Number.float f).lt 1 = true ↔ level ≠ 255 := by
  rw [Number.lt_iff (x := .float f) hf (Number.toRat?_ofNat 1)]
  constructor
  · rintro hlt rfl
    have hone : roundRat (1 : ℚ) = 1 := by simpa using roundRat_natCast (n := 1) (by norm_num)
    norm_num [hone] at hlt
  · intro hne
    have hlevel : (level : ℚ) ≤ 254 := by
      have hlt : (level : ℕ) ≤ 254 := by omega
      exact_mod_cast hlt
    -- 255/256 lies between the last quotient below one and one, and it is a binary64 number
    have hdyadic := roundRat_dyadic (m := 255) (j := 8) (by norm_num) (by norm_num)
    have hle : (level : ℚ) / 255 ≤ ((255 : ℕ) : ℚ) / 2 ^ 8 := by
      rw [div_le_div_iff₀ (by norm_num) (by norm_num)]
      push_cast
      linarith
    refine ((roundRat_mono hle).trans_eq hdyadic).trans_lt ?_
    norm_num

/-- A byte as thousandths, which are rounded half up. -/
theorem thousandths_spec {level : Fin 256} {f : Binary64}
    (hf : f.toRat? = some (roundRat (level / 255))) :
    ∃ scaled, ∃ t : Nat, (Number.float f).mul 1000 = .ok scaled ∧
      scaled.roundHalfUp = .ok (t : Int) ∧ t ≤ 1000 ∧
      |(t : ℚ) / 1000 - level / 255| ≤ 1 / 1999 := by
  have hlevel := level_div_le_one level
  have hlevel' : (0 : ℚ) ≤ level / 255 := by positivity
  set q := (level : ℚ) / 255
  -- each of the three roundings on the way moves the number by far less than a thousandth
  have hround : |roundRat q - q| ≤ 1 / 2 ^ 40 :=
    abs_roundRat_sub_le (k := 0) hlevel' (by simpa using hlevel) (by norm_num)
  have hv : 0 ≤ roundRat q := roundRat_nonneg hlevel'
  have hv' : roundRat q ≤ 1 := roundRat_le_one hlevel
  set v := roundRat q
  obtain ⟨scaled, hscaled, hvalue⟩ := Number.mul_round (x := .float f) hf (Number.toRat?_ofNat 1000)
    (Number.abs_le_of_nonneg hv (by linarith)) (by norm_num)
    (Number.abs_le_of_nonneg (by positivity) (by push_cast; linarith))
  have hround' : |roundRat (v * (1000 : ℕ)) - v * (1000 : ℕ)| ≤ 1 / 2 ^ 40 :=
    abs_roundRat_sub_le (k := 10) (by positivity) (by push_cast; linarith) (by norm_num)
  have hw : 0 ≤ roundRat (v * (1000 : ℕ)) := roundRat_nonneg (by positivity)
  have hw' : roundRat (v * (1000 : ℕ)) ≤ (1000 : ℕ) :=
    roundRat_le_natCast (by norm_num) (by push_cast; linarith)
  set w := roundRat (v * (1000 : ℕ))
  push_cast at hround' hw'
  have hround'' : |roundRat (w + 1 / 2) - (w + 1 / 2)| ≤ 1 / 2 ^ 40 :=
    abs_roundRat_sub_le (k := 10) (by positivity) (by linarith) (by norm_num)
  have hs : 0 ≤ roundRat (w + 1 / 2) := roundRat_nonneg (by linarith)
  have hinteger := Number.roundHalfUp_spec hvalue (Number.abs_le_of_nonneg hw (by linarith))
  set s := roundRat (w + 1 / 2)
  obtain ⟨t, ht⟩ := Int.eq_ofNat_of_zero_le (Int.floor_nonneg.mpr hs)
  have hlow : (t : ℚ) ≤ s := by
    have h := Int.floor_le s
    rw [ht] at h
    exact_mod_cast h
  have hhigh : s < t + 1 := by
    have h := Int.lt_floor_add_one s
    rw [ht] at h
    exact_mod_cast h
  rw [abs_le] at hround hround' hround''
  refine ⟨scaled, t, hscaled, hinteger.trans (congrArg _ ht), ?_, ?_⟩
  · have hlt : (t : ℚ) < 1001 := by linarith [hround''.2]
    exact Nat.lt_succ_iff.mp (by exact_mod_cast hlt)
  · rw [abs_le]
    constructor <;> linarith [hround.1, hround.2, hround'.1, hround'.2, hround''.1, hround''.2]

/-- A thousandth is written as a positional text near it. -/
theorem exists_text_of_thousandths {t : Nat} (ht : t ≤ 1000) :
    ∃ g text p, (Number.int t).div 1000 = .ok g ∧
      Significant.write significantDigits g = String.ofList text ∧ Decimal.Writes text p ∧
      |p - t / 1000| ≤ 1 / 9999 ∧ (p = 0 ∨ 1 / 2000 ≤ p) := by
  -- zero has no leading digit and is written on its own
  rcases Nat.eq_zero_or_pos t with rfl | hpos
  · refine ⟨Binary64.zero false, ['0'], 0, by decide +kernel, by decide, ?_, by norm_num,
      .inl rfl⟩
    have hzero : Numeral.ofDigitText 10 ['0'] = 0 := by decide
    have hwrites : Decimal.Writes ['0'] (Numeral.ofDigitText 10 ['0']) :=
      .digits (List.cons_ne_nil _ _) (List.forall_mem_singleton.mpr (by decide))
    rwa [hzero, Nat.cast_zero] at hwrites
  · have ht' : (t : ℚ) ≤ 1000 := by exact_mod_cast ht
    have hpos' : (1 : ℚ) ≤ t := by exact_mod_cast hpos
    have hquotient : |((t : Int) : ℚ) / (1000 : ℕ)| ≤ 2 ^ 104 := by
      rw [abs_of_nonneg (by positivity)]
      push_cast
      linarith
    obtain ⟨g, hg, hvalue⟩ := Number.div_spec (Number.toRat?_int t) (Number.toRat?_ofNat 1000)
      (by norm_num) (Number.abs_le_of_nonneg (by positivity) (by push_cast; linarith)) (by norm_num)
      hquotient
    push_cast at hvalue
    have hround : |roundRat ((t : ℚ) / 1000) - t / 1000| ≤ 1 / 2 ^ 40 :=
      abs_roundRat_sub_le (k := 0) (by positivity) (by linarith) (by norm_num)
    rw [abs_le] at hround
    obtain ⟨text, p, htext, hwrites, hnear⟩ := Significant.write_writes
      (show 1 < significantDigits by decide) hvalue
      (by norm_num; linarith [hround.1]) (by norm_num; linarith [hround.2])
    have hunit : (10 : ℚ) ^ (2 - significantDigits : Int) / 2 = 1 / 20000 := by
      norm_num [significantDigits]
    rw [hunit, abs_le] at hnear
    refine ⟨g, text, p, hg, htext, hwrites, ?_, .inr ?_⟩
    · rw [abs_le]
      constructor <;> linarith [hround.1, hround.2, hnear.1, hnear.2]
    · linarith [hround.1, hnear.1]

/-- The decimals that are written are decimals that can be read in a call. -/
theorem isFraction_of_writes {text : List Char} {p : ℚ} (h : Decimal.Writes text p) :
    Call.IsFraction text := by
  cases h with
  | digits hne h => exact .inr ⟨hne, h⟩
  | point hwhole hne hfraction => exact .inl ⟨_, _, rfl, hwhole, hne, hfraction⟩

/-- The text of a byte is a number in a call, and it reads back as that byte. -/
theorem write_hexPair {level : Fin 256} {f : Binary64}
    (hf : f.toRat? = some (roundRat (level / 255))) :
    ∃ text, write (.float f) = .ok (String.ofList text) ∧ Call.IsFraction text ∧
      ∃ opacity, ofText text = .ok opacity ∧
        toHexDigits opacity = .ok (Channel.hexPair level) := by
  obtain ⟨scaled, t, hscaled, hthousandths, ht, hclose⟩ := thousandths_spec hf
  obtain ⟨g, text, p, hg, htext, hwrites, hnear, hp⟩ := exists_text_of_thousandths ht
  have hfraction := isFraction_of_writes hwrites
  refine ⟨text, ?_, hfraction, ?_⟩
  · rw [write, hscaled, ok_bind, hthousandths, ok_bind, hg, ok_bind, htext]
    rfl
  · have ht' : (t : ℚ) / 1000 ≤ 1 := by
      rw [div_le_one (by norm_num)]
      exact_mod_cast ht
    rw [abs_le] at hnear hclose
    have hp₀ : 0 ≤ p := by rcases hp with rfl | hp <;> linarith
    have hp₁ : p ≤ 2 ^ 1 := by linarith [hnear.2]
    -- thousandths, decimal text and reading together stay within a quarter of a step of a byte
    obtain ⟨read, hread, hvalue⟩ := hwrites.read
      (hp.imp_right fun h => le_trans (by norm_num) h) (hp₁.trans (by norm_num))
    have hround : |roundRat p - p| ≤ 1 / 2 ^ 40 := abs_roundRat_sub_le hp₀ hp₁ (by norm_num)
    rw [abs_le] at hround
    refine ⟨(Number.float read).clamp 0 1, ?_, ?_⟩
    · rw [ofText, if_neg (getLast?_ne_percent hfraction), hread]
      rfl
    · have hclamp := Number.toRat?_clamp (x := .float read) hvalue (Number.toRat?_ofNat 0)
        (Number.toRat?_ofNat 1)
      rw [Nat.cast_zero, Nat.cast_one] at hclamp
      refine toHexDigits_of_near hclamp
        ((abs_clamp_sub_le (by positivity) (level_div_le_one level)).trans ?_)
      rw [abs_le]
      constructor <;>
        linarith [hround.1, hround.2, hnear.1, hnear.2, hclose.1, hclose.2]

end CssColor.Opacity
