import CssColor.Proofs.Number.Literal
import CssColor.Proofs.Opacity
import CssColor.Proofs.Recognition.Forms

/-!
# Encoders that never fail

Numbers are moved between bounds before they are encoded, so that every number has its two digits:
integers of any size, infinities and NaN. The component of a color is a text and has to be read
first. A percentage is moved between bounds as well, so that reading it is all that can fail; a
component without a percent sign is made an integer first, which an infinity and a NaN are not.

## Main definitions

* `Channel.IsPair`: two hexadecimal digits in lower case.
* `Channel.Refused`: what is wrong with a component, by the grammar of decimal literals.

## Main results

* `Channel.level_eq_error_iff`: the components that are refused, and why.
* `Channel.encoders_total`: the encoders of numbers do not fail, and those of components only as
  they must.
-/

namespace CssColor.Channel

open Text

/-- The text is two hexadecimal digits in lower case. -/
def IsPair (text : List Char) : Prop := text.length = 2 ∧ ∀ c ∈ text, isLowerHexDigit c = true

theorem isPair_hexPair (level : Fin 256) : IsPair (hexPair level) :=
  ⟨rfl, fun _ hc => isLowerHexDigit_iff.mpr (isHexDigit_of_mem_hexPair level hc)⟩

/-- The numeral of a component is the text without a final percent sign. -/
def numeral (component : List Char) : List Char :=
  if component.getLast? = some '%' then component.dropLast else component

/-- What is wrong with a component. -/
inductive Refused (component : List Char) : NumericError → Prop where
  /-- It has no decimal literal. -/
  | malformed (h : ∀ meaning, ¬ Decimal.Denotes (numeral component) meaning) :
      Refused component .malformedNumeral
  /-- It is no percentage and writes a NaN. -/
  | notANumber (hpercent : component.getLast? ≠ some '%') (h : Decimal.Denotes component .nan) :
      Refused component .notANumber
  /-- It is no percentage and writes an infinity. -/
  | infinite {negative : Bool} (hpercent : component.getLast? ≠ some '%')
      (h : Decimal.Denotes component (.infinite negative)) : Refused component .overflow
  /-- It is no percentage and writes a number whose magnitude is infinite in binary64. -/
  | tooLarge {negative : Bool} {n : Nat} {exponent : Int}
      (hpercent : component.getLast? ≠ some '%')
      (h : Decimal.Denotes component (.finite negative n exponent))
      (hbound : Binary64.overflowBound ≤ n * 10 ^ exponent) : Refused component .overflow

/-- A percentage fails only in reading it. -/
theorem level_eq_error_of_percent {component : List Char} {cause : NumericError}
    (hpercent : component.getLast? = some '%') :
    level component = .error cause ↔ Decimal.read component.dropLast = .error cause := by
  rw [level, if_pos hpercent]
  cases hread : Decimal.read component.dropLast with
  | error found => simp
  | ok f =>
    -- moved between 0 and 100 even an infinity or a NaN is a small number
    obtain ⟨q, hq, hlow, hhigh⟩ := Number.clamp_spec (.float f) (Number.toRat?_ofNat 0)
      (Number.toRat?_ofNat 100) (by norm_num)
    have hlevel := levelOfPercent_spec hq (by simpa using hlow) (by simpa using hhigh)
    rw [levelOfPercent] at hlevel
    simp [hlevel]

/-- Only a NaN and the infinities have no integer part. -/
theorem truncate_eq_error_iff {f : Binary64} {cause : NumericError} :
    (Number.float f).truncate = .error cause ↔
      (f = .nan ∧ cause = .notANumber) ∨
        ∃ negative, f = .infinite negative ∧ cause = .overflow := by
  cases f <;> simp [Number.truncate, eq_comm]

/-- A component without a percent sign fails in reading it or in taking the integer part. -/
theorem level_eq_error_of_plain {component : List Char} {cause : NumericError}
    (hpercent : component.getLast? ≠ some '%') :
    level component = .error cause ↔ Decimal.read component = .error cause ∨
      (Decimal.read component = .ok .nan ∧ cause = .notANumber) ∨
      ∃ negative, Decimal.read component = .ok (.infinite negative) ∧ cause = .overflow := by
  rw [level, if_neg hpercent]
  cases hread : Decimal.read component with
  | error found => simp
  | ok f => simp [truncate_eq_error_iff]

/-- The components that are refused. -/
theorem level_eq_error_iff {component : List Char} {cause : NumericError} :
    level component = .error cause ↔ Refused component cause := by
  by_cases hpercent : component.getLast? = some '%'
  -- a percentage is moved between its bounds, so only reading it can fail
  · have hnumeral : numeral component = component.dropLast := if_pos hpercent
    rw [level_eq_error_of_percent hpercent, Decimal.read_eq_error_iff, ← hnumeral]
    constructor
    · rintro ⟨rfl, h⟩
      exact .malformed h
    · intro h
      cases h with
      | malformed h => exact ⟨rfl, h⟩
      | notANumber hplain h => exact absurd hpercent hplain
      | infinite hplain h => exact absurd hpercent hplain
      | tooLarge hplain h hbound => exact absurd hpercent hplain
  -- any other number is made an integer first, which an infinite one or a NaN cannot be
  · have hnumeral : numeral component = component := if_neg hpercent
    rw [level_eq_error_of_plain hpercent, Decimal.read_eq_error_iff, Decimal.read_eq_nan_iff]
    simp only [Decimal.read_eq_infinite_iff]
    constructor
    · rintro (⟨rfl, h⟩ | ⟨h, rfl⟩ | ⟨negative, h | ⟨n, exponent, h, hbound⟩, rfl⟩)
      · exact .malformed (hnumeral.symm ▸ h)
      · exact .notANumber hpercent h
      · exact .infinite hpercent h
      · exact .tooLarge hpercent h hbound
    · intro h
      cases h with
      | malformed h => exact .inl ⟨rfl, hnumeral ▸ h⟩
      | notANumber _ h => exact .inr (.inl ⟨h, rfl⟩)
      | infinite _ h => exact .inr (.inr ⟨_, .inl h, rfl⟩)
      | tooLarge _ h hbound => exact .inr (.inr ⟨_, .inr ⟨_, _, h, hbound⟩, rfl⟩)

/-- Any level at all is encoded. -/
theorem encodeComponent_eq_error_iff {component : List Char} {cause : NumericError} :
    encodeComponent component = .error cause ↔ level component = .error cause := by
  rw [encodeComponent]
  cases level component with
  | error found => simp
  | ok n => simp [encode_int]

/-- A component is encoded as a pair of digits, or it has no encoding at all. -/
theorem encodeComponent_spec (component : List Char) :
    Yields (encodeComponent component) IsPair ∨
      ∃ cause, encodeComponent component = .error cause := by
  rw [encodeComponent]
  cases level component with
  | error cause => exact .inr ⟨cause, rfl⟩
  | ok n => exact .inl ⟨_, encode_int n, isPair_hexPair _⟩

/-- A NaN is encoded as the highest level, since it is moved to the upper bound. -/
theorem encode_nan : encode (.float .nan) = .ok ['f', 'f'] := by
  rw [encode, Number.clamp_nan]
  exact encode_level 255

/-- A NaN is taken for an opaque color. -/
theorem toHexDigits_nan : Opacity.toHexDigits (.float .nan) = .ok ['f', 'f'] := by
  rw [Opacity.toHexDigits, Number.clamp_nan]
  exact Opacity.toHexDigits_of_one (by simpa using Number.toRat?_ofNat 1)

/-- Every number is encoded with two digits, as a channel and as an opacity, and a NaN as the
largest byte. Any three numbers are encoded as a color. A component is encoded with two digits
unless it has no decimal literal, or has no percent sign and writes a NaN or an infinity. -/
theorem encoders_total :
    (∀ x : Number, Yields (encode x) IsPair ∧ Yields (Opacity.toHexDigits x) IsPair) ∧
    encode (.float .nan) = .ok ['f', 'f'] ∧ Opacity.toHexDigits (.float .nan) = .ok ['f', 'f'] ∧
    (∀ levels : Rgb Number, Yields levels.toHex fun color => IsLowerColor color.toList) ∧
    ∀ component : List Char,
      (Yields (encodeComponent component) IsPair ∨
        ∃ cause, encodeComponent component = .error cause) ∧
      ∀ cause, encodeComponent component = .error cause ↔ Refused component cause := by
  refine ⟨fun x => ⟨?_, ?_⟩, encode_nan, toHexDigits_nan, fun levels => ?_,
    fun component => ⟨encodeComponent_spec component, fun cause => ?_⟩⟩
  · obtain ⟨level, hlevel⟩ := encode_spec x
    exact ⟨_, hlevel, isPair_hexPair level⟩
  · obtain ⟨level, hlevel⟩ := Opacity.toHexDigits_spec x
    exact ⟨_, hlevel, isPair_hexPair level⟩
  · exact (Rgb.toHex_spec levels).mono fun color => isCanonical_iff.mp
  · rw [encodeComponent_eq_error_iff, level_eq_error_iff]

end CssColor.Channel
