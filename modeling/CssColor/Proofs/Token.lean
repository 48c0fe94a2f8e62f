import CssColor.Proofs.Outcome
import CssColor.Token

/-!
# Building tokens

The checks that a recognition passes when it becomes a token: both offsets are natural numbers, the
first lies before the second, and the color is a number sign with six hexadecimal digits. A token
that is sent as JSON passes the same checks.

## Main definitions

* `Token.Proper`: the token passes its checks.

## Main results

* `Token.build_eq_valid_iff`: a token is built exactly from what passes the checks.
* `Token.ofJson_toJson`: a proper token is read from the JSON value that it is written as.
-/

namespace CssColor

/-- The recognition as a token between two offsets, without any checks. -/
def Recognition.spanning (found : Recognition) (start stop : Int) : Token :=
  { found with start, stop }

@[simp] theorem Recognition.spanning_shift (found : Recognition) (start stop offset : Int) :
    (found.spanning start stop).shift offset = found.spanning (start + offset) (stop + offset) :=
  rfl

@[simp] theorem Recognition.toRecognition_spanning (found : Recognition) (start stop : Int) :
    (found.spanning start stop).toRecognition = found := rfl

namespace Token

/-- A token is built exactly when its span is proper and its color is well-formed, and then from
just these values. -/
theorem build_eq_valid_iff {found : Recognition} {start stop : Int} {token : Token} :
    build found start stop = .valid token ↔
      (0 ≤ start ∧ start < stop ∧ Decode.isColor found.color.toList = true) ∧
        token = found.spanning start stop := by
  simp only [build, checkSpan, Decode.atLeast, Decode.colorText, Checked.andThen_eq_valid_iff,
    Checked.seq_eq_valid_iff, Checked.map_eq_valid_iff, Checked.below_eq_valid_iff,
    Checked.ite_fault_eq_valid_iff]
  constructor
  · rintro ⟨_, ⟨_, _, ⟨_, _, ⟨_, ⟨hstart, rfl⟩, rfl⟩, ⟨-, rfl⟩, rfl⟩, ⟨hcolor, rfl⟩, rfl⟩, hspan,
      rfl⟩
    exact ⟨⟨hstart, hspan, hcolor⟩, rfl⟩
  · rintro ⟨⟨hstart, hspan, hcolor⟩, rfl⟩
    -- a stretch from a natural number on ends at one, so the second offset passes its check too
    have hstop : 0 ≤ stop := by omega
    exact ⟨_, ⟨_, _, ⟨_, _, ⟨_, ⟨hstart, rfl⟩, rfl⟩, ⟨hstop, rfl⟩, rfl⟩, ⟨hcolor, rfl⟩, rfl⟩, hspan,
      rfl⟩

/-- The token passes its checks. -/
structure Proper (token : Token) : Prop where
  /-- The first offset is a natural number. -/
  start_nonneg : 0 ≤ token.start
  /-- The token starts before it stops. -/
  start_lt_stop : token.start < token.stop
  /-- The color is a number sign with six hexadecimal digits. -/
  isColor : Decode.isColor token.color.toList = true

/-- Moving a token forward breaks none of the checks that it has passed. -/
theorem Proper.shift {token : Token} (h : token.Proper) {offset : Int} (hoffset : 0 ≤ offset) :
    (token.shift offset).Proper where
  start_nonneg := Int.add_nonneg h.start_nonneg hoffset
  start_lt_stop := Int.add_lt_add_right h.start_lt_stop offset
  isColor := h.isColor

/-- A proper token is read from the JSON value that it is written as. -/
theorem ofJson_toJson {token : Token} (h : token.Proper) (intake : Intake) :
    RawToken.ofJson intake token.toJson = .valid token.toRaw := by
  have hstop : 0 ≤ token.stop := Int.le_trans h.start_nonneg (Int.le_of_lt h.start_lt_stop)
  simp [toJson, toRaw, RawToken.toJson, RawToken.ofJson, Decode.object, RawToken.ofFields,
    Decode.required, Decode.optional, Json.field?, List.lookup_cons, Decode.integer, Decode.atLeast,
    RawToken.decodeNotation, Decode.unicode, Decode.color, Decode.string, Decode.colorText,
    checkSpan, h.start_nonneg, hstop, h.isColor, h.start_lt_stop]

end Token

end CssColor
