import CssColor.Proofs.Rendering

/-!
# Rendering with the texts of clients

Whether a color can be written does not depend on the texts of the token, so it can be written in
place of every token that a client sends. Where the client has put a lone surrogate into a text that
the notation of the token takes, what is written holds it too.

## Main definitions

* `RawToken.IsWritable`: the texts that the notation of the token takes hold no lone surrogate.
* `RawToken.surroundings`: what stays of a document when the token is replaced.

## Main results

* `Token.render_toRaw`: a token that is sent back is rendered as before.
* `RawToken.render_spec`: every color can be written in place of every token that is sent, and a
  lone surrogate is written exactly where the token brings one along.
* `RawToken.recolor_spec`: the same for documents, which may bring one along as well.
-/

namespace CssColor

namespace Wording

/-- The same texts in another type. -/
def map {σ τ : Type} (f : σ → τ) (wording : Wording σ) : Wording τ :=
  ⟨f wording.alpha, f wording.function, f wording.separator⟩

/-- A text is recorded as a raw text just when it is recorded. -/
theorem ofString_recorded (text fallback : String) :
    RawText.ofString (recorded id text fallback) =
      recorded RawText.ofString text fallback := by
  by_cases hempty : text = ""
  · simp [recorded, hempty]
  · simp [recorded, hempty]

/-- The texts in place of what is not recorded have no lone surrogates. -/
theorem isUnicode_recorded (text : RawText) (fallback : String) :
    (recorded RawText.ofString text fallback).isUnicode = text.isUnicode := by
  by_cases hempty : text = RawText.ofString ""
  · simp [recorded, hempty]
  · simp [recorded, hempty]

/-- It does not matter whether texts are taken as raw texts before or after they are put
together. -/
theorem ofString_text (wording : Wording String) (kind : Notation) (inscription : Inscription) :
    RawText.ofString (wording.text id kind inscription) =
      (wording.map RawText.ofString).text RawText.ofString kind inscription := by
  cases inscription with
  | call first second third =>
    simp only [text, callText, map, RawText.ofString_append, ofString_recorded, id_eq]
  | literal digits => exact RawText.ofString_append _ _
  | plain text => rfl

end Wording

/-- A token that is sent back is rendered as before. -/
theorem Token.render_toRaw {token : Token} {color written : String}
    (h : token.render color = .ok written) :
    token.toRaw.render color = .ok written := by
  obtain ⟨inscription, hinscription, hwritten⟩ := bind_eq_ok.mp h
  obtain rfl : token.wording.text id token.kind inscription = written := Except.ok.inj hwritten
  rw [RawToken.render, kind_toRaw, hinscription, ok_bind, Wording.ofString_text]
  rfl

namespace RawToken

/-- The texts of the token that its notation takes hold no lone surrogate. A keyword takes none, and
a hex literal takes the opacity only. -/
def IsWritable (token : RawToken) : Prop :=
  (token.kind ≠ .named → token.alpha.isUnicode = true) ∧
    (token.kind.isCall = true →
      token.function.isUnicode = true ∧ token.separator.isUnicode = true)

/-- Whether a token can be written is checked text by text. -/
instance (token : RawToken) : Decidable token.IsWritable :=
  inferInstanceAs (Decidable (_ ∧ _))

/-- A call in the wording of a token takes all its texts. -/
theorem isUnicode_call {token : RawToken} (h : token.kind.isCall = true)
    (first second third : String) :
    (token.toWording.text RawText.ofString token.kind (.call first second third)).isUnicode =
      true ↔ token.IsWritable := by
  have hnamed : token.kind ≠ .named := by
    rintro hnamed
    simp [hnamed, Notation.isCall] at h
  simp only [Wording.text, Wording.callText, RawText.isUnicode_append, Wording.isUnicode_recorded,
    RawText.isUnicode_ofString, Bool.and_eq_true, IsWritable, h]
  tauto

/-- Every color can be written in place of every token. What is written holds a lone surrogate
exactly when a text that is taken from the token does. -/
theorem render_spec (token : RawToken) {color : String}
    (hcolor : Decode.isColor color.toList = true) :
    ∃ written, token.render color = .ok written ∧
      (written.isUnicode = true ↔ token.IsWritable) := by
  obtain ⟨inscription, hinscription⟩ := Inscription.ofColor_succeeds hcolor token.kind
  refine ⟨token.toWording.text RawText.ofString token.kind inscription,
    by rw [render, hinscription, ok_bind, pure_eq_ok], ?_⟩
  -- which texts of the token are written depends on its notation only
  by_cases hcall : token.kind.isCall = true
  · obtain ⟨first, second, third, hofColor⟩ := Inscription.ofColor_of_isCall hcolor hcall
    obtain rfl : .call first second third = inscription :=
      Except.ok.inj (hofColor.symm.trans hinscription)
    exact isUnicode_call hcall first second third
  · cases hkind : token.kind with
    | hex =>
      rw [hkind] at hinscription
      obtain rfl : .literal (Text.lower color) = inscription := Except.ok.inj hinscription
      simp [Wording.text, IsWritable, hkind, Notation.isCall]
    | named =>
      rw [hkind] at hinscription
      obtain rfl : .plain _ = inscription := Except.ok.inj hinscription
      simp [Wording.text, IsWritable, hkind, Notation.isCall]
    | rgb => exact absurd (by rw [hkind]; rfl) hcall
    | hsl => exact absurd (by rw [hkind]; rfl) hcall

/-- What stays of a document when the token is replaced. -/
def surroundings (token : RawToken) (document : RawText) : RawText :=
  Text.before document token.start ++ Text.after document token.stop

/-- Every color can be put in place of every token of every document. The new document holds a lone
surrogate exactly when the token brings one along or one stays in the old document. -/
theorem recolor_spec (token : RawToken) (document : RawText) {color : String}
    (hcolor : Decode.isColor color.toList = true) :
    ∃ edited, token.recolor document color = .ok edited ∧
      (edited.isUnicode = true ↔
        token.IsWritable ∧ (token.surroundings document).isUnicode = true) := by
  obtain ⟨written, hwritten, hunicode⟩ := token.render_spec hcolor
  refine ⟨Text.replace document token.start token.stop written,
    by rw [recolor, hwritten, ok_bind, pure_eq_ok], ?_⟩
  simp only [Text.replace, surroundings, RawText.isUnicode_append, Bool.and_eq_true, ← hunicode]
  tauto

end RawToken

end CssColor
