import CssColor.Number.Numeral
import CssColor.Text.Case
import Mathlib.Data.List.TakeWhile
import Mathlib.Tactic.Common

/-!
# ASCII texts

Colors are written in ASCII, where full Unicode case, blanks and digits are simple: case maps one
character to one, digits stand for themselves, and the characters of a number or a name are no
blanks.

## Main definitions

* `Text.IsAscii`: every character of the text is an ASCII character.

## Main results

* `Text.forall_ascii`: a statement about ASCII characters is checked on the 128 of them.
* `Text.lowerChars_of_isAscii`: lower case goes character by character.
* `Text.trim_eq_self`: trimming keeps a text whose ends stay.
-/

namespace CssColor.Text

/-- A statement that holds of the first 128 characters holds of every ASCII character. -/
theorem forall_ascii {P : Char → Prop} (h : ∀ n < 128, P (Char.ofNat n)) {c : Char}
    (hc : c.toNat < 128) : P c := by
  have hchar := h c.toNat hc
  rwa [Char.ofNat_toNat] at hchar

/-- Every character of the text is an ASCII character. -/
def IsAscii (text : List Char) : Prop := ∀ c ∈ text, c.toNat < 128

@[simp] theorem isAscii_nil : IsAscii [] := by simp [IsAscii]

@[simp] theorem isAscii_cons {c : Char} {text : List Char} :
    IsAscii (c :: text) ↔ c.toNat < 128 ∧ IsAscii text := by
  simp [IsAscii]

@[simp] theorem isAscii_append {first second : List Char} :
    IsAscii (first ++ second) ↔ IsAscii first ∧ IsAscii second := by
  simp [IsAscii, or_imp, forall_and]

/-! ## Case -/

/-- The lower case of an ASCII text does not depend on what stands before it. -/
theorem lowerAfter_of_isAscii {text : List Char} (h : IsAscii text) (afterCased : Bool) :
    lowerAfter afterCased text = text.map Char.toLower := by
  induction text generalizing afterCased with
  | nil => rfl
  | cons c rest ih =>
    obtain ⟨hc, hrest⟩ := isAscii_cons.mp h
    have hsigma : c.toNat ≠ 0x3A3 := by omega
    simp [lowerAfter, hsigma, lowerChar, hc, ih hrest]

/-- The lower case of an ASCII text is that of its characters. -/
theorem lowerChars_of_isAscii {text : List Char} (h : IsAscii text) :
    lowerChars text = text.map Char.toLower :=
  lowerAfter_of_isAscii h false

/-- Only ASCII letters are changed. -/
theorem toLower_of_not_ascii {c : Char} (hc : 128 ≤ c.toNat) : c.toLower = c := by
  have hupper : ¬ c.val ≤ 90 := by
    intro hle
    have hnat : c.toNat ≤ 90 := UInt32.le_iff_toNat_le.mp hle
    omega
  exact dif_neg fun h => hupper h.2

theorem map_toLower_eq_self {text : List Char} (h : ∀ c ∈ text, c.toLower = c) :
    text.map Char.toLower = text :=
  (List.map_congr_left h).trans (List.map_id text)

/-- A character is in ASCII when its lower case is. -/
theorem toNat_lt_of_toLower {c : Char} (h : c.toLower.toNat < 128) : c.toNat < 128 := by
  by_contra hc
  rw [toLower_of_not_ascii (by omega)] at h
  exact hc h

/-- A character is its own lower case or a capital of ASCII. -/
theorem toLower_cases (c : Char) :
    c.toLower = c ∨ (0x41 ≤ c.toNat ∧ c.toNat ≤ 0x5A ∧ c.toLower.toNat = c.toNat + 32) := by
  rcases Nat.lt_or_ge c.toNat 128 with hc | hc
  · exact forall_ascii (P := fun c => c.toLower = c ∨
      (0x41 ≤ c.toNat ∧ c.toNat ≤ 0x5A ∧ c.toLower.toNat = c.toNat + 32)) (by decide) hc
  · exact .inl (toLower_of_not_ascii hc)

/-- Only the character itself has the lower case `e`, when `e` is no small letter of ASCII. -/
theorem eq_of_toLower_eq {c e : Char} (he : e.toNat < 0x61 ∨ 0x7A < e.toNat)
    (h : c.toLower = e) : c = e := by
  rcases toLower_cases c with hsame | ⟨hlow, hhigh, hlower⟩
  · exact hsame.symm.trans h
  · rw [h] at hlower
    omega

/-! ## Trimming -/

/-- Trimming keeps a text whose first and last characters stay. -/
theorem trim_eq_self {p : Char → Bool} {text : List Char}
    (hfirst : ∀ c ∈ text.head?, p c = false) (hlast : ∀ c ∈ text.getLast?, p c = false) :
    trim p text = text := by
  have hdrop : ∀ part : List Char, (∀ c ∈ part.head?, p c = false) → part.dropWhile p = part := by
    intro part hpart
    cases part with
    | nil => rfl
    | cons c rest => simp [hpart c rfl]
  rw [trim, hdrop text hfirst, dropRight, hdrop, List.reverse_reverse]
  simpa using hlast

theorem trim_eq_self_of_forall {p : Char → Bool} {text : List Char}
    (h : ∀ c ∈ text, p c = false) : trim p text = text :=
  trim_eq_self (fun c hc => h c (List.mem_of_mem_head? hc))
    fun c hc => h c (List.mem_of_getLast? hc)

/-- A margin in front of a text is trimmed off. -/
theorem trim_append {p : Char → Bool} {margin text : List Char} (h : ∀ c ∈ margin, p c = true) :
    trim p (margin ++ text) = trim p text := by
  rw [trim, List.dropWhile_append_of_pos h, trim]

/-! ## Runs -/

/-- A run of characters of one class before a character that is not in it. -/
theorem takeWhile_append_of_stop {p : Char → Bool} (run rest : List Char)
    (hrun : ∀ c ∈ run, p c = true) (hrest : ∀ c ∈ rest.head?, p c = false) :
    (run ++ rest).takeWhile p = run ∧ (run ++ rest).dropWhile p = rest := by
  have hstop : rest.takeWhile p = [] ∧ rest.dropWhile p = rest := by
    cases rest with
    | nil => simp
    | cons c tail => simp [hrest c rfl]
  rw [List.takeWhile_append_of_pos hrun, List.dropWhile_append_of_pos hrun, hstop.1, hstop.2]
  exact ⟨List.append_nil run, rfl⟩

/-! ## Letters and digits -/

/-- A lower-case letter is an ASCII character and its own lower case. -/
theorem toLower_of_isLower {c : Char} (h : c.isLower = true) :
    c.toNat < 128 ∧ c.toLower = c := by
  obtain ⟨hlow, hhigh⟩ := Bool.and_eq_true_iff.mp h
  have hlow' : 97 ≤ c.toNat := UInt32.le_iff_toNat_le.mp (of_decide_eq_true hlow)
  have hhigh' : c.toNat ≤ 122 := UInt32.le_iff_toNat_le.mp (of_decide_eq_true hhigh)
  exact ⟨by omega, (toLower_cases c).resolve_right (by omega)⟩

theorem toNat_lt_of_isDigit {c : Char} (h : c.isDigit = true) : c.toNat < 128 := by
  simp only [Char.isDigit, Bool.and_eq_true, decide_eq_true_eq] at h
  have hnat : c.toNat ≤ 57 := UInt32.le_iff_toNat_le.mp h.2
  omega

theorem toNat_lt_of_isHexDigit {c : Char} (h : isHexDigit c = true) : c.toNat < 128 := by
  by_contra hc
  have hle : ∀ d : Char, d.toNat < 128 → ¬ c ≤ d := by
    intro d hd hcd
    have hnat : c.toNat ≤ d.toNat := hcd
    omega
  simp [isHexDigit, hexDigit?, hle '9' (by decide), hle 'f' (by decide), hle 'F' (by decide)] at h

theorem toNat_lt_of_isAsciiBlank {c : Char} (h : isAsciiBlank c = true) : c.toNat < 128 := by
  simp only [isAsciiBlank, Bool.or_eq_true, beq_iff_eq, Bool.and_eq_true, decide_eq_true_eq] at h
  rcases h with rfl | ⟨-, h⟩
  · decide
  · omega

end CssColor.Text
