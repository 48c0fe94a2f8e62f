import CssColor.Number.Decimal
import CssColor.Number.Hexadecimal
import CssColor.Proofs.Number.Arithmetic
import CssColor.Proofs.Text.Ascii

/-!
# Reading plain numerals

Numerals that consist of digits, with a point at most, are read without failure: they have no sign,
no groups and no surrounding blanks.

## Main results

* `Numeral.ofDigitText_toDigits`: the decimal digits of a number write that number.
* `Hexadecimal.read_digits`: hexadecimal digits are read as the number they write.
* `Decimal.read_digits`, `Decimal.read_fraction`: digits are read as the binary64 number nearest to
  what they write.
* `Decimal.toRat?_nearest`: reading rounds the decimal that is written.
-/

namespace CssColor

open Text

namespace Numeral

variable {text : List Char}

/-! ## Texts of digits and points -/

/-- Whether a character is a hexadecimal digit or a point. -/
def isPlain (c : Char) : Bool := isHexDigit c || c == '.'

theorem toNat_lt_of_isPlain {c : Char} (h : isPlain c = true) : c.toNat < 128 := by
  simp only [isPlain, Bool.or_eq_true, beq_iff_eq] at h
  rcases h with h | rfl
  · exact toNat_lt_of_isHexDigit h
  · decide

theorem isPlain_of_isDigit {c : Char} (h : c.isDigit = true) : isPlain c = true :=
  forall_ascii (P := fun c => c.isDigit = true → isPlain c = true) (by decide)
    (toNat_lt_of_isDigit h) h

/-- The plain characters are no blanks, signs or underscores. -/
theorem not_special_of_isPlain {c : Char} (h : isPlain c = true) :
    isWhiteSpace c = false ∧ c ≠ '_' ∧ c ≠ '-' ∧ c ≠ '+' :=
  forall_ascii
    (P := fun c => isPlain c = true → isWhiteSpace c = false ∧ c ≠ '_' ∧ c ≠ '-' ∧ c ≠ '+')
    (by decide) (toNat_lt_of_isPlain h) h

theorem asciiDigits_of_isAscii (h : IsAscii text) : asciiDigits text = text := by
  induction text with
  | nil => rfl
  | cons c rest ih =>
    obtain ⟨hc, hrest⟩ := isAscii_cons.mp h
    have hchar : asciiDigits [c] = [c] :=
      forall_ascii (P := fun c => asciiDigits [c] = [c]) (by decide) hc
    have hsplit : asciiDigits (c :: rest) = asciiDigits [c] ++ asciiDigits rest := rfl
    rw [hsplit, hchar, ih hrest, List.singleton_append]

/-- Nothing has to be done about white space and digits of other scripts in a plain text. -/
theorem normalize_of_isPlain (h : ∀ c ∈ text, isPlain c = true) : normalize text = text := by
  rw [normalize, trim_eq_self_of_forall fun c hc => (not_special_of_isPlain (h c hc)).1]
  exact asciiDigits_of_isAscii fun c hc => toNat_lt_of_isPlain (h c hc)

/-- Where no underscore stands or follows, a character stays as it is. -/
theorem ungroup?_cons {isDigit : Char → Bool} {c : Char} {rest : List Char} (hc : c ≠ '_')
    (hrest : rest.head? ≠ some '_') :
    ungroup? isDigit (c :: rest) = (ungroup? isDigit rest).map (c :: ·) := by
  cases rest with
  | nil => simp [ungroup?]
  | cons d tail =>
    rw [ungroup?]
    · exact hc
    · intro e tail' htail
      exact hrest (congrArg some (List.cons.inj htail).1)

theorem ungroup?_of_isPlain (isDigit : Char → Bool) (h : ∀ c ∈ text, isPlain c = true) :
    ungroup? isDigit text = some text := by
  have hmark : ∀ c ∈ text, c ≠ '_' := fun c hc => (not_special_of_isPlain (h c hc)).2.1
  clear h
  induction text with
  | nil => rfl
  | cons c rest ih =>
    have hrest : rest.head? ≠ some '_' := fun hhead =>
      hmark _ (List.mem_cons_of_mem c (List.mem_of_mem_head? hhead)) rfl
    rw [ungroup?_cons (hmark c List.mem_cons_self) hrest,
      ih fun d hd => hmark d (List.mem_cons_of_mem c hd), Option.map_some]

/-- There is no sign in front of a plain text. -/
theorem splitSign_of_isPlain (h : ∀ c ∈ text, isPlain c = true) :
    splitSign text = (false, text) := by
  cases text with
  | nil => rfl
  | cons c rest =>
    obtain ⟨-, -, hminus, hplus⟩ := not_special_of_isPlain (h c List.mem_cons_self)
    simp [splitSign, hminus, hplus]

/-! ## The number that digits write -/

/-- A digit at the end moves the others up by one place. -/
theorem ofDigitText_concat (base : Nat) (text : List Char) (c : Char) :
    ofDigitText base (text ++ [c]) = base * ofDigitText base text + (hexDigit? c).getD 0 := by
  simp [ofDigitText, ofDigits]

/-- The number of digits bounds the number that they write. -/
theorem ofDigitText_lt {base : Nat} (h : ∀ c ∈ text, (hexDigit? c).getD 0 < base) :
    ofDigitText base text < base ^ text.length := by
  induction text using List.reverseRecOn with
  | nil => simp [ofDigitText, ofDigits]
  | append_singleton rest c ih =>
    have hrest := ih fun d hd => h d (List.mem_append_left _ hd)
    have hc := h c (by simp)
    rw [ofDigitText_concat, List.length_append, List.length_singleton, Nat.pow_succ]
    calc base * ofDigitText base rest + (hexDigit? c).getD 0
        < base * ofDigitText base rest + base := Nat.add_lt_add_left hc _
      _ = base * (ofDigitText base rest + 1) := (Nat.mul_succ _ _).symm
      _ ≤ base * base ^ rest.length := Nat.mul_le_mul_left _ hrest
      _ = base ^ rest.length * base := Nat.mul_comm _ _

theorem hexDigit?_digitChar : ∀ d < 16, hexDigit? (Nat.digitChar d) = some d := by
  decide

/-- The decimal digits of a number write that number. -/
theorem ofDigitText_toDigits (n : Nat) : ofDigitText 10 (Nat.toDigits 10 n) = n := by
  induction n using Nat.strong_induction_on with
  | _ n ih =>
    rcases lt_or_ge n 10 with hn | hn
    · rw [Nat.toDigits_of_lt_base hn]
      have hdigit := hexDigit?_digitChar n (by omega)
      simp [ofDigitText, ofDigits, hdigit]
    · have hdigit := hexDigit?_digitChar (n % 10) (by omega)
      rw [Nat.toDigits_of_base_le (by norm_num) hn, ofDigitText_concat, ih (n / 10) (by omega),
        hdigit]
      exact Nat.div_add_mod n 10

/-- A natural number is written with its decimal digits. -/
theorem toList_toString (n : Nat) : (toString (n : Int)).toList = Nat.toDigits 10 n := by
  have hrepr : toString (n : Int) = Nat.repr n := rfl
  rw [hrepr, Nat.repr_eq_ofList_toDigits, String.toList_ofList]

end Numeral

/-! ## Hexadecimal digits -/

namespace Hexadecimal

open Numeral

theorem isPlain_of_isHexDigit {c : Char} (h : isHexDigit c = true) : isPlain c = true := by
  simp [isPlain, h]

/-- Digits have no base mark in front of them, since its letter is no digit. -/
theorem dropBase_of_isHexDigit {digits : List Char} (h : ∀ c ∈ digits, isHexDigit c = true) :
    dropBase digits = digits := by
  unfold dropBase
  split
  · next mark rest =>
    have hmark : isHexDigit mark = true := h mark (by simp)
    have hx : mark ≠ 'x' := by rintro rfl; exact absurd hmark (by decide)
    have hX : mark ≠ 'X' := by rintro rfl; exact absurd hmark (by decide)
    simp [hx, hX]
  · rfl

/-- Hexadecimal digits are read as the integer that they write. -/
theorem read_digits {digits : List Char} (hne : digits ≠ [])
    (h : ∀ c ∈ digits, isHexDigit c = true) :
    read digits = .ok (ofDigitText 16 digits : Int) := by
  have hplain : ∀ c ∈ digits, isPlain c = true := fun c hc => isPlain_of_isHexDigit (h c hc)
  have hall : digits.all isHexDigit = true := List.all_eq_true.mpr h
  simp [read, normalize_of_isPlain hplain, splitSign_of_isPlain hplain, dropBase_of_isHexDigit h,
    ungroup?_of_isPlain _ hplain, hne, hall, signed]

end Hexadecimal

/-! ## Decimal digits -/

namespace Decimal

open Numeral

/-- A numeral of digits and points is read by taking it apart, without any regard to signs, white
space and underscores. -/
theorem read_of_parts? {body : List Char} {parts : Parts}
    (hbody : ∀ c ∈ body, c.isDigit = true ∨ c = '.') (hparts : parts? body = some parts) :
    read body = .ok (parts.nearest false) := by
  have hplain : ∀ c ∈ body, isPlain c = true := by
    intro c hc
    rcases hbody c hc with h | rfl
    · exact isPlain_of_isDigit h
    · rfl
  -- each of the words that stand for a number has the letter n
  have hn : 'n' ∉ body.map Char.toLower := by
    intro hmem
    obtain ⟨c, hc, hlower⟩ := List.mem_map.mp hmem
    have hne : c.isDigit = true ∨ c = '.' → c.toLower ≠ 'n' :=
      forall_ascii (P := fun c => c.isDigit = true ∨ c = '.' → c.toLower ≠ 'n')
        (by decide) (toNat_lt_of_isPlain (hplain c hc))
    exact hne (hbody c hc) hlower
  have hword : ∀ word : String, 'n' ∈ word.toList →
      String.ofList (body.map Char.toLower) ≠ word := by
    rintro word hmem rfl
    rw [String.toList_ofList] at hmem
    exact hn hmem
  simp [read, normalize_of_isPlain hplain, ungroup?_of_isPlain _ hplain,
    splitSign_of_isPlain hplain, hword "nan" (by decide), hword "inf" (by decide),
    hword "infinity" (by decide), hparts]

/-- Decimal digits are read as the nearest number to the integer that they write. -/
theorem read_digits {digits : List Char} (hne : digits ≠ []) (h : ∀ c ∈ digits, c.isDigit = true) :
    read digits = .ok (nearest false (ofDigitText 10 digits) 0) := by
  obtain ⟨htake, hdrop⟩ := takeWhile_append_of_stop digits [] h (by simp)
  rw [List.append_nil] at htake hdrop
  have hparts : parts? digits = some ⟨digits, [], 0⟩ := by
    simp [parts?, htake, hdrop, hne, exponent?]
  rw [read_of_parts? (fun c hc => .inl (h c hc)) hparts]
  simp [Parts.nearest]

/-- Digits with a point among them are read as the nearest number to the decimal that they write. -/
theorem read_fraction {whole fraction : List Char} (hwhole : ∀ c ∈ whole, c.isDigit = true)
    (hne : fraction ≠ []) (hfraction : ∀ c ∈ fraction, c.isDigit = true) :
    read (whole ++ '.' :: fraction) =
      .ok (nearest false (ofDigitText 10 (whole ++ fraction)) (-fraction.length)) := by
  obtain ⟨htake, hdrop⟩ := takeWhile_append_of_stop whole ('.' :: fraction) hwhole (by simp)
  obtain ⟨htake', hdrop'⟩ := takeWhile_append_of_stop fraction [] hfraction (by simp)
  rw [List.append_nil] at htake' hdrop'
  have hparts : parts? (whole ++ '.' :: fraction) = some ⟨whole, fraction, 0⟩ := by
    simp [parts?, htake, hdrop, htake', hdrop', hne, exponent?]
  have hbody : ∀ c ∈ whole ++ '.' :: fraction, c.isDigit = true ∨ c = '.' := by
    intro c hc
    rcases List.mem_append.mp hc with h | h
    · exact .inl (hwhole c h)
    · rcases List.mem_cons.mp h with rfl | h
      · exact .inr rfl
      · exact .inl (hfraction c h)
  rw [read_of_parts? hbody hparts]
  simp [Parts.nearest]

theorem lt_pow_length_toDigits (n : Nat) : n < 10 ^ (Nat.toDigits 10 n).length :=
  (Nat.length_toDigits_le_iff (by norm_num) Nat.length_toDigits_pos).mp le_rfl

/-- A number has no more digits than it needs. -/
theorem pow_length_toDigits_le {n : Nat} (hn : 0 < n) :
    10 ^ (Nat.toDigits 10 n).length ≤ 10 * n := by
  obtain ⟨k, hk⟩ : ∃ k, (Nat.toDigits 10 n).length = k + 1 :=
    Nat.exists_eq_succ_of_ne_zero Nat.length_toDigits_pos.ne'
  rw [hk, Nat.pow_succ, Nat.mul_comm]
  refine Nat.mul_le_mul_left 10 (not_lt.mp fun hlt => ?_)
  rcases Nat.eq_zero_or_pos k with rfl | hpos
  · omega
  · have := (Nat.length_toDigits_le_iff (by norm_num) hpos).mpr hlt
    omega

/-- The number of digits before the point, or of zeros behind it, is moderate for a decimal between
`2 ^ -100` and `2 ^ 100`. -/
theorem scale_bounds {n k : Nat} (hn : 0 < n) (hlow : 10 ^ k ≤ n * 2 ^ 100)
    (hhigh : n ≤ 2 ^ 100 * 10 ^ k) :
    k ≤ (Nat.toDigits 10 n).length + 100 ∧ (Nat.toDigits 10 n).length ≤ k + 101 := by
  set length := (Nat.toDigits 10 n).length
  -- a power of two is at most the power of ten with the same exponent
  have hlt : n < 10 ^ length := lt_pow_length_toDigits n
  have hle : 10 ^ length ≤ 10 * n := pow_length_toDigits_le hn
  constructor
  · by_contra! hk
    have hcontra : 10 ^ k < 10 ^ k := calc
      10 ^ k ≤ n * 2 ^ 100 := hlow
      _ ≤ n * 10 ^ 100 := Nat.mul_le_mul_left n (by norm_num)
      _ < 10 ^ length * 10 ^ 100 := Nat.mul_lt_mul_of_pos_right hlt (by norm_num)
      _ = 10 ^ (length + 100) := (Nat.pow_add _ _ _).symm
      _ ≤ 10 ^ k := Nat.pow_le_pow_right (by norm_num) hk.le
    exact lt_irrefl _ hcontra
  · by_contra! hk
    have hcontra : 10 ^ (k + 101) < 10 ^ (k + 101) := calc
      10 ^ (k + 101) < 10 ^ length := Nat.pow_lt_pow_right (by norm_num) hk
      _ ≤ 10 * n := hle
      _ ≤ 10 * (2 ^ 100 * 10 ^ k) := Nat.mul_le_mul_left 10 hhigh
      _ = 10 * 2 ^ 100 * 10 ^ k := (Nat.mul_assoc _ _ _).symm
      _ ≤ 10 ^ 101 * 10 ^ k := Nat.mul_le_mul_right _ (by norm_num)
      _ = 10 ^ (k + 101) := by rw [← Nat.pow_add, Nat.add_comm]
    exact lt_irrefl _ hcontra

/-- A decimal of ordinary magnitude is read as the binary64 number nearest to it. -/
theorem toRat?_nearest {n k : Nat} (hlow : n = 0 ∨ (1 : ℚ) / 2 ^ 100 ≤ n / 10 ^ k)
    (hhigh : (n : ℚ) / 10 ^ k ≤ 2 ^ 100) :
    (nearest false n (-k)).toRat? = some (Binary64.roundRat (n / 10 ^ k)) := by
  rcases Nat.eq_zero_or_pos n with rfl | hpos
  · rw [nearest, if_pos (.inl rfl), Binary64.toRat?_zero, Nat.cast_zero, zero_div,
      Binary64.roundRat_zero]
  · have hten : (0 : ℚ) < 10 ^ k := by positivity
    have hlow' : 10 ^ k ≤ n * 2 ^ 100 := by
      have h := hlow.resolve_left hpos.ne'
      rw [div_le_div_iff₀ (by positivity) hten, one_mul] at h
      exact_mod_cast h
    have hhigh' : n ≤ 2 ^ 100 * 10 ^ k := by
      have h := (div_le_iff₀ hten).mp hhigh
      exact_mod_cast h
    obtain ⟨hscale, hscale'⟩ := scale_bounds hpos hlow' hhigh'
    -- the number of digits shows neither an overflow nor an underflow, so the quotient is formed
    have hcut : ¬ (n = 0 ∨ ((Nat.toDigits 10 n).length : Int) + -k < -324) := by omega
    have hcut' : ¬ 310 < ((Nat.toDigits 10 n).length : Int) + -k := by omega
    have hsafe : (n : ℚ) / 10 ^ k ≤ Binary64.safeMagnitude :=
      hhigh.trans (Binary64.two_pow_le_safeMagnitude (by norm_num))
    rw [nearest, if_neg hcut, if_neg hcut']
    split_ifs with hk
    · obtain rfl : k = 0 := by omega
      have h := Binary64.toRat?_ofRatio false Nat.one_pos (n := n) (by simpa using hsafe)
      simpa using h
    · have hten' : 0 < 10 ^ k := Nat.pow_pos (by norm_num)
      have h := Binary64.toRat?_ofRatio false hten' (n := n) (by simpa using hsafe)
      simpa using h

theorem value_lt_of_isDigit {c : Char} (h : c.isDigit = true) : (hexDigit? c).getD 0 < 10 :=
  forall_ascii (P := fun c => c.isDigit = true → (hexDigit? c).getD 0 < 10) (by decide)
    (toNat_lt_of_isDigit h) h

/-- Three digits at most are read exactly. -/
theorem toRat?_nearest_digits {digits : List Char} (hlength : digits.length ≤ 3)
    (h : ∀ c ∈ digits, c.isDigit = true) :
    (nearest false (ofDigitText 10 digits) 0).toRat? = some (ofDigitText 10 digits : ℚ) := by
  have hlt : ofDigitText 10 digits < 10 ^ 3 := calc
    ofDigitText 10 digits < 10 ^ digits.length :=
      ofDigitText_lt fun c hc => value_lt_of_isDigit (h c hc)
    _ ≤ 10 ^ 3 := Nat.pow_le_pow_right (by norm_num) hlength
  set n := ofDigitText 10 digits
  have hlow : n = 0 ∨ (1 : ℚ) / 2 ^ 100 ≤ n / 10 ^ 0 := by
    rcases Nat.eq_zero_or_pos n with hzero | hpos
    · exact .inl hzero
    · have hone : (1 : ℚ) ≤ n := by exact_mod_cast hpos
      refine .inr (le_trans ?_ (hone.trans (by simp)))
      norm_num
  have hhigh : (n : ℚ) / 10 ^ 0 ≤ 2 ^ 100 := by
    have h : (n : ℚ) ≤ 2 ^ 100 := by exact_mod_cast hlt.le.trans (by norm_num)
    simpa using h
  have hvalue := toRat?_nearest hlow hhigh
  rwa [pow_zero, div_one, Binary64.roundRat_natCast (by omega), Int.natCast_zero,
    neg_zero] at hvalue

end Decimal

end CssColor
