import CssColor.Proofs.Number.Reading

/-!
# Digits of any script and their groups

A numeral is read after its digits have been replaced by ASCII digits and the underscores between
them have been dropped. Here that step is a relation between the two texts. It can be cut wherever
a mark stands that is no digit, so the parts of a numeral are followed one by one.

## Main definitions

* `Numeral.Plain`: the text that is left of a numeral.
* `Numeral.Digits`: digits of any script, with underscores between them, and their values.

## Main results

* `Numeral.ungroup?_eq_some_iff`: the relation is what is computed.
* `Numeral.Plain.append`, `Numeral.Plain.split`: putting parts together and taking them apart.
* `Numeral.Digits.plain`, `Numeral.Plain.exists_digits`: only digits leave digits, of their values.
-/

namespace CssColor.Numeral

open Text

/-! ## Digits -/

theorem lt_of_decimalDigit? {c : Char} {value : Nat} (h : decimalDigit? c = some value) :
    value < 10 := by
  obtain ⟨base, hbase, rfl⟩ := Option.map_eq_some_iff.mp h
  have hrange := List.find?_some hbase
  simp only [Bool.and_eq_true, decide_eq_true_eq] at hrange
  omega

theorem isDigit_hexDigit : ∀ value < 10, (hexDigit value).isDigit = true := by decide

/-- An ASCII digit stands for itself. -/
theorem decimalDigit?_of_isDigit {c : Char} (h : c.isDigit = true) :
    (decimalDigit? c).map hexDigit = some c :=
  forall_ascii (P := fun c => c.isDigit = true → (decimalDigit? c).map hexDigit = some c)
    (by decide) (toNat_lt_of_isDigit h) h

theorem isDigit_eq_false {c : Char} (h : decimalDigit? c = none) : c.isDigit = false := by
  by_contra hc
  have hdigit := decimalDigit?_of_isDigit (Bool.eq_true_of_not_eq_false hc)
  simp [h] at hdigit

theorem ne_underscore {c : Char} {value : Nat} (h : decimalDigit? c = some value) : c ≠ '_' := by
  rintro rfl
  have hnone : decimalDigit? '_' = none := by decide
  simp [hnone] at h

/-- All white space, by its numbers. -/
def whiteSpaces : List Nat :=
  [0x09, 0x0A, 0x0B, 0x0C, 0x0D, 0x20, 0x85, 0xA0, 0x1680, 0x2000, 0x2001, 0x2002, 0x2003, 0x2004,
   0x2005, 0x2006, 0x2007, 0x2008, 0x2009, 0x200A, 0x2028, 0x2029, 0x202F, 0x205F, 0x3000]

/-- White space is what the list of its numbers has. -/
theorem toNat_mem_whiteSpaces {c : Char} (h : isWhiteSpace c = true) : c.toNat ∈ whiteSpaces := by
  have hspace : c = ' ' ↔ c.toNat = 0x20 := Char.toNat_inj.symm
  simp only [isWhiteSpace, isAsciiBlank, Bool.or_eq_true, Bool.and_eq_true, beq_iff_eq,
    decide_eq_true_eq, hspace] at h
  simp only [whiteSpaces, List.mem_cons, List.not_mem_nil, or_false]
  omega

/-- White space has no digits. -/
theorem isWhiteSpace_of_digit {c : Char} {value : Nat} (h : decimalDigit? c = some value) :
    isWhiteSpace c = false := by
  by_contra hc
  have hnone : ∀ n ∈ whiteSpaces, decimalDigit? (Char.ofNat n) = none := by decide
  have hspace := hnone _ (toNat_mem_whiteSpaces (Bool.eq_true_of_not_eq_false hc))
  rw [Char.ofNat_toNat, h] at hspace
  cases hspace

/-! ## What is left of a numeral -/

/-- The second text is the first one with ASCII digits and without underscores, each of which stands
between two digits. -/
inductive Plain : List Char → List Char → Prop where
  /-- Nothing is left of nothing. -/
  | nil : Plain [] []
  /-- A character that is neither digit nor underscore stays. -/
  | mark {c : Char} {raw plain : List Char} (hc : decimalDigit? c = none) (hmark : c ≠ '_')
      (h : Plain raw plain) : Plain (c :: raw) (c :: plain)
  /-- A digit becomes an ASCII digit. -/
  | digit {c : Char} {value : Nat} {raw plain : List Char} (hc : decimalDigit? c = some value)
      (h : Plain raw plain) : Plain (c :: raw) (hexDigit value :: plain)
  /-- An underscore between two digits is dropped. -/
  | grouped {c d : Char} {value next : Nat} {raw plain : List Char}
      (hc : decimalDigit? c = some value) (hd : decimalDigit? d = some next)
      (h : Plain (d :: raw) plain) : Plain (c :: '_' :: d :: raw) (hexDigit value :: plain)

theorem asciiDigits_cons_of_none {c : Char} (h : decimalDigit? c = none) (raw : List Char) :
    asciiDigits (c :: raw) = c :: asciiDigits raw := by
  simp [asciiDigits, h]

theorem asciiDigits_cons_of_some {c : Char} {value : Nat} (h : decimalDigit? c = some value)
    (raw : List Char) : asciiDigits (c :: raw) = hexDigit value :: asciiDigits raw := by
  simp [asciiDigits, h]

theorem hexDigit_ne_underscore : ∀ value < 10, hexDigit value ≠ '_' := by decide

/-- Replacing digits makes no underscores. -/
theorem head?_asciiDigits {raw : List Char} :
    (asciiDigits raw).head? = some '_' ↔ raw.head? = some '_' := by
  cases raw with
  | nil => simp [asciiDigits]
  | cons c rest =>
    cases hc : decimalDigit? c with
    | none => simp [asciiDigits_cons_of_none hc]
    | some value =>
      have hne := hexDigit_ne_underscore value (lt_of_decimalDigit? hc)
      simp [asciiDigits_cons_of_some hc, hne, ne_underscore hc]

/-- No underscore stands in front of a numeral, since there is no digit before it. -/
theorem Plain.head?_ne {raw plain : List Char} (h : Plain raw plain) : raw.head? ≠ some '_' := by
  cases h with
  | nil => simp
  | mark hc hmark h => simpa using hmark
  | digit hc h => simpa using ne_underscore hc
  | grouped hc hd h => simpa using ne_underscore hc

/-- The underscores of a text with a plain form can be taken out, which leaves that form. -/
theorem Plain.ungroup? {raw plain : List Char} (h : Plain raw plain) :
    ungroup? Char.isDigit (asciiDigits raw) = some plain := by
  induction h with
  | nil => rfl
  | mark hc hmark h ih =>
    rw [asciiDigits_cons_of_none hc, ungroup?_cons hmark (mt head?_asciiDigits.mp h.head?_ne), ih,
      Option.map_some]
  | digit hc h ih =>
    rw [asciiDigits_cons_of_some hc, ungroup?_cons
      (hexDigit_ne_underscore _ (lt_of_decimalDigit? hc)) (mt head?_asciiDigits.mp h.head?_ne), ih,
      Option.map_some]
  | grouped hc hd h ih =>
    rw [asciiDigits_cons_of_some hd] at ih
    rw [asciiDigits_cons_of_some hc, asciiDigits_cons_of_none (by decide),
      asciiDigits_cons_of_some hd, Numeral.ungroup?]
    · have hfirst := isDigit_hexDigit _ (lt_of_decimalDigit? hc)
      have hsecond := isDigit_hexDigit _ (lt_of_decimalDigit? hd)
      simp [hfirst, hsecond, ih]
    · exact hexDigit_ne_underscore _ (lt_of_decimalDigit? hc)

/-- The first character is no underscore, and one that follows it stands between two digits. -/
theorem of_ungroup?_cons {isDigit : Char → Bool} {c : Char} {rest plain : List Char}
    (h : ungroup? isDigit (c :: rest) = some plain) :
    c ≠ '_' ∧ ∃ tail, plain = c :: tail ∧
      ((rest.head? ≠ some '_' ∧ ungroup? isDigit rest = some tail) ∨
        ∃ d after, rest = '_' :: d :: after ∧ isDigit c = true ∧ isDigit d = true ∧
          ungroup? isDigit (d :: after) = some tail) := by
  have hc : c ≠ '_' := by
    rintro rfl
    simp [Numeral.ungroup?] at h
  refine ⟨hc, ?_⟩
  by_cases hrest : rest.head? = some '_'
  -- an underscore at the very end has no digit behind it
  · obtain ⟨after, rfl⟩ := List.head?_eq_some_iff.mp hrest
    cases after with
    | nil => simp [Numeral.ungroup?] at h
    | cons d after =>
      rw [Numeral.ungroup?] at h
      · split_ifs at h with hdigits
        obtain ⟨tail, htail, rfl⟩ := Option.map_eq_some_iff.mp h
        rw [Bool.and_eq_true] at hdigits
        exact ⟨tail, rfl, .inr ⟨d, after, rfl, hdigits.1, hdigits.2, htail⟩⟩
      · exact hc
  · rw [ungroup?_cons hc hrest] at h
    obtain ⟨tail, htail, rfl⟩ := Option.map_eq_some_iff.mp h
    exact ⟨tail, rfl, .inl ⟨hrest, htail⟩⟩

/-- An underscore is none of the digits that are replaced. -/
theorem exists_of_asciiDigits {raw after : List Char} {x : Char}
    (h : asciiDigits raw = '_' :: x :: after) :
    ∃ d rest, raw = '_' :: d :: rest ∧ asciiDigits (d :: rest) = x :: after := by
  obtain ⟨tail, rfl⟩ := List.head?_eq_some_iff.mp (head?_asciiDigits.mp (by rw [h]; rfl))
  rw [asciiDigits_cons_of_none (by decide)] at h
  have htail := (List.cons.inj h).2
  cases tail with
  | nil => simp [asciiDigits] at htail
  | cons d rest => exact ⟨d, rest, rfl, htail⟩

/-- A text of which something is left is related to it. -/
theorem plain_of_ungroup? {raw plain : List Char}
    (h : ungroup? Char.isDigit (asciiDigits raw) = some plain) : Plain raw plain := by
  -- a group takes two characters at once, so the induction is on the length
  induction hlength : raw.length using Nat.strong_induction_on generalizing raw plain with
  | _ length ih =>
    subst hlength
    cases raw with
    | nil =>
      obtain rfl : plain = [] := by simpa [asciiDigits, Numeral.ungroup?] using h.symm
      exact .nil
    | cons c rest =>
      cases hc : decimalDigit? c with
      | none =>
        rw [asciiDigits_cons_of_none hc] at h
        obtain ⟨hmark, tail, rfl, ⟨-, htail⟩ | ⟨d, after, -, hdigit, -⟩⟩ := of_ungroup?_cons h
        · exact .mark hc hmark (ih _ (by simp) htail rfl)
        · rw [isDigit_eq_false hc] at hdigit
          cases hdigit
      | some value =>
        rw [asciiDigits_cons_of_some hc] at h
        obtain ⟨-, tail, rfl, ⟨-, htail⟩ | ⟨x, after, hrest, -, hx, htail⟩⟩ := of_ungroup?_cons h
        · exact .digit hc (ih _ (by simp) htail rfl)
        -- the digit behind the underscore may be of another script
        · obtain ⟨d, more, rfl, hmore⟩ := exists_of_asciiDigits hrest
          rw [← hmore] at htail
          obtain ⟨next, hd⟩ : ∃ next, decimalDigit? d = some next := by
            cases hd : decimalDigit? d with
            | some next => exact ⟨next, rfl⟩
            | none =>
              rw [asciiDigits_cons_of_none hd] at hmore
              rw [← (List.cons.inj hmore).1, isDigit_eq_false hd] at hx
              cases hx
          exact .grouped hc hd (ih _ (by simp) htail rfl)

/-- Taking out the underscores of a text leaves exactly its plain form. -/
theorem ungroup?_eq_some_iff {raw plain : List Char} :
    ungroup? Char.isDigit (asciiDigits raw) = some plain ↔ Plain raw plain :=
  ⟨plain_of_ungroup?, Plain.ungroup?⟩

/-! ## Parts -/

/-- The plain form of two texts is put together from theirs. A digit at the end of the first and an
underscore at the start of the second do not meet, since no text starts with an underscore. -/
theorem Plain.append {first second front back : List Char} (h : Plain first front)
    (h' : Plain second back) : Plain (first ++ second) (front ++ back) := by
  induction h with
  | nil => exact h'
  | mark hc hmark h ih => exact .mark hc hmark ih
  | digit hc h ih => exact .digit hc ih
  | grouped hc hd h ih => exact .grouped hc hd ih

/-- A text that starts with a digit has a plain form that starts with its value. -/
theorem Plain.exists_of_digit {d : Char} {value : Nat} {raw plain : List Char}
    (h : Plain (d :: raw) plain) (hd : decimalDigit? d = some value) :
    ∃ rest, plain = hexDigit value :: rest := by
  cases h with
  | mark hc hmark h => simp [hd] at hc
  | digit hc h =>
    obtain rfl := Option.some.inj (hd.symm.trans hc)
    exact ⟨_, rfl⟩
  | grouped hc hd' h =>
    obtain rfl := Option.some.inj (hd.symm.trans hc)
    exact ⟨_, rfl⟩

/-- A text is cut where a mark is left that is no digit. -/
theorem Plain.split {raw front back : List Char} (h : Plain raw (front ++ back))
    (hback : ∀ c ∈ back.head?, c.isDigit = false) :
    ∃ first second, raw = first ++ second ∧ Plain first front ∧ Plain second back := by
  induction front generalizing raw with
  | nil => exact ⟨[], raw, rfl, .nil, h⟩
  | cons c front ih =>
    rw [List.cons_append] at h
    cases h with
    | mark hc hmark h =>
      obtain ⟨first, second, rfl, hfirst, hsecond⟩ := ih h
      exact ⟨c :: first, second, rfl, .mark hc hmark hfirst, hsecond⟩
    | digit hc h =>
      obtain ⟨first, second, rfl, hfirst, hsecond⟩ := ih h
      exact ⟨_ :: first, second, rfl, .digit hc hfirst, hsecond⟩
    | grouped hc hd h =>
      obtain ⟨first, second, heq, hfirst, hsecond⟩ := ih h
      -- the digit behind the underscore comes before the mark
      cases first with
      | nil =>
        obtain rfl := heq
        obtain ⟨rest, rfl⟩ := hsecond.exists_of_digit hd
        have hdigit := isDigit_hexDigit _ (lt_of_decimalDigit? hd)
        rw [hback _ rfl] at hdigit
        cases hdigit
      | cons d first =>
        obtain ⟨rfl, rfl⟩ := List.cons.inj heq
        exact ⟨_ :: '_' :: _ :: first, second, rfl, .grouped hc hd hfirst, hsecond⟩

/-- A mark that is left stood there before. -/
theorem Plain.of_cons {c : Char} {raw plain : List Char} (h : Plain raw (c :: plain))
    (hc : c.isDigit = false) : ∃ rest, raw = c :: rest ∧ Plain rest plain := by
  have hdigit : ∀ {d : Char} {value : Nat}, decimalDigit? d = some value →
      (hexDigit value).isDigit = true := fun hd => isDigit_hexDigit _ (lt_of_decimalDigit? hd)
  cases h with
  | mark hmark hne h => exact ⟨_, rfl, h⟩
  | digit hd h => simp [hdigit hd] at hc
  | grouped hd hnext h => simp [hdigit hd] at hc

/-- A text without digits is left as it is. -/
theorem Plain.eq_of_forall {raw plain : List Char} (h : Plain raw plain)
    (hplain : ∀ c ∈ plain, c.isDigit = false) : raw = plain := by
  induction plain generalizing raw with
  | nil =>
    cases h
    rfl
  | cons c plain ih =>
    obtain ⟨rest, rfl, hrest⟩ := h.of_cons (hplain c List.mem_cons_self)
    rw [ih hrest fun d hd => hplain d (List.mem_cons_of_mem c hd)]

/-- A text without digits and underscores is its own plain form. -/
theorem plain_of_forall {text : List Char}
    (h : ∀ c ∈ text, decimalDigit? c = none ∧ c ≠ '_') : Plain text text := by
  induction text with
  | nil => exact .nil
  | cons c rest ih =>
    obtain ⟨hc, hmark⟩ := h c List.mem_cons_self
    exact .mark hc hmark (ih fun d hd => h d (List.mem_cons_of_mem c hd))

/-! ## Digits in groups -/

/-- Digits of any script with single underscores between some of them, and the values of the
digits. -/
inductive Digits : List Char → List Nat → Prop where
  /-- No digits at all. -/
  | nil : Digits [] []
  /-- One more digit. -/
  | next {c : Char} {value : Nat} {text : List Char} {values : List Nat}
      (hc : decimalDigit? c = some value) (h : Digits text values) :
      Digits (c :: text) (value :: values)
  /-- One more digit and an underscore before the other digits. -/
  | grouped {c : Char} {value next : Nat} {text : List Char} {values : List Nat}
      (hc : decimalDigit? c = some value) (h : Digits text (next :: values)) :
      Digits (c :: '_' :: text) (value :: next :: values)

theorem Digits.lt {text : List Char} {values : List Nat} (h : Digits text values) :
    ∀ value ∈ values, value < 10 := by
  induction h with
  | nil => simp
  | next hc h ih => exact List.forall_mem_cons.mpr ⟨lt_of_decimalDigit? hc, ih⟩
  | grouped hc h ih => exact List.forall_mem_cons.mpr ⟨lt_of_decimalDigit? hc, ih⟩

theorem Digits.isWhiteSpace {text : List Char} {values : List Nat} (h : Digits text values) :
    ∀ c ∈ text, isWhiteSpace c = false := by
  induction h with
  | nil => simp
  | next hc h ih => exact List.forall_mem_cons.mpr ⟨isWhiteSpace_of_digit hc, ih⟩
  | grouped hc h ih =>
    exact List.forall_mem_cons.mpr
      ⟨isWhiteSpace_of_digit hc, List.forall_mem_cons.mpr ⟨by decide, ih⟩⟩

/-- Digits have a plain form of ASCII digits with the same values. -/
theorem Digits.plain {text : List Char} {values : List Nat} (h : Digits text values) :
    Plain text (values.map hexDigit) := by
  induction h with
  | nil => exact .nil
  | next hc h ih => exact .digit hc ih
  | grouped hc h ih =>
    cases h with
    | next hd h => exact .grouped hc hd ih
    | grouped hd h => exact .grouped hc hd ih

theorem Digits.isDigit {text : List Char} {values : List Nat} (h : Digits text values) :
    ∀ c ∈ values.map hexDigit, c.isDigit = true := by
  intro c hc
  obtain ⟨value, hvalue, rfl⟩ := List.mem_map.mp hc
  exact isDigit_hexDigit value (h.lt value hvalue)

/-- Where only digits are left there were only digits. -/
theorem Plain.exists_digits {raw plain : List Char} (h : Plain raw plain)
    (hplain : ∀ c ∈ plain, c.isDigit = true) :
    ∃ values, Digits raw values ∧ plain = values.map hexDigit := by
  induction h with
  | nil => exact ⟨[], .nil, rfl⟩
  | mark hc hmark h ih =>
    have hdigit := hplain _ List.mem_cons_self
    rw [isDigit_eq_false hc] at hdigit
    cases hdigit
  | @digit c value raw plain hc h ih =>
    obtain ⟨values, hvalues, rfl⟩ := ih (List.forall_mem_cons.mp hplain).2
    exact ⟨value :: values, .next hc hvalues, rfl⟩
  | @grouped c d value next raw plain hc hd h ih =>
    obtain ⟨values, hvalues, rfl⟩ := ih (List.forall_mem_cons.mp hplain).2
    cases hvalues with
    | next hd' htail => exact ⟨_, .grouped hc (.next hd' htail), rfl⟩
    | grouped hd' htail => exact ⟨_, .grouped hc (.grouped hd' htail), rfl⟩

/-- ASCII digits write the number that their values give. -/
theorem ofDigitText_map_hexDigit {values : List Nat} (h : ∀ value ∈ values, value < 10) :
    ofDigitText 10 (values.map hexDigit) = ofDigits 10 values := by
  rw [ofDigitText, List.map_map]
  congr 1
  refine (List.map_congr_left fun value hvalue => ?_).trans (List.map_id values)
  have hdigit := hexDigit?_digitChar value ((h value hvalue).trans (by decide))
  simp [hexDigit, hdigit]

end CssColor.Numeral
