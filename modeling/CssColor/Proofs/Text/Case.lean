import CssColor.Proofs.Text.Ascii
import CssColor.Text.Blank

/-!
# Texts up to case and outer blanks

The capitals of ASCII are the only characters that `Char.toLower` changes. What does not tell a
capital from its small letter takes the same value on a text and on the text in lower case. Among
these are blanks and digits, which are no letters at all, and also the full lower case, which looks
at the neighbours of a letter but not at their case.

## Main definitions

* `Text.CaseFree`: a function of characters does not tell capitals from small letters.
* `Text.Letterless`: a class of characters has no letters.
* `Text.IsVariant`: a text is another one in some case and between blanks.
* `Text.asciiLower`: a text with its ASCII letters in lower case.
* `Text.Alike`: two texts differ in the case of ASCII letters and in the blanks at their ends only.

## Main results

* `Text.caseFree_of_letters`: it is enough to compare the capitals with the small letters.
* `Text.lowerChars_map_toLower`: the full lower case of a text does not depend on ASCII case.
* `Text.alike_iff`: texts are alike when they are the same in lower case and without outer blanks.
-/

namespace CssColor.Text

/-! ## Characters -/

/-- A character is its own lower case, or it is a capital and its lower case the small letter. -/
theorem toLower_eq_self_or_letter (c : Char) :
    c.toLower = c ∨ ∃ n < 26, c = Char.ofNat (0x41 + n) ∧ c.toLower = Char.ofNat (0x61 + n) := by
  refine (toLower_cases c).imp_right fun ⟨hlow, hhigh, hlower⟩ => ?_
  refine ⟨c.toNat - 0x41, by omega, ?_, ?_⟩
  · rw [Nat.add_sub_cancel' hlow, Char.ofNat_toNat]
  · rw [show 0x61 + (c.toNat - 0x41) = c.toLower.toNat by omega, Char.ofNat_toNat]

/-- A function of characters does not tell capitals from small letters. -/
def CaseFree {α : Type} (f : Char → α) : Prop := ∀ c, f c.toLower = f c

/-- A function that takes no notice of case is not changed by lower case before it. -/
theorem CaseFree.comp_toLower {α : Type} {f : Char → α} (h : CaseFree f) : f ∘ Char.toLower = f :=
  funext h

/-- A function that has the same values on the capitals and on the small letters of ASCII does not
tell them apart. -/
theorem caseFree_of_letters {α : Type} {f : Char → α}
    (h : ∀ n < 26, f (Char.ofNat (0x61 + n)) = f (Char.ofNat (0x41 + n))) : CaseFree f := by
  intro c
  rcases toLower_eq_self_or_letter c with hsame | ⟨n, hn, hc, hlower⟩
  · rw [hsame]
  · rw [hlower, h n hn, ← hc]

theorem caseFree_toLower : CaseFree Char.toLower := caseFree_of_letters (by decide)

theorem caseFree_isHexDigit : CaseFree isHexDigit := caseFree_of_letters (by decide)

theorem caseFree_isCased : CaseFree isCased := caseFree_of_letters (by decide)

/-- The full case map sends both cases of an ASCII letter to the same character. -/
theorem caseFree_lowerChar : CaseFree lowerChar := caseFree_of_letters (by decide)

/-- A class of characters has no letters of ASCII. -/
def Letterless (p : Char → Bool) : Prop :=
  ∀ n < 26, p (Char.ofNat (0x41 + n)) = false ∧ p (Char.ofNat (0x61 + n)) = false

/-- The letters of ASCII are checked one by one. -/
instance (p : Char → Bool) : Decidable (Letterless p) :=
  inferInstanceAs (Decidable (∀ n < 26, _))

theorem Letterless.caseFree {p : Char → Bool} (hp : Letterless p) : CaseFree p :=
  caseFree_of_letters fun n hn => (hp n hn).2.trans (hp n hn).1.symm

/-- The characters of a class without letters have no case. -/
theorem Letterless.toLower_eq {p : Char → Bool} (hp : Letterless p) {c : Char} (hc : p c = true) :
    c.toLower = c := by
  refine (toLower_eq_self_or_letter c).resolve_right ?_
  rintro ⟨n, hn, rfl, -⟩
  exact Bool.false_ne_true ((hp n hn).1.symm.trans hc)

theorem letterless_isBlank : Letterless isBlank := by decide

theorem letterless_isAsciiBlank : Letterless isAsciiBlank := by decide

theorem letterless_isDigit : Letterless Char.isDigit := by decide

/-- The case-ignorable characters lie outside of the letters of ASCII. -/
theorem caseIgnorableRanges_apart : ∀ range ∈ caseIgnorableRanges,
    range.2 < 0x41 ∨ (0x5A < range.1 ∧ range.2 < 0x61) ∨ 0x7A < range.1 := by
  decide +kernel

/-- The letters of ASCII lie between the ranges of what is ignored around cased letters. -/
theorem isCaseIgnorable_letter {c : Char}
    (h : (0x41 ≤ c.toNat ∧ c.toNat ≤ 0x5A) ∨ (0x61 ≤ c.toNat ∧ c.toNat ≤ 0x7A)) :
    isCaseIgnorable c = false := by
  refine List.any_eq_false.mpr fun range hrange hinside => ?_
  have hapart := caseIgnorableRanges_apart range hrange
  simp only [Bool.and_eq_true, decide_eq_true_eq] at hinside
  omega

-- The table is long, so it is read once instead of being searched for every letter.
/-- A letter is not ignored in either case. -/
theorem caseFree_isCaseIgnorable : CaseFree isCaseIgnorable := by
  intro c
  rcases toLower_cases c with hsame | ⟨hlow, hhigh, hlower⟩
  · rw [hsame]
  · rw [isCaseIgnorable_letter (.inl ⟨hlow, hhigh⟩), isCaseIgnorable_letter (.inr (by omega))]

/-! ## Texts in lower case -/

section Runs

variable {p : Char → Bool} (text : List Char)

/-- Lower case and dropping characters in front may change places. -/
theorem CaseFree.dropWhile_map (hp : CaseFree p) :
    (text.map Char.toLower).dropWhile p = (text.dropWhile p).map Char.toLower := by
  rw [List.dropWhile_map, hp.comp_toLower]

/-- Lower case and trimming may change places. -/
theorem CaseFree.trim_map (hp : CaseFree p) :
    trim p (text.map Char.toLower) = (trim p text).map Char.toLower := by
  simp only [trim, dropRight, hp.dropWhile_map, ← List.map_reverse]

/-- Lower case does not change a run of characters that are no letters. -/
theorem Letterless.takeWhile_map (hp : Letterless p) :
    (text.map Char.toLower).takeWhile p = text.takeWhile p := by
  rw [List.takeWhile_map, hp.caseFree.comp_toLower]
  exact map_toLower_eq_self fun c hc => hp.toLower_eq (List.mem_takeWhile_imp hc)

end Runs

@[simp] theorem map_toLower_map_toLower (text : List Char) :
    (text.map Char.toLower).map Char.toLower = text.map Char.toLower := by
  rw [List.map_map, caseFree_toLower.comp_toLower]

/-- Whether a cased letter comes next does not depend on case. -/
theorem startsCased_map_toLower (text : List Char) :
    startsCased (text.map Char.toLower) = startsCased text := by
  rw [startsCased, caseFree_isCaseIgnorable.dropWhile_map, List.head?_map, Option.map_map,
    caseFree_isCased.comp_toLower, startsCased]

/-- The full lower case of a text does not depend on the case of its ASCII letters. -/
theorem lowerAfter_map_toLower (afterCased : Bool) (text : List Char) :
    lowerAfter afterCased (text.map Char.toLower) = lowerAfter afterCased text := by
  induction text generalizing afterCased with
  | nil => rfl
  | cons c rest ih =>
    -- the capital sigma is no letter of ASCII, and its neighbours are looked at without their case
    have hsigma : c.toLower.toNat = 0x3A3 ↔ c.toNat = 0x3A3 := by
      rcases toLower_cases c with hsame | hcapital
      · rw [hsame]
      · omega
    simp only [List.map_cons, lowerAfter, hsigma, startsCased_map_toLower, caseFree_lowerChar c,
      caseFree_isCaseIgnorable c, caseFree_isCased c, ih]

/-- The full lower case of a text does not depend on the case of its ASCII letters. -/
theorem lowerChars_map_toLower (text : List Char) :
    lowerChars (text.map Char.toLower) = lowerChars text :=
  lowerAfter_map_toLower false text

/-! ## Outer blanks -/

theorem trim_concat_margin {p : Char → Bool} {text margin : List Char}
    (h : ∀ c ∈ margin, p c = true) : trim p (text ++ margin) = trim p text := by
  have hmargin : margin.dropWhile p = [] := List.dropWhile_eq_nil_iff.mpr h
  rw [trim, List.dropWhile_append]
  split_ifs with hempty
  · rw [hmargin, trim, List.isEmpty_iff.mp hempty]
  · have hreverse : ∀ c ∈ margin.reverse, p c = true := fun c hc => h c (List.mem_reverse.mp hc)
    rw [dropRight, List.reverse_append, List.dropWhile_append_of_pos hreverse, trim, dropRight]

/-- A text is what is left of it when it is trimmed, between characters that are dropped. -/
theorem exists_margins (p : Char → Bool) (text : List Char) :
    ∃ before after, text = before ++ trim p text ++ after ∧
      (∀ c ∈ before, p c = true) ∧ ∀ c ∈ after, p c = true := by
  refine ⟨text.takeWhile p, ((text.dropWhile p).reverse.takeWhile p).reverse, ?_,
    fun c => List.mem_takeWhile_imp, fun c hc => List.mem_takeWhile_imp (List.mem_reverse.mp hc)⟩
  rw [trim, dropRight, List.append_assoc, ← List.reverse_append, List.takeWhile_append_dropWhile,
    List.reverse_reverse, List.takeWhile_append_dropWhile]

/-- The text is the body in some case and between blanks. -/
def IsVariant (text : String) (body : List Char) : Prop :=
  ∃ before core after, text.toList = before ++ core ++ after ∧
    (∀ c ∈ before, isBlank c = true) ∧ (∀ c ∈ after, isBlank c = true) ∧
    core.map Char.toLower = body.map Char.toLower

/-- Two texts differ in the case of ASCII letters and in the blanks at their ends only. -/
def Alike (text other : String) : Prop := ∃ body, IsVariant text body ∧ IsVariant other body

/-- The text with its ASCII letters in lower case. -/
def asciiLower (text : String) : String := String.ofList (text.toList.map Char.toLower)

@[simp] theorem toList_asciiLower (text : String) :
    (asciiLower text).toList = text.toList.map Char.toLower :=
  String.toList_ofList

/-- A text in lower case for ASCII has the same full lower case. -/
theorem lower_asciiLower (text : String) : lower (asciiLower text) = lower text := by
  rw [lower, toList_asciiLower, lowerChars_map_toLower, lower]

/-- Variants of a body have the same stripped text in lower case, which depends on the body only. -/
theorem IsVariant.asciiLower_strip {text : String} {body : List Char} (h : IsVariant text body) :
    asciiLower (strip text) = String.ofList (trim isBlank (body.map Char.toLower)) := by
  obtain ⟨before, core, after, htext, hbefore, hafter, hcore⟩ := h
  rw [asciiLower, strip, String.toList_ofList, htext, List.append_assoc, trim_append hbefore,
    trim_concat_margin hafter, ← letterless_isBlank.caseFree.trim_map, hcore]

/-- Texts are alike when they are the same in lower case and without the blanks at their ends. -/
theorem alike_iff {text other : String} :
    Alike text other ↔ asciiLower (strip text) = asciiLower (strip other) := by
  constructor
  · rintro ⟨body, htext, hother⟩
    rw [htext.asciiLower_strip, hother.asciiLower_strip]
  · intro h
    obtain ⟨before, after, htext, hbefore, hafter⟩ := exists_margins isBlank text.toList
    obtain ⟨before', after', hother, hbefore', hafter'⟩ := exists_margins isBlank other.toList
    have hcore := String.ofList_injective h
    rw [strip, strip, String.toList_ofList, String.toList_ofList] at hcore
    exact ⟨trim isBlank other.toList, ⟨before, _, after, htext, hbefore, hafter, hcore⟩,
      ⟨before', _, after', hother, hbefore', hafter', rfl⟩⟩

/-- Texts are compared stripped and in lower case. -/
instance (text other : String) : Decidable (Alike text other) := decidable_of_iff' _ alike_iff

end CssColor.Text
