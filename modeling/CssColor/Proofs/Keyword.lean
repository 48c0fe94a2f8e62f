import CssColor.Keyword.Basic
import CssColor.Proofs.Channel
import Mathlib.Data.String.Basic

/-!
# The keyword table

Keywords are written in lower-case letters and stand for canonical colors. The keyword of a color is
the first one in the table that has it, so it has that color.

## Main results

* `Keyword.lookup_firstNames`: the index of a table finds the first name with a value.
* `Keyword.color?_of_ofColor?`: the keyword of a color stands for that color.
* `Keyword.ofColor?_isSome_iff`: a color has a keyword exactly when it is a value of the table.
* `Keyword.isCanonical_of_color?`: keywords stand for canonical colors.
-/

namespace CssColor.Keyword

open Text

/-! ## The index -/

/-- Building the index does not change what it already finds, and adds the first name of every other
value. -/
theorem lookup_foldl (entries index : List (String × String)) (value : String) :
    (entries.foldl register index).lookup value =
      (index.lookup value).or ((entries.find? (·.2 == value)).map Prod.fst) := by
  induction entries generalizing index with
  | nil => simp
  | cons entry rest ih =>
    obtain ⟨name, first⟩ := entry
    rw [List.foldl_cons, ih, register, List.find?_cons]
    -- the entry matters for its own value only, and there only if the index does not know it
    by_cases hvalue : first = value
    · subst hvalue
      cases hlookup : index.lookup first with
      | some found => simp [hlookup]
      | none => simp [hlookup, List.lookup_append]
    · have hne : (first == value) = false := by simpa using hvalue
      have hne' : (value == first) = false := by simpa using Ne.symm hvalue
      cases index.lookup first with
      | some found => simp [hne]
      | none => simp [List.lookup_append, List.lookup_cons, hne, hne']

/-- The index of a table finds the first name with a value. -/
theorem lookup_firstNames (entries : List (String × String)) (value : String) :
    (firstNames entries).lookup value = (entries.find? (·.2 == value)).map Prod.fst := by
  rw [firstNames, lookup_foldl, List.lookup_nil, Option.none_or]

theorem mem_of_lookup {entries : List (String × String)} {name value : String}
    (h : entries.lookup name = some value) : (name, value) ∈ entries := by
  obtain ⟨before, after, rfl, -⟩ := List.lookup_eq_some_iff.mp h
  simp

/-- In a table with distinct names every entry is found under its name. -/
theorem lookup_of_mem {entries : List (String × String)} (hnodup : (entries.map Prod.fst).Nodup)
    {name value : String} (h : (name, value) ∈ entries) : entries.lookup name = some value := by
  obtain ⟨before, after, rfl⟩ := List.append_of_mem h
  refine List.lookup_eq_some_iff.mpr ⟨before, after, rfl, fun entry hentry => ?_⟩
  rw [List.map_append, List.map_cons, List.nodup_append] at hnodup
  have hne := hnodup.2.2 entry.1 (List.mem_map_of_mem hentry) name List.mem_cons_self
  simpa using Ne.symm hne

/-! ## The table -/

theorem ofList_lt_ofList {a b : List Char} (h : a < b) : String.ofList a < String.ofList b := by
  rwa [String.lt_iff_toList_lt, String.toList_ofList, String.toList_ofList]

/-- The keywords stand in alphabetical order. -/
theorem isChain_table : (table.map Prod.fst).IsChain (· < ·) := by
  simp only [table, List.map_cons, List.map_nil, List.isChain_cons_cons]
  -- the characters of each text come from unification, which need not decode the text
  and_intros
  all_goals first
    | exact ofList_lt_ofList (by decide)
    | exact List.isChain_singleton _

/-- No keyword occurs twice in the table. -/
theorem nodup_table : (table.map Prod.fst).Nodup :=
  (List.isChain_iff_pairwise.mp isChain_table).imp fun hlt => ne_of_lt hlt

/-- A name in lower-case letters and a color in lower-case digits. -/
def Spelled (entry : String × String) : Prop :=
  ∃ name color, entry = (String.ofList name, String.ofList color) ∧ name ≠ [] ∧
    name.all Char.isLower = true ∧ Decode.isColor color = true ∧ color.map Char.toLower = color

/-- Keywords are spelled in letters and colors in digits, all in lower case. -/
theorem spelled_of_mem_table : ∀ entry ∈ table, Spelled entry := by
  simp only [table, List.forall_mem_cons]
  and_intros
  all_goals first
    | exact ⟨_, _, rfl, List.cons_ne_nil _ _, rfl, rfl, rfl⟩
    | exact fun _ hmem => absurd hmem List.not_mem_nil

/-- A keyword is not empty and has lower-case letters only. -/
theorem isLower_of_color? {name color : String} (h : color? name = some color) :
    name.toList ≠ [] ∧ ∀ c ∈ name.toList, c.isLower = true := by
  obtain ⟨letters, digits, hentry, hne, hletters, -, -⟩ :=
    spelled_of_mem_table _ (mem_of_lookup h)
  obtain ⟨rfl, -⟩ := Prod.mk.inj hentry
  rw [String.toList_ofList]
  exact ⟨hne, List.all_eq_true.mp hletters⟩

/-- Keywords stand for canonical colors. -/
theorem isCanonical_of_color? {name color : String} (h : color? name = some color) :
    IsCanonical color := by
  obtain ⟨letters, digits, hentry, -, -, hcolor, hlower⟩ :=
    spelled_of_mem_table _ (mem_of_lookup h)
  obtain ⟨-, rfl⟩ := Prod.mk.inj hentry
  have htext : Decode.isColor (String.ofList digits).toList = true := by rwa [String.toList_ofList]
  obtain ⟨levels, hlevels, -⟩ := exists_levels_of_isColor htext
  refine ⟨levels, ?_⟩
  rw [← hlevels, lower, String.toList_ofList, lowerChars_of_isAscii (isAscii_of_isColor hcolor),
    hlower]

/-! ## The keyword of a color -/

/-- The keyword of a color is the name of the first entry with that color. -/
theorem ofColor?_eq (color : String) :
    ofColor? color = (table.find? (·.2 == lower color)).map Prod.fst :=
  lookup_firstNames table (lower color)

/-- The keyword of a color stands for that color. -/
theorem color?_of_ofColor? {color name : String} (h : ofColor? color = some name) :
    color? name = some (lower color) := by
  rw [ofColor?_eq, Option.map_eq_some_iff] at h
  obtain ⟨⟨name', value⟩, hfind, rfl⟩ := h
  have hvalue : value = lower color := by simpa using List.find?_some hfind
  subst hvalue
  exact lookup_of_mem nodup_table (List.mem_of_find?_eq_some hfind)

/-- A color has a keyword exactly when it is a value of the table. -/
theorem ofColor?_isSome_iff {color : String} :
    (ofColor? color).isSome ↔ lower color ∈ table.map Prod.snd := by
  rw [ofColor?_eq, Option.isSome_map, List.find?_isSome, List.mem_map]
  simp [beq_iff_eq]

end CssColor.Keyword
