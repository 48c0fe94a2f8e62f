import CssColor.Proofs.Keyword

/-!
# The first name of a value

Several names of a table may carry the same value, as `aqua` and `cyan` do. The index of a table is
built in one pass, in which a value that has been met keeps its name. It therefore leads from every
value of the table, and from no other, to the first name in the order of the table that carries it.

For the keyword table this makes the keyword of a color the first of all keywords with that color.
Its colors are in lower case, so going from a keyword to its color and back leads to that keyword or
to an earlier one.

## Main definitions

* `Keyword.Precedes`: one name of a table stands before another.
* `Keyword.FirstCarrier`: a name carries a value, and no name before it does.

## Main results

* `Keyword.nodup_firstNames`: the index leads from each value to one name.
* `Keyword.lookup_firstNames_eq_some_iff`: that name is the first one that carries the value.
* `Keyword.index_finds_first`: the index of any table, and what follows for keywords and colors.
-/

namespace CssColor.Keyword

open Text

/-! ## Order in a table -/

/-- One name of a table stands before another. -/
def Precedes (entries : List (String × String)) (name other : String) : Prop :=
  [name, other].Sublist (entries.map Prod.fst)

/-- Whether a name stands before another is found by looking for both in the list of names. -/
instance (entries : List (String × String)) (name other : String) :
    Decidable (Precedes entries name other) :=
  inferInstanceAs (Decidable (List.Sublist _ _))

/-- A name carries a value, and no name before it does. -/
structure FirstCarrier (entries : List (String × String)) (value name : String) : Prop where
  /-- The name carries the value. -/
  carries : (name, value) ∈ entries
  /-- No name that stands before it does. -/
  first : ∀ other, Precedes entries other name → (other, value) ∉ entries

variable {entries before after : List (String × String)} {value name other : String}

/-- A name stands before another exactly when it is among the names of the entries in front. -/
theorem precedes_append_cons_iff
    (hnodup : ((before ++ (name, value) :: after).map Prod.fst).Nodup) :
    Precedes (before ++ (name, value) :: after) other name ↔ other ∈ before.map Prod.fst := by
  rw [List.map_append, List.map_cons] at hnodup
  obtain ⟨-, hafter, hdisjoint⟩ := List.nodup_append.mp hnodup
  have hbehind : name ∉ after.map Prod.fst := (List.nodup_cons.mp hafter).1
  have hfront : name ∉ before.map Prod.fst :=
    fun hmem => hdisjoint name hmem name List.mem_cons_self rfl
  rw [Precedes, List.map_append, List.map_cons]
  constructor
  · intro h
    obtain ⟨front, back, hpair, hsub, hsub'⟩ := List.sublist_append_iff.mp h
    match front, hpair with
    | [], hpair =>
      -- both names would stand at the entry or behind it
      obtain rfl : [other, name] = back := hpair
      have htail : [name].Sublist (after.map Prod.fst) := hsub'.tail
      exact absurd (List.singleton_sublist.mp htail) hbehind
    | [first], hpair =>
      obtain ⟨rfl, -⟩ := List.cons.inj hpair
      exact List.singleton_sublist.mp hsub
    | first :: second :: rest, hpair =>
      -- both names would stand in front of the entry
      obtain ⟨-, htail⟩ := List.cons.inj hpair
      obtain ⟨rfl, -⟩ := List.cons.inj htail
      exact absurd (hsub.subset (by simp)) hfront
  · intro h
    exact (List.singleton_sublist.mpr h).append
      (List.singleton_sublist.mpr (List.mem_cons_self (a := name)))

/-- The first carrier of a value stands at an entry in front of which the value does not occur. -/
theorem firstCarrier_iff (hnodup : (entries.map Prod.fst).Nodup) :
    FirstCarrier entries value name ↔
      ∃ before after, entries = before ++ (name, value) :: after ∧
        ∀ entry ∈ before, entry.2 ≠ value := by
  constructor
  · intro h
    obtain ⟨before, after, rfl⟩ := List.append_of_mem h.carries
    refine ⟨before, after, rfl, fun entry hentry hvalue => ?_⟩
    have hprecedes := (precedes_append_cons_iff hnodup).mpr (List.mem_map_of_mem hentry)
    refine h.first entry.1 hprecedes ?_
    rw [← hvalue]
    exact List.mem_append_left _ hentry
  · rintro ⟨before, after, rfl, hbefore⟩
    refine ⟨List.mem_append_right _ List.mem_cons_self, fun other hother hmem => ?_⟩
    obtain ⟨entry, hentry, rfl⟩ := List.mem_map.mp ((precedes_append_cons_iff hnodup).mp hother)
    -- an entry is determined by its name, so this one carries the value as well
    have hvalue := lookup_of_mem hnodup (List.mem_append_left _ hentry)
    rw [lookup_of_mem hnodup hmem, Option.some.injEq] at hvalue
    exact hbefore entry hentry hvalue.symm

/-- All other carriers of a value stand behind the first one. -/
theorem FirstCarrier.eq_or_precedes (hnodup : (entries.map Prod.fst).Nodup)
    (h : FirstCarrier entries value name) (hother : (other, value) ∈ entries) :
    name = other ∨ Precedes entries name other := by
  obtain ⟨before, after, rfl, hbefore⟩ := (firstCarrier_iff hnodup).mp h
  rcases List.mem_append.mp hother with hmem | hmem
  · exact absurd rfl (hbefore _ hmem)
  · rcases List.mem_cons.mp hmem with heq | hmem
    · exact .inl (Prod.mk.inj heq).1.symm
    · right
      rw [Precedes, List.map_append, List.map_cons]
      have hbehind : other ∈ after.map Prod.fst := List.mem_map_of_mem hmem
      exact ((List.singleton_sublist.mpr hbehind).cons_cons name).trans
        (List.sublist_append_right _ _)

/-! ## The index of a table -/

/-- An entry does not bring a second name for a value into the index. -/
theorem nodup_register {index : List (String × String)} (h : (index.map Prod.fst).Nodup)
    (entry : String × String) : ((register index entry).map Prod.fst).Nodup := by
  rw [register]
  split_ifs with hknown
  · exact h
  · have hnew : entry.2 ∉ index.map Prod.fst := by
      intro hmem
      obtain ⟨known, hmem, hvalue⟩ := List.mem_map.mp hmem
      have hnone := Option.not_isSome_iff_eq_none.mp hknown
      simpa [hvalue] using List.lookup_eq_none_iff.mp hnone known hmem
    rw [List.map_append, List.nodup_append]
    refine ⟨h, List.nodup_singleton _, fun known hmem fresh hfresh => ?_⟩
    obtain rfl : fresh = entry.2 := by simpa using hfresh
    rintro rfl
    exact hnew hmem

/-- No value has two names in the index. -/
theorem nodup_firstNames (entries : List (String × String)) :
    ((firstNames entries).map Prod.fst).Nodup := by
  have hrun (entries index : List (String × String)) (h : (index.map Prod.fst).Nodup) :
      ((entries.foldl register index).map Prod.fst).Nodup := by
    induction entries generalizing index with
    | nil => exact h
    | cons entry rest ih => exact ih _ (nodup_register h entry)
  exact hrun entries [] List.nodup_nil

/-- The index leads from a value to the first name that carries it. -/
theorem lookup_firstNames_eq_some_iff (hnodup : (entries.map Prod.fst).Nodup) :
    (firstNames entries).lookup value = some name ↔ FirstCarrier entries value name := by
  rw [lookup_firstNames, firstCarrier_iff hnodup, Option.map_eq_some_iff]
  constructor
  · rintro ⟨⟨name', value'⟩, hfind, rfl⟩
    obtain ⟨hvalue, before, after, hsplit, hbefore⟩ := List.find?_eq_some_iff_append.mp hfind
    obtain rfl : value' = value := by simpa using hvalue
    exact ⟨before, after, hsplit, fun entry hentry => by simpa using hbefore entry hentry⟩
  · rintro ⟨before, after, hsplit, hbefore⟩
    refine ⟨(name, value), ?_, rfl⟩
    rw [List.find?_eq_some_iff_append]
    exact ⟨beq_self_eq_true value, before, after, hsplit,
      fun entry hentry => by simpa using hbefore entry hentry⟩

/-- The index knows the values of its table and no others. -/
theorem lookup_firstNames_isSome_iff :
    ((firstNames entries).lookup value).isSome ↔ ∃ name, (name, value) ∈ entries := by
  rw [lookup_firstNames, Option.isSome_map, List.find?_isSome]
  simp

/-! ## Keywords -/

/-- The colors of keywords are the entries of the table. -/
theorem color?_eq_some_iff : color? name = some value ↔ (name, value) ∈ table :=
  ⟨mem_of_lookup, lookup_of_mem nodup_table⟩

/-- The keyword of a color is the first one that carries it, whatever the case of its digits. -/
theorem ofColor?_eq_some_iff {color : String} :
    ofColor? color = some name ↔ FirstCarrier table (lower color) name :=
  lookup_firstNames_eq_some_iff nodup_table

/-- The index of a table with distinct names leads from the values of the table, each of them once,
to the first names that carry them. So the keyword of a color has that color and no keyword before
it does, a color without a keyword is no color of the table, and going from a keyword to its color
and back leads to it or to an earlier keyword of the same color. -/
theorem index_finds_first :
    (∀ entries : List (String × String), (entries.map Prod.fst).Nodup →
      ((firstNames entries).map Prod.fst).Nodup ∧ ∀ value,
        (((firstNames entries).lookup value).isSome ↔ ∃ name, (name, value) ∈ entries) ∧
        ∀ name, (firstNames entries).lookup value = some name ↔
          FirstCarrier entries value name) ∧
    (∀ color,
      (∀ name, ofColor? color = some name → color? name = some (lower color) ∧
        ∀ other, Precedes table other name → color? other ≠ some (lower color)) ∧
      (ofColor? color = none ↔ ∀ name, color? name ≠ some (lower color))) ∧
    ∀ keyword value, color? keyword = some value →
      ∃ name, ofColor? value = some name ∧
        (name = keyword ∨ Precedes table name keyword ∧ color? name = some value) := by
  refine ⟨fun entries hnodup => ⟨nodup_firstNames entries, fun value =>
    ⟨lookup_firstNames_isSome_iff, fun name => lookup_firstNames_eq_some_iff hnodup⟩⟩,
    fun color => ⟨fun name hname => ?_, ?_⟩, fun keyword value hkeyword => ?_⟩
  · have hfirst := ofColor?_eq_some_iff.mp hname
    exact ⟨color?_eq_some_iff.mpr hfirst.carries, fun other hother hcolor =>
      hfirst.first other hother (color?_eq_some_iff.mp hcolor)⟩
  · have hsome : (ofColor? color).isSome ↔ ∃ name, (name, lower color) ∈ table :=
      lookup_firstNames_isSome_iff
    rw [← Option.not_isSome_iff_eq_none, hsome, not_exists]
    simp only [ne_eq, color?_eq_some_iff]
  · -- the colors of the table are in lower case, so the color is looked up as it stands
    have hlower : lower value = value := (isCanonical_of_color? hkeyword).lower_eq
    have hmem : (keyword, value) ∈ table := color?_eq_some_iff.mp hkeyword
    have hsome : (ofColor? value).isSome :=
      lookup_firstNames_isSome_iff.mpr ⟨keyword, by rwa [hlower]⟩
    obtain ⟨name, hname⟩ := Option.isSome_iff_exists.mp hsome
    have hfirst := ofColor?_eq_some_iff.mp hname
    rw [hlower] at hfirst
    refine ⟨name, hname, (hfirst.eq_or_precedes nodup_table hmem).imp_right fun hprecedes => ?_⟩
    exact ⟨hprecedes, color?_eq_some_iff.mpr hfirst.carries⟩

/-- A table with a value that occurs three times, and a keyword that is not the first one of its
color. -/
theorem index_finds_first_repeated :
    let entries := [("sky", "#87ceeb"), ("aqua", "#00ffff"), ("cyan", "#00ffff"),
      ("ink", "#000000"), ("lagoon", "#00ffff")]
    (entries.map Prod.fst).Nodup ∧ (firstNames entries).lookup "#00ffff" = some "aqua" ∧
      FirstCarrier entries "#00ffff" "aqua" ∧
      color? "cyan" = some "#00ffff" ∧
      ∃ name, ofColor? "#00ffff" = some name ∧
        (name = "cyan" ∨ Precedes table name "cyan" ∧ color? name = some "#00ffff") := by
  intro entries
  obtain ⟨hindex, -, hkeyword⟩ := index_finds_first
  have hnodup : (entries.map Prod.fst).Nodup := by decide
  have hlookup : (firstNames entries).lookup "#00ffff" = some "aqua" := by decide +kernel
  have hcyan : color? "cyan" = some "#00ffff" := by decide +kernel
  exact ⟨hnodup, hlookup, (((hindex entries hnodup).2 "#00ffff").2 "aqua").mp hlookup, hcyan,
    hkeyword "cyan" "#00ffff" hcyan⟩

end CssColor.Keyword
