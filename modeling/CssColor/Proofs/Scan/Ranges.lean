import CssColor.Proofs.Scan.Narrowing
import Mathlib.Data.Finset.Insert

/-!
# Several ranges, each token once

Several ranges are scanned one after the other, and a token that was found before is not reported
again. This can be done in one pass with a set of the tokens seen so far beside the tokens to
report. What the pass keeps is that both stand for all that was found, repetitions included: the set
holds its tokens, and those to report are its first occurrences. An error ends the pass, so the
ranges behind the first one that fails do not matter.

A range inside another one finds nothing that the wider one does not find. It therefore changes
nothing when it is scanned afterwards.

## Main definitions

* `firstOccurrences`: the items of a list without those that are equal to an earlier one.
* `Scan.Collection`: the tokens seen so far and those to report.
* `Scan.collect`: the ranges scanned in one pass.
* `Scan.FirstFailure`: the first range that cannot be scanned fails with an error.

## Main results

* `Scan.Collection.Reflects.addAll`: the set and the report stay in step.
* `Scan.extents_eq_collect`: the tokens of several ranges are those that one pass reports.
* `Scan.extents_of_firstFailure`: several ranges fail as the first of them that does.
* `Scan.extents_append`: ranges inside those that come before them change nothing.
* `Scan.extents_report_once`: what several ranges report, and how they fail.
-/

namespace CssColor

/-! ## First occurrences -/

section FirstOccurrences

variable {α : Type} [DecidableEq α]

/-- The items of a list without those that are equal to an earlier one. -/
def firstOccurrences (items : List α) : List α :=
  (items.zipIdx.filter fun (item, place) => item ∉ items.take place).map Prod.fst

/-- An item at the end is kept when it did not occur before. -/
theorem firstOccurrences_concat (items : List α) (item : α) :
    firstOccurrences (items ++ [item]) =
      if item ∈ items then firstOccurrences items else firstOccurrences items ++ [item] := by
  -- what stands in front of the other items is still the same
  have hfront : (items.zipIdx.filter fun (other, place) => other ∉ (items ++ [item]).take place) =
      items.zipIdx.filter fun (other, place) => other ∉ items.take place := by
    refine List.filter_congr fun entry hentry => ?_
    have hplace : entry.2 ≤ items.length := (List.snd_lt_of_mem_zipIdx hentry).le
    simp only [List.take_append_of_le_length hplace]
  simp only [firstOccurrences, List.zipIdx_append, List.filter_append, hfront, List.map_append]
  by_cases hmem : item ∈ items <;> simp [hmem]

/-- Every item has a first occurrence. -/
@[simp] theorem mem_firstOccurrences {items : List α} {item : α} :
    item ∈ firstOccurrences items ↔ item ∈ items := by
  induction items using List.reverseRecOn with
  | nil => simp [firstOccurrences]
  | append_singleton items last ih =>
    rw [firstOccurrences_concat, List.mem_append, List.mem_singleton]
    split_ifs with hlast
    · rw [ih]
      exact ⟨.inl, fun h => h.elim id fun heq => heq ▸ hlast⟩
    · rw [List.mem_append, ih, List.mem_singleton]

/-- The items that are kept stand in the order in which they first occur. -/
theorem pairwise_firstOccurrences (items : List α) :
    (firstOccurrences items).Pairwise fun item later => items.idxOf item < items.idxOf later := by
  induction items using List.reverseRecOn with
  | nil => simp [firstOccurrences]
  | append_singleton items last ih =>
    -- an item that occurs before keeps its place when another one follows
    have hplace : ∀ item ∈ firstOccurrences items,
        (items ++ [last]).idxOf item = items.idxOf item :=
      fun item hitem => List.idxOf_append_of_mem (mem_firstOccurrences.mp hitem)
    have hkept : (firstOccurrences items).Pairwise fun item later =>
        (items ++ [last]).idxOf item < (items ++ [last]).idxOf later := by
      refine ih.imp_of_mem fun hitem hlater hlt => ?_
      rwa [hplace _ hitem, hplace _ hlater]
    rw [firstOccurrences_concat]
    split_ifs with hlast
    · exact hkept
    · refine List.pairwise_append.mpr ⟨hkept, List.pairwise_singleton _ _, ?_⟩
      intro item hitem later hlater
      obtain rfl : later = last := List.mem_singleton.mp hlater
      have hlt := List.idxOf_lt_length_of_mem (mem_firstOccurrences.mp hitem)
      rw [hplace item hitem, List.idxOf_append_of_notMem hlast]
      omega

/-- Erasing repetitions keeps the first occurrences. -/
theorem eraseDups_eq_firstOccurrences (items : List α) :
    items.eraseDups = firstOccurrences items := by
  induction items using List.reverseRecOn with
  | nil => rfl
  | append_singleton items last ih =>
    rw [List.eraseDups_append, ih, firstOccurrences_concat]
    by_cases hlast : last ∈ items <;> simp [List.removeAll, hlast, List.eraseDups_cons]

end FirstOccurrences

namespace Scan

/-! ## One pass over the ranges -/

/-- What has been collected from the ranges that were scanned. -/
structure Collection where
  /-- The tokens that have been seen. -/
  seen : Finset Token
  /-- The tokens to report, in the order in which they were found. -/
  reported : List Token

namespace Collection

/-- Nothing has been collected. -/
def empty : Collection := ⟨∅, []⟩

/-- One more token, which is reported unless it has been seen. -/
def add (collection : Collection) (token : Token) : Collection :=
  if token ∈ collection.seen then collection
  else ⟨insert token collection.seen, collection.reported ++ [token]⟩

/-- The tokens of one more range, one after the other. -/
def addAll (collection : Collection) (found : List Token) : Collection :=
  found.foldl add collection

/-- A collection stands for all tokens that were found, repetitions included: it has seen them and
reports their first occurrences. -/
structure Reflects (collection : Collection) (found : List Token) : Prop where
  /-- The tokens that have been seen are those that were found. -/
  mem_seen : ∀ token, token ∈ collection.seen ↔ token ∈ found
  /-- The tokens to report are their first occurrences. -/
  reported : collection.reported = firstOccurrences found

theorem reflects_empty : empty.Reflects [] := ⟨by simp [empty], rfl⟩

variable {collection : Collection} {found : List Token}

/-- One more token keeps the set and the report in step. -/
theorem Reflects.add (h : collection.Reflects found) (token : Token) :
    (collection.add token).Reflects (found ++ [token]) := by
  have hseen := h.mem_seen token
  rw [Collection.add]
  split_ifs with hmem
  · refine ⟨fun other => ?_, ?_⟩
    · rw [h.mem_seen, List.mem_append, List.mem_singleton]
      exact ⟨.inl, fun hother => hother.elim id fun heq => heq ▸ hseen.mp hmem⟩
    · rw [firstOccurrences_concat, if_pos (hseen.mp hmem), h.reported]
  · refine ⟨fun other => ?_, ?_⟩
    · rw [Finset.mem_insert, h.mem_seen, List.mem_append, List.mem_singleton, or_comm]
    · rw [firstOccurrences_concat, if_neg (hseen.not.mp hmem), h.reported]

/-- The tokens of one more range keep the set and the report in step. -/
theorem Reflects.addAll (h : collection.Reflects found) (more : List Token) :
    (collection.addAll more).Reflects (found ++ more) := by
  induction more generalizing collection found with
  | nil => rwa [List.append_nil]
  | cons token rest ih =>
    rw [List.append_cons]
    exact ih (h.add token)

/-- All tokens that are found, collected from the start, are reported where they first occur. -/
theorem reported_addAll_empty (found : List Token) :
    (empty.addAll found).reported = firstOccurrences found :=
  (reflects_empty.addAll found).reported

/-- Tokens may be added in several lots. -/
theorem addAll_append (collection : Collection) (found more : List Token) :
    collection.addAll (found ++ more) = (collection.addAll found).addAll more :=
  List.foldl_append

/-- Tokens that have been seen change nothing. -/
theorem addAll_of_seen {more : List Token} (h : ∀ token ∈ more, token ∈ collection.seen) :
    collection.addAll more = collection := by
  induction more with
  | nil => rfl
  | cons token rest ih =>
    have hadd : collection.add token = collection := if_pos (h token List.mem_cons_self)
    rw [addAll, List.foldl_cons, hadd]
    exact ih fun other hother => h other (List.mem_cons_of_mem _ hother)

end Collection

variable {document : String} {tree : SyntaxTree} {ranges more : List Extent}

/-- The ranges scanned in one pass. The first error ends it. -/
def collect (document : String) (tree : SyntaxTree) (collection : Collection) :
    List Extent → Except Error Collection
  | [] => return collection
  | range :: rest => do
    let found ← tokens document tree (some range)
    collect document tree (collection.addAll found) rest

/-- One pass collects the tokens of all ranges, and fails where scanning each of them does. -/
theorem collect_eq (collection : Collection) (ranges : List Extent) :
    collect document tree collection ranges =
      (do return collection.addAll (← eachExtent document tree ranges)) := by
  induction ranges generalizing collection with
  | nil => rfl
  | cons range rest ih =>
    rw [collect, eachExtent]
    cases tokens document tree (some range) with
    | error cause => rfl
    | ok found =>
      simp only [ok_bind, ih]
      cases eachExtent document tree rest with
      | error cause => rfl
      | ok rest => simp [Collection.addAll_append]

/-- The tokens of several ranges are those that one pass reports. -/
theorem extents_eq_collect (document : String) (tree : SyntaxTree) (ranges : List Extent) :
    extents document tree ranges =
      (do return (← collect document tree .empty ranges).reported) := by
  rw [extents, collect_eq]
  cases eachExtent document tree ranges with
  | error cause => rfl
  | ok found => simp [Collection.reported_addAll_empty, eraseDups_eq_firstOccurrences]

/-- When all ranges can be scanned, the first occurrences of the tokens are reported. -/
theorem extents_of_eachExtent {found : List Token}
    (h : eachExtent document tree ranges = .ok found) :
    extents document tree ranges = .ok (firstOccurrences found) := by
  rw [extents, h, ← eraseDups_eq_firstOccurrences]
  rfl

/-! ## Failure -/

/-- The first range of a list that cannot be scanned fails with an error. -/
def FirstFailure (document : String) (tree : SyntaxTree) (ranges : List Extent) (cause : Error) :
    Prop :=
  ∃ before range after, ranges = before ++ range :: after ∧
    (∀ earlier ∈ before, ∃ part, tokens document tree (some earlier) = .ok part) ∧
    tokens document tree (some range) = .error cause

/-- Later ranges do not change the first failure. -/
theorem FirstFailure.append {cause : Error} (h : FirstFailure document tree ranges cause)
    (more : List Extent) : FirstFailure document tree (ranges ++ more) cause := by
  obtain ⟨before, range, after, rfl, hbefore, hrange⟩ := h
  exact ⟨before, range, after ++ more, by simp, hbefore, hrange⟩

/-- All ranges can be scanned, or there is a first one that cannot. -/
theorem scanned_or_firstFailure (document : String) (tree : SyntaxTree) (ranges : List Extent) :
    (∀ range ∈ ranges, ∃ part, tokens document tree (some range) = .ok part) ∨
      ∃ cause, FirstFailure document tree ranges cause := by
  induction ranges with
  | nil => exact .inl (by simp)
  | cons range rest ih =>
    cases hrange : tokens document tree (some range) with
    | error cause => exact .inr ⟨cause, [], range, rest, rfl, by simp, hrange⟩
    | ok part =>
      rcases ih with hrest | ⟨cause, before, failing, after, rfl, hbefore, hfailing⟩
      · exact .inl (List.forall_mem_cons.mpr ⟨⟨part, hrange⟩, hrest⟩)
      · exact .inr ⟨cause, range :: before, failing, after, rfl,
          List.forall_mem_cons.mpr ⟨⟨part, hrange⟩, hbefore⟩, hfailing⟩

/-- Several ranges fail as the first of them that does. -/
theorem extents_of_firstFailure {cause : Error} (h : FirstFailure document tree ranges cause) :
    extents document tree ranges = .error cause := by
  obtain ⟨before, range, after, rfl, hbefore, hrange⟩ := h
  have heach : eachExtent document tree (before ++ range :: after) = .error cause := by
    induction before with
    | nil => rw [List.nil_append, eachExtent, hrange, error_bind]
    | cons first before ih =>
      obtain ⟨⟨part, hpart⟩, hbefore⟩ := List.forall_mem_cons.mp hbefore
      rw [List.cons_append, eachExtent, hpart, ok_bind, ih hbefore, error_bind]
  rw [extents, heach, error_bind]

/-! ## Ranges inside earlier ones -/

/-- Ranges may be scanned in several lots. -/
theorem eachExtent_append {found extra : List Token}
    (h : eachExtent document tree ranges = .ok found)
    (hmore : eachExtent document tree more = .ok extra) :
    eachExtent document tree (ranges ++ more) = .ok (found ++ extra) := by
  induction ranges generalizing found with
  | nil =>
    obtain rfl : [] = found := Except.ok.inj h
    exact hmore
  | cons range rest ih =>
    rw [eachExtent, append_eq_ok] at h
    obtain ⟨part, back, hpart, hback, rfl⟩ := h
    rw [List.cons_append, eachExtent, append_eq_ok]
    exact ⟨part, back ++ extra, hpart, ih hback, by rw [List.append_assoc]⟩

/-- Ranges inside those that come before them change nothing, neither the report nor the error. -/
theorem extents_append (hmore : ∀ inner ∈ more, ∃ outer ∈ ranges, inner.Within outer) :
    extents document tree (ranges ++ more) = extents document tree ranges := by
  rcases scanned_or_firstFailure document tree ranges with hscanned | ⟨cause, hfailure⟩
  · obtain ⟨found, hfound⟩ := eachExtent_succeeds hscanned
    -- a narrower range is scanned as well, and the wider one has found its tokens
    have hinner : ∀ inner ∈ more,
        ∃ part, tokens document tree (some inner) = .ok part ∧ part ⊆ found := by
      intro inner hinner
      obtain ⟨outer, houter, hwithin⟩ := hmore inner hinner
      obtain ⟨whole, hwhole⟩ := hscanned outer houter
      obtain ⟨part, hpart, hsub⟩ := contributions_of_sublist
        (SyntaxTree.visit_sublist hwithin tree) ((tokens_eq_contributions ..).symm.trans hwhole)
      refine ⟨part, (tokens_eq_contributions ..).trans hpart, fun token htoken => ?_⟩
      exact (mem_eachExtent_iff hfound).mpr ⟨outer, houter, whole, hwhole, hsub.subset htoken⟩
    obtain ⟨extra, hextra⟩ :=
      eachExtent_succeeds fun inner hmem => (hinner inner hmem).imp fun _ h => h.1
    have hseen : ∀ token ∈ extra, token ∈ (Collection.empty.addAll found).seen := by
      intro token htoken
      obtain ⟨inner, hmem, part, hpart, hpartToken⟩ := (mem_eachExtent_iff hextra).mp htoken
      obtain ⟨same, hsame, hsubset⟩ := hinner inner hmem
      obtain rfl : part = same := Except.ok.inj (hpart.symm.trans hsame)
      exact ((Collection.reflects_empty.addAll found).mem_seen token).mpr (hsubset hpartToken)
    rw [extents_of_eachExtent (eachExtent_append hfound hextra), extents_of_eachExtent hfound,
      ← Collection.reported_addAll_empty, ← Collection.reported_addAll_empty,
      Collection.addAll_append, Collection.addAll_of_seen hseen]
  · rw [extents_of_firstFailure (hfailure.append more), extents_of_firstFailure hfailure]

/-! ## What is reported -/

/-- The ranges that were scanned have their tokens, one list after the other. -/
theorem exists_parts {found : List Token} (h : eachExtent document tree ranges = .ok found) :
    ∃ parts, List.Forall₂ (fun range part => tokens document tree (some range) = .ok part)
      ranges parts ∧ found = parts.flatten := by
  induction ranges generalizing found with
  | nil =>
    obtain rfl : [] = found := Except.ok.inj h
    exact ⟨[], .nil, rfl⟩
  | cons range rest ih =>
    rw [eachExtent, append_eq_ok] at h
    obtain ⟨part, back, hpart, hback, rfl⟩ := h
    obtain ⟨parts, hparts, rfl⟩ := ih hback
    exact ⟨part :: parts, .cons hpart hparts, rfl⟩

/-- Several ranges report what one pass over them does. When each of them can be scanned, this is
all that is found, one range after the other, without the tokens that are equal to an earlier one:
no token twice, the tokens of all ranges, in the order in which they are first found. Ranges inside
earlier ones change nothing. When a range cannot be scanned, the error is that of the first such
range. -/
theorem extents_report_once (document : String) (tree : SyntaxTree) (ranges : List Extent) :
    extents document tree ranges =
        (do return (← collect document tree .empty ranges).reported) ∧
      ((∀ range ∈ ranges, ∃ part, tokens document tree (some range) = .ok part) →
        ∃ parts all,
          List.Forall₂ (fun range part => tokens document tree (some range) = .ok part)
            ranges parts ∧
          extents document tree ranges = .ok all ∧ all = firstOccurrences parts.flatten ∧
          all.Nodup ∧
          (∀ token, token ∈ all ↔ ∃ range ∈ ranges, ∃ part,
            tokens document tree (some range) = .ok part ∧ token ∈ part) ∧
          all.Pairwise fun token later =>
            parts.flatten.idxOf token < parts.flatten.idxOf later) ∧
      (∀ more, (∀ inner ∈ more, ∃ outer ∈ ranges, inner.Within outer) →
        extents document tree (ranges ++ more) = extents document tree ranges) ∧
      ((∃ range ∈ ranges, ∃ cause, tokens document tree (some range) = .error cause) →
        ∃ cause, FirstFailure document tree ranges cause ∧
          extents document tree ranges = .error cause) := by
  refine ⟨extents_eq_collect document tree ranges, fun hscanned => ?_,
    fun more => extents_append, fun ⟨range, hmem, cause, hrange⟩ => ?_⟩
  · obtain ⟨found, hfound⟩ := eachExtent_succeeds hscanned
    obtain ⟨parts, hparts, rfl⟩ := exists_parts hfound
    have hall := extents_of_eachExtent hfound
    have hordered := pairwise_firstOccurrences parts.flatten
    refine ⟨parts, _, hparts, hall, rfl, ?_, fun token => mem_extents_iff hall, hordered⟩
    -- a token that occurs later does not occur in the same place
    refine hordered.imp ?_
    rintro token _ hlt rfl
    exact lt_irrefl _ hlt
  · rcases scanned_or_firstFailure document tree ranges with hscanned | ⟨first, hfirst⟩
    · obtain ⟨part, hpart⟩ := hscanned range hmem
      rw [hpart] at hrange
      exact absurd hrange (by simp)
    · exact ⟨first, hfirst, extents_of_firstFailure hfirst⟩

/-- Two ranges that overlap report a literal in both of them once, and before the name that stands
in front of it, with or without two narrower ranges. A third range comes to an overlay on a name and
fails, whatever range is behind it. -/
theorem extents_report_once_overlapping :
    let document := "red #fff blue"
    let tree : SyntaxTree :=
      { name := "StyleSheet", start := 0, stop := 13
        children := [
          { name := "ValueName", start := 0, stop := 3 },
          { name := "ColorLiteral", start := 4, stop := 8 },
          { name := "ValueName", start := 9, stop := 13
            overlay := some { name := "ValueName", start := 0, stop := 3 } }] }
    let ranges : List Extent := [⟨4, 6⟩, ⟨0, 5⟩]
    let narrower : List Extent := [⟨4, 6⟩, ⟨5, 2⟩]
    let failing : List Extent := ranges ++ [⟨9, 9⟩, ⟨0, 3⟩]
    let found : List Token :=
      [{ kind := .hex, color := "#ffffff", start := 4, stop := 8 },
       { kind := .named, color := "#ff0000", start := 0, stop := 3 }]
    (∀ range ∈ ranges, ∃ part, tokens document tree (some range) = .ok part) ∧
      (∀ inner ∈ narrower, ∃ outer ∈ ranges, inner.Within outer) ∧
      (∃ range ∈ failing, ∃ cause, tokens document tree (some range) = .error cause) ∧
      extents document tree (ranges ++ narrower) = .ok found ∧ found.Nodup ∧
      FirstFailure document tree failing (.misplacedOverlay "ValueName" 9) := by
  intro document tree ranges narrower failing found
  have hfirst : tokens document tree (some ⟨4, 6⟩) = .ok (found.take 1) := by decide +kernel
  have hsecond : tokens document tree (some ⟨0, 5⟩) = .ok found.reverse := by decide +kernel
  have hthird : tokens document tree (some ⟨9, 9⟩) =
      .error (.misplacedOverlay "ValueName" 9) := by decide +kernel
  have hscanned : ∀ range ∈ ranges, ∃ part, tokens document tree (some range) = .ok part :=
    List.forall_mem_cons.mpr ⟨⟨_, hfirst⟩, List.forall_mem_cons.mpr ⟨⟨_, hsecond⟩, by simp⟩⟩
  have hnarrower : ∀ inner ∈ narrower, ∃ outer ∈ ranges, inner.Within outer := by decide
  have hfails : ∃ range ∈ failing, ∃ cause, tokens document tree (some range) = .error cause :=
    ⟨⟨9, 9⟩, by decide, _, hthird⟩
  obtain ⟨-, hreport, hmore, -⟩ := extents_report_once document tree ranges
  obtain ⟨parts, all, -, hall, -, hnodup, -, -⟩ := hreport hscanned
  have hfound : extents document tree ranges = .ok found := by decide +kernel
  obtain rfl : all = found := Except.ok.inj (hall.symm.trans hfound)
  obtain ⟨cause, hfailure, herror⟩ := (extents_report_once document tree failing).2.2.2 hfails
  have hcause : extents document tree failing = .error (.misplacedOverlay "ValueName" 9) := by
    decide +kernel
  obtain rfl : cause = .misplacedOverlay "ValueName" 9 :=
    Except.error.inj (herror.symm.trans hcause)
  exact ⟨hscanned, hnarrower, hfails, (hmore narrower hnarrower).trans hall, hnodup, hfailure⟩

end Scan

end CssColor
