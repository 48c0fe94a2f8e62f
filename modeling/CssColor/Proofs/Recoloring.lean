import CssColor.Proofs.Outcome
import CssColor.Proofs.Text.Slice
import CssColor.Rendering
import Mathlib.Data.List.Chain

/-!
# Several edits of one document

Tokens that do not overlap are recolored one after the other. Each edit changes the length of the
document. From the last token to the first this does not matter, since only what comes behind a
token has changed by then. From the first to the last every token has to be moved by what the edits
before it have added or taken away.

## Main definitions

* `Edit`: a color in place of a token, with its text.
* `Edit.backward`, `Edit.forward`: the edits in either order.
* `Edit.spliced`: the document with all spans replaced at once.

## Main results

* `Edit.backward_eq_spliced`, `Edit.forward_eq_spliced`: what has been done when the edits from a
  position on are still to come, or have been made.
* `Edit.forward_eq_backward`: both orders replace all spans and nothing else.
-/

namespace CssColor

open Text

/-- A color to be written in place of a token. -/
structure Edit where
  /-- The token. -/
  token : Token
  /-- The new color. -/
  color : String
  /-- The text that writes the color. -/
  written : String
  /-- The color can be written in place of the token. -/
  render_eq : token.render color = .ok written

/-- What is written in place of a token does not depend on where the token stands. -/
@[simp] theorem Token.render_shift (token : Token) (offset : Int) (color : String) :
    (token.shift offset).render color = token.render color := rfl

/-- A span between natural offsets is cut out as a stretch of the list of characters. -/
theorem Token.replaceSpan_natCast {token : Token} {start stop : Nat} (hstart : token.start = start)
    (hstop : token.stop = stop) (document : List Char) (replacement : String) :
    token.replaceSpan (String.ofList document) replacement =
      String.ofList (document.take start ++ replacement.toList ++ document.drop stop) := by
  rw [replaceSpan, String.toList_ofList, hstart, hstop, replace_natCast]

namespace Edit

/-- By how many characters the edit makes the document longer; a negative number when it makes it
shorter. -/
def growth (edit : Edit) : Int :=
  edit.written.length - (edit.token.stop - edit.token.start)

/-- The document after all edits, made from the last one to the first. -/
def backward (document : String) : List Edit → Except NumericError String
  | [] => return document
  | edit :: rest => do edit.token.recolor (← backward document rest) edit.color

/-- The document after all edits, made from the first one to the last. Every token is moved by what
the earlier edits have added to the length. -/
def forward (document : String) (displacement : Int) :
    List Edit → Except NumericError String
  | [] => return document
  | edit :: rest => do
    let document ← (edit.token.shift displacement).recolor document edit.color
    forward document (displacement + edit.growth) rest

/-- The characters of the document from a position on, with the texts of the edits in place of the
spans of their tokens. -/
def splicedFrom (document : List Char) (position : Int) : List Edit → List Char
  | [] => after document position
  | edit :: rest =>
    slice document position edit.token.start ++ edit.written.toList ++
      splicedFrom document edit.token.stop rest

/-- The document with the texts of the edits in place of the spans of their tokens. -/
def spliced (document : String) (edits : List Edit) : String :=
  String.ofList (splicedFrom document.toList 0 edits)

/-- The tokens of the edits stand one behind the other, from a position on and inside of the
document. -/
inductive Fits (document : List Char) : Nat → List Edit → Prop
  /-- Nothing follows. -/
  | nil {position : Nat} (hinside : position ≤ document.length) : Fits document position []
  /-- A token stands behind the position, and the others behind the token. -/
  | cons {position start stop : Nat} {edit : Edit} {rest : List Edit}
    (hstart : edit.token.start = start) (hstop : edit.token.stop = stop)
    (hbehind : position ≤ start) (hspan : start ≤ stop) (hrest : Fits document stop rest) :
    Fits document position (edit :: rest)

/-- The edits fit in from a position that lies inside of the document. -/
theorem Fits.position_le {document : List Char} {position : Nat} {edits : List Edit}
    (h : Fits document position edits) : position ≤ document.length := by
  induction h with
  | nil hinside => exact hinside
  | cons _ _ hbehind hspan _ ih => omega

/-- Tokens inside of the document, each behind the one before it, stand one behind the other. -/
theorem fits_of_isChain {document : List Char} {position : Nat} {edits : List Edit}
    (hspans : ∀ edit ∈ edits, 0 ≤ edit.token.start ∧ edit.token.start < edit.token.stop ∧
      edit.token.stop ≤ document.length)
    (horder : edits.IsChain fun first second => first.token.stop ≤ second.token.start)
    (hfirst : ∀ edit ∈ edits.head?, position ≤ edit.token.start)
    (hposition : position ≤ document.length) : Fits document position edits := by
  induction edits generalizing position with
  | nil => exact .nil hposition
  | cons edit rest ih =>
    obtain ⟨hnonneg, hspan, hinside⟩ := hspans edit (List.mem_cons_self ..)
    obtain ⟨start, hstart⟩ := Int.eq_ofNat_of_zero_le hnonneg
    obtain ⟨stop, hstop⟩ := Int.eq_ofNat_of_zero_le (Int.le_trans hnonneg (Int.le_of_lt hspan))
    have hbehind : position ≤ edit.token.start := hfirst edit rfl
    -- the stop of this token is the position that the others stand behind
    refine .cons hstart hstop (by omega) (by omega) ?_
    refine ih (fun other hother => hspans other (List.mem_cons_of_mem _ hother)) horder.tail ?_
      (by omega)
    intro next hmem
    rw [← hstop]
    exact horder.rel_head? hmem

/-- The edit of a document puts its text in place of the span. -/
theorem recolor_eq (edit : Edit) (displacement : Int) (document : String) :
    (edit.token.shift displacement).recolor document edit.color =
      .ok ((edit.token.shift displacement).replaceSpan document edit.written) := by
  rw [Token.recolor, Token.render_shift, edit.render_eq, ok_bind, pure_eq_ok]

/-- The edits behind a position leave all before it as it is. -/
theorem backward_eq_spliced {document : List Char} {position : Nat} {edits : List Edit}
    (h : Fits document position edits) :
    backward (String.ofList document) edits =
      .ok (String.ofList (document.take position ++ splicedFrom document position edits)) := by
  induction h with
  | nil => rw [backward, splicedFrom, after_natCast, List.take_append_drop, pure_eq_ok]
  | @cons position start stop edit rest hstart hstop hbehind hspan hrest ih =>
    have hinside := hrest.position_le
    -- what comes before the token is still the document
    have hbefore : (document.take stop ++ splicedFrom document stop rest).take start =
        document.take position ++ slice document position start := by
      rw [List.take_append_of_le_length (by rw [List.length_take]; omega), List.take_take,
        Nat.min_eq_left hspan, slice_natCast, ← List.take_add]
      congr 1
      omega
    have hafter : (document.take stop ++ splicedFrom document stop rest).drop stop =
        splicedFrom document stop rest :=
      List.drop_left' (by rw [List.length_take]; omega)
    -- from the last token to the first no token has to be moved
    have hrecolor := edit.recolor_eq 0
    rw [Token.shift_zero] at hrecolor
    rw [backward, ih, ok_bind, hrecolor, Token.replaceSpan_natCast hstart hstop, hbefore, hafter,
      splicedFrom, hstart, hstop]
    simp only [List.append_assoc]

/-- When all before a position has been replaced, and the displacement says by how much that has
grown, the edits behind the position are still to be made. -/
theorem forward_eq_spliced {document : List Char} {position : Nat} {edits : List Edit}
    (h : Fits document position edits) {done : List Char} {displacement : Int}
    (hdone : (done.length : Int) = position + displacement) :
    forward (String.ofList (done ++ document.drop position)) displacement edits =
      .ok (String.ofList (done ++ splicedFrom document position edits)) := by
  induction h generalizing done displacement with
  | nil => rw [forward, splicedFrom, after_natCast, pure_eq_ok]
  | @cons position start stop edit rest hstart hstop hbehind hspan hrest ih =>
    -- the moved token stands as far behind what is done as the token stands behind the position
    have hstart' : (edit.token.shift displacement).start =
        (done.length + (start - position) : Nat) := by
      simp only [Token.shift, hstart]
      omega
    have hstop' : (edit.token.shift displacement).stop =
        (done.length + (stop - position) : Nat) := by
      simp only [Token.shift, hstop]
      omega
    have hgap : slice document position start = (document.drop position).take (start - position) :=
      slice_natCast ..
    have hbelow : (document.drop position).drop (stop - position) = document.drop stop := by
      rw [List.drop_drop]
      congr 1
      omega
    -- what is done now ends with the text of the edit, at the stop of its token
    have hnext : ((done ++ slice document position start ++ edit.written.toList).length : Int) =
        stop + (displacement + edit.growth) := by
      have hlength : (slice document position start).length = start - position := by
        have hinside := hrest.position_le
        rw [hgap, List.length_take, List.length_drop]
        omega
      simp only [List.length_append, hlength, growth, hstart, hstop, String.length_toList]
      omega
    have hih := ih hnext
    rw [forward, edit.recolor_eq, ok_bind, Token.replaceSpan_natCast hstart' hstop',
      List.take_length_add_append, List.drop_length_add_append, hbelow, ← hgap, hih, splicedFrom,
      hstart, hstop]
    simp only [List.append_assoc]

/-- Edits of tokens that do not overlap and lie inside of the document may be made from the last to
the first, or from the first to the last with every token moved by what the earlier edits have added
to the length. Either way every span is replaced by the text of its edit, and all that stands
before, between and behind the spans stays. -/
theorem forward_eq_backward {document : String} {edits : List Edit}
    (hspans : ∀ edit ∈ edits, 0 ≤ edit.token.start ∧ edit.token.start < edit.token.stop ∧
      edit.token.stop ≤ document.length)
    (horder : edits.IsChain fun first second => first.token.stop ≤ second.token.start) :
    backward document edits = .ok (spliced document edits) ∧
      forward document 0 edits = .ok (spliced document edits) := by
  have hfits : Fits document.toList 0 edits := by
    refine fits_of_isChain (fun edit hedit => ?_) horder (fun edit hedit => ?_) (Nat.zero_le _)
    · rw [String.length_toList]
      exact hspans edit hedit
    · exact (hspans edit (List.mem_of_mem_head? hedit)).1
  constructor
  · have hbackward := backward_eq_spliced hfits
    rwa [String.ofList_toList, List.take_zero, List.nil_append] at hbackward
  · -- nothing is done yet, and nothing has moved
    have hforward : forward (String.ofList ([] ++ document.toList.drop 0)) 0 edits =
        .ok (String.ofList ([] ++ splicedFrom document.toList 0 edits)) :=
      forward_eq_spliced hfits rfl
    rwa [List.drop_zero, List.nil_append, List.nil_append, String.ofList_toList] at hforward

/-- Three edits in a row, of which the first makes the document longer and the second shorter. The
second token starts where the first one stops. -/
theorem forward_eq_backward_three :
    let first : Edit :=
      ⟨{ kind := .hex, color := "#aabbcc", start := 2, stop := 6 }, "#FF0000", "#ff0000",
        by decide +kernel⟩
    let second : Edit :=
      ⟨{ kind := .hsl, color := "#000000", alpha := "/1", function := "hsl", separator := " ",
          start := 6, stop := 28 }, "#ffffff", "hsl(0 0% 100%/1)", by decide +kernel⟩
    let third : Edit :=
      ⟨{ kind := .rgb, color := "#010203", function := "RGB", separator := ", ", start := 29,
          stop := 39 }, "#0a000b", "RGB(10, 0, 11)", by decide +kernel⟩
    let document := "a:#abchsl(120deg 50%   0%/1) RGB(1,2,3);"
    let edits := [first, second, third]
    (∀ edit ∈ edits, 0 ≤ edit.token.start ∧ edit.token.start < edit.token.stop ∧
      edit.token.stop ≤ document.length) ∧
    edits.IsChain (fun first second => first.token.stop ≤ second.token.start) ∧
    backward document edits = .ok (spliced document edits) ∧
    forward document 0 edits = .ok (spliced document edits) ∧
    spliced document edits = "a:#ff0000hsl(0 0% 100%/1) RGB(10, 0, 11);" := by
  intro first second third document edits
  have hspans : ∀ edit ∈ edits, 0 ≤ edit.token.start ∧ edit.token.start < edit.token.stop ∧
      edit.token.stop ≤ document.length := by
    decide +kernel
  have horder : edits.IsChain fun first second => first.token.stop ≤ second.token.start := by
    simp [edits, first, second, third]
  obtain ⟨hbackward, hforward⟩ := forward_eq_backward hspans horder
  exact ⟨hspans, horder, hbackward, hforward, by decide +kernel⟩

end Edit

end CssColor
