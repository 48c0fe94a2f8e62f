import CssColor.Text.Slice
import Mathlib.Data.List.Basic

/-!
# Slices between natural offsets

A slice between two offsets that do not count from the end is a stretch of a text that starts where
the first offset says. Cutting a text at its front, or behind the last offset in use, therefore
moves slices and does not change them.
-/

namespace CssColor.Text

variable {α : Type}

/-- A slice between offsets that do not count from the end starts at the first of them. -/
theorem slice_natCast (text : List α) (start stop : Nat) :
    slice text start stop = (text.drop start).take (stop - start) := by
  rw [slice, position_natCast, position_natCast]
  by_cases h : start ≤ text.length
  · have hlength : (text.drop start).length = text.length - start := List.length_drop
    rw [Nat.min_eq_right h, List.take_eq_take_iff, hlength]
    omega
  · have hmin : min text.length start = text.length := by omega
    rw [hmin, List.drop_length, List.drop_eq_nil_of_le (by omega), List.take_nil, List.take_nil]

/-- What comes from an offset on that does not count from the end. -/
theorem after_natCast (text : List α) (start : Nat) : after text start = text.drop start := by
  rw [after, position_natCast]
  by_cases h : start ≤ text.length
  · rw [Nat.min_eq_right h]
  · rw [Nat.min_eq_left (by omega), List.drop_length, List.drop_eq_nil_of_le (by omega)]

/-- What comes before an offset that does not count from the end. -/
theorem before_natCast (text : List α) (stop : Nat) : before text stop = text.take stop := by
  rw [before, position_natCast, List.take_eq_take_iff]
  omega

/-- What stands between two offsets that do not count from the end is replaced. -/
theorem replace_natCast (text : List α) (start stop : Nat) (replacement : List α) :
    replace text start stop replacement = text.take start ++ replacement ++ text.drop stop := by
  rw [replace, before_natCast, after_natCast]

/-- A slice of a text whose characters are replaced one by one. -/
theorem slice_map {β : Type} (f : α → β) (text : List α) (start stop : Int) :
    slice (text.map f) start stop = (slice text start stop).map f := by
  simp [slice, List.map_drop, List.map_take]

/-- A text is what comes before a slice, the slice and what comes behind it. -/
theorem before_append_slice_append_after (text : List α) {start stop : Nat} (h : start ≤ stop) :
    before text start ++ slice text start stop ++ after text stop = text := by
  have hdrop : text.drop stop = (text.drop start).drop (stop - start) := by
    rw [List.drop_drop, Nat.add_sub_cancel' h]
  rw [before_natCast, slice_natCast, after_natCast, hdrop, List.append_assoc,
    List.take_append_drop, List.take_append_drop]

/-- The text between two offsets. -/
def between (text : String) (start stop : Int) : String :=
  String.ofList (slice text.toList start stop)

/-- The text from an offset on. -/
def rest (text : String) (start : Int) : String := String.ofList (after text.toList start)

/-- A window shows a text from an offset on, as far as slices are concerned that stop at an offset
with `P`. -/
def Shows (window text : List Char) (base : Nat) (P : Nat → Prop) : Prop :=
  ∀ start stop : Nat, P stop →
    slice text (base + start : Nat) (base + stop : Nat) = slice window start stop

/-- What comes from an offset on shows all of the text from there. -/
theorem shows_rest (text : String) (base : Nat) (P : Nat → Prop) :
    Shows (rest text base).toList text.toList base P := by
  intro start stop _
  rw [rest, String.toList_ofList, slice_natCast, slice_natCast, after_natCast, List.drop_drop,
    Nat.add_sub_add_left]

/-- The text between two offsets shows the text from the first one up to the second. -/
theorem shows_between (text : String) (base length : Nat) :
    Shows (between text base (base + length : Nat)).toList text.toList base (· ≤ length) := by
  intro start stop hstop
  rw [between, String.toList_ofList, slice_natCast, slice_natCast, slice_natCast,
    Nat.add_sub_cancel_left, List.drop_take, List.take_take, List.drop_drop, Nat.add_sub_add_left]
  congr 1
  omega

end CssColor.Text
