/-!
# Slices

Parts of a text between two offsets in characters. A negative offset counts from the end, and
offsets beyond either end are cut. What a character is does not matter here, so that raw texts are
cut in the same way.
-/

namespace CssColor.Text

variable {α : Type}

/-- The position in a text of the given length that an offset means. -/
def position (length : Nat) (offset : Int) : Nat :=
  min length (if offset < 0 then (offset + length).toNat else offset.toNat)

theorem position_le (length : Nat) (offset : Int) : position length offset ≤ length :=
  Nat.min_le_left _ _

/-- An offset that does not count from the end is its own position, up to the end of the text. -/
@[simp] theorem position_natCast (length offset : Nat) :
    position length (offset : Int) = min length offset := by
  have h : ¬ (offset : Int) < 0 := by omega
  simp [position, h]

/-- The characters from one offset up to another; none when the second does not lie behind the
first. -/
def slice (text : List α) (start stop : Int) : List α :=
  let first := position text.length start
  let last := position text.length stop
  (text.drop first).take (last - first)

/-- The characters before an offset. -/
def before (text : List α) (stop : Int) : List α := text.take (position text.length stop)

/-- The characters from an offset on. -/
def after (text : List α) (start : Int) : List α := text.drop (position text.length start)

/-- A text is what comes before an offset and what comes from it on. -/
@[simp] theorem before_append_after (text : List α) (offset : Int) :
    before text offset ++ after text offset = text :=
  List.take_append_drop _ _

/-- The text with another one in place of what stands between two offsets. -/
def replace (text : List α) (start stop : Int) (replacement : List α) : List α :=
  before text start ++ replacement ++ after text stop

end CssColor.Text
