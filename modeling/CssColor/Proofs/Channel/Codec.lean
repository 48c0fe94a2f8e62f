import CssColor.Proofs.Channel

/-!
# Colors and their levels

A color of six digits and three bytes say the same. Levels are written as digits, digits are read as
levels, and components spell levels in decimal; each way leads back to where one came from. Integers
outside of the bytes are moved to the nearest byte when they are written, and the case of digits is
lost when they are read.

## Main results

* `Rgb.toHex_int`: integers of any size are written as the nearest bytes.
* `Rgb.ofComponents_toString`: the decimal spellings of bytes are written as these bytes.
* `Rgb.codec_inverse`: reading and writing are inverse to each other.
-/

namespace CssColor.Rgb

open Text

/-- Integers of any size are written as the nearest bytes. -/
theorem toHex_int (levels : Rgb Int) :
    (levels.map Number.int).toHex = .ok (levels.map Channel.nearestByte).literal := by
  simp only [toHex, Rgb.map, Channel.encode_int, ok_bind]
  rfl

/-- The decimal spellings of bytes are written as these bytes. -/
theorem ofComponents_toString (levels : Rgb (Fin 256)) :
    ofComponents (levels.map fun level : Fin 256 => (toString (level : Int)).toList) =
      .ok levels.literal := by
  simp only [ofComponents, Rgb.map, Channel.encodeComponent_toString, ok_bind]
  rfl

/-- Three integers that are written as a color are read as the nearest bytes. A color of six digits
in either case is read as three bytes, and these are written as the color in lower case, whether
they are given as integers or spelled in decimal. -/
theorem codec_inverse :
    (∀ levels : Rgb Int, ((levels.map Number.int).toHex >>= ofHex) =
      .ok (levels.map fun level => max 0 (min 255 level))) ∧
    ∀ color : String, Decode.isColor color.toList = true →
      ∃ levels : Rgb Int, ofHex color = .ok levels ∧
        (∀ level ∈ [levels.red, levels.green, levels.blue], 0 ≤ level ∧ level ≤ 255) ∧
        (levels.map Number.int).toHex = .ok (lower color) ∧
        ofComponents (levels.map fun level => (toString level).toList) = .ok (lower color) := by
  refine ⟨fun levels => ?_, fun color hcolor => ?_⟩
  · rw [toHex_int, ok_bind, ofHex_literal]
    simp only [Rgb.map, Channel.natCast_nearestByte]
  · obtain ⟨bytes, hlower, hlevels⟩ := exists_levels_of_isColor hcolor
    refine ⟨_, hlevels, ?_, ?_, ?_⟩
    · intro level hlevel
      obtain ⟨byte, rfl⟩ : ∃ byte : Fin 256, (byte : Int) = level := by
        simp only [Rgb.map, List.mem_cons, List.not_mem_nil, or_false] at hlevel
        rcases hlevel with rfl | rfl | rfl <;> exact ⟨_, rfl⟩
      omega
    · rw [toHex_levels, hlower]
    · rw [hlower]
      exact ofComponents_toString bytes

/-- Levels below and above the bytes, one that needs padding, and a color in mixed case. -/
theorem codec_inverse_mixed_case :
    ((Rgb.map Number.int ⟨-7, 300, 10⟩).toHex >>= ofHex) = .ok ⟨0, 255, 10⟩ ∧
      Decode.isColor "#0aF003".toList = true ∧
      ∃ levels : Rgb Int, ofHex "#0aF003" = .ok levels ∧
        (∀ level ∈ [levels.red, levels.green, levels.blue], 0 ≤ level ∧ level ≤ 255) ∧
        (levels.map Number.int).toHex = .ok (lower "#0aF003") ∧
        ofComponents (levels.map fun level => (toString level).toList) =
          .ok (lower "#0aF003") := by
  obtain ⟨hlevels, hcolor⟩ := codec_inverse
  have hdigits : Decode.isColor "#0aF003".toList = true := by decide
  exact ⟨hlevels ⟨-7, 300, 10⟩, hdigits, hcolor "#0aF003" hdigits⟩

end CssColor.Rgb
