import DocComments.Comment.Shape
import Mathlib.Data.List.Basic

/-!
# What all markers have in common

Markers are made of delimiters, so not every `Markers` can occur. The marker of documentation lines
and the opening delimiter of a documentation block repeat their last character, and the closing
delimiter has the characters of the opening one, up to the direction of brackets: `Markers.Regular`.
-/

namespace DocComments

open Text

namespace Markers

/-- The characters that have a counterpart, and these. -/
def brackets : Text := "([\x7b<)]\x7d>".toList

theorem counterpart_eq_or_mem (c : Char) :
    counterpart c = c ∨ c ∈ brackets ∧ counterpart c ∈ brackets := by
  unfold counterpart
  split
  · exact Or.inr (by decide)
  · exact Or.inr (by decide)
  · exact Or.inr (by decide)
  · exact Or.inr (by decide)
  · exact Or.inl rfl

/-- What the markers of all delimiters have in common. -/
structure Regular (markers : Markers) : Prop where
  lineDoc : ∃ front, markers.lineDoc = front ++ [markers.lineChar, markers.lineChar]
  blockOpen : ∃ front, markers.blockOpen = front ++ [markers.blockChar, markers.blockChar]
  blockClose : ∀ c ∈ markers.blockClose, c ∉ brackets → c ∈ markers.blockOpen

/-- A character that is no bracket stands in the closing delimiter of a block only if it stands in
the opening one. -/
theorem Regular.not_mem_blockClose {markers : Markers} (regular : markers.Regular) {c : Char}
    (straight : c ∉ brackets) (absent : c ∉ markers.blockOpen) :
    c ∉ markers.blockClose ∧ c ≠ markers.blockChar := by
  refine ⟨fun member => absent (regular.blockClose c member straight), ?_⟩
  rintro rfl
  obtain ⟨front, doubled⟩ := regular.blockOpen
  exact absent (by simp [doubled])

theorem append_getLastD {style : Text} (usual : Char) (inhabited : style ≠ []) :
    style ++ [style.getLastD usual] =
      style.dropLast ++ [style.getLastD usual, style.getLastD usual] := by
  obtain ⟨front, last, rfl⟩ := (List.eq_nil_or_concat' style).resolve_left inhabited
  simp

theorem regular_ofStyles {block line : Text} (blockStyle : block ≠ []) (lineStyle : line ≠ []) :
    (ofStyles block line).Regular where
  lineDoc := ⟨line.dropLast, append_getLastD '/' lineStyle⟩
  blockOpen := ⟨block.dropLast, append_getLastD '*' blockStyle⟩
  blockClose := by
    intro c member straight
    simp only [ofStyles, List.map_reverse, List.mem_reverse, List.mem_map] at member ⊢
    obtain ⟨d, inside, rfl⟩ := member
    rcases counterpart_eq_or_mem d with same | ⟨-, bracket⟩
    · rw [same]
      exact List.mem_append_left _ inside
    · exact absurd bracket straight

end Markers

namespace Delimiters

theorem orUsual_ne_nil (style : String) {usual : String} (stands : usual.toList ≠ []) :
    orUsual style usual ≠ [] := by
  unfold orUsual
  split
  · exact stands
  · rename_i given
    rw [String.isEmpty_iff, ← String.toList_eq_nil_iff] at given
    exact given

theorem regular_markers (delimiters : Delimiters) : delimiters.markers.Regular :=
  Markers.regular_ofStyles (orUsual_ne_nil _ (by decide)) (orUsual_ne_nil _ (by decide))

theorem blockClose_ne_nil (delimiters : Delimiters) : delimiters.markers.blockClose ≠ [] := by
  have style := orUsual_ne_nil delimiters.block (show "/*".toList ≠ [] by decide)
  intro none
  apply style
  simpa [markers, Markers.ofStyles] using none

end Delimiters

end DocComments
