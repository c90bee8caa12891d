import DocComments.Text.Basic

/-!
# Character properties as ranges

A property of characters is a table of ranges of code points, in ascending order.
-/

namespace DocComments.Text

/-- Whether a character lies in one of the ranges, whose two ends belong to them. -/
def inRanges (ranges : List (Nat × Nat)) (c : Char) : Bool :=
  ranges.any fun (first, last) => first ≤ c.toNat && c.toNat ≤ last

/-- How many code points the ranges hold together, if no two of them overlap. -/
def rangesSize (ranges : List (Nat × Nat)) : Nat :=
  ranges.foldr (fun (first, last) size => last + 1 - first + size) 0

theorem inRanges_eq_true_iff {ranges : List (Nat × Nat)} {c : Char} :
    inRanges ranges c = true ↔ ∃ range ∈ ranges, range.1 ≤ c.toNat ∧ c.toNat ≤ range.2 := by
  simp [inRanges]

end DocComments.Text
