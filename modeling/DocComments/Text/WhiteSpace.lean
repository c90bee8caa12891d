import DocComments.Text.Ranges

/-!
# White space

Whether a line counts as empty is decided by the Unicode property `White_Space`, which has
twenty-five code points. Indentation is narrower: see `Text.isBlank`.
-/

namespace DocComments.Text

/-- The ranges of code points with the property `White_Space`, in order, ends included. -/
def whiteSpaceRanges : List (Nat × Nat) :=
  [(0x09, 0x0D), (0x20, 0x20), (0x85, 0x85), (0xA0, 0xA0), (0x1680, 0x1680), (0x2000, 0x200A),
    (0x2028, 0x2029), (0x202F, 0x202F), (0x205F, 0x205F), (0x3000, 0x3000)]

/-- Whether a character is white space. -/
def isWhiteSpace (c : Char) : Bool := inRanges whiteSpaceRanges c

/-- Whether a line shows nothing: it is empty or all white space. -/
def isEmptyLine (line : Text) : Bool := line.all isWhiteSpace

/-- A text without the white space at its two ends. -/
def trim (text : Text) : Text :=
  ((text.dropWhile isWhiteSpace).reverse.dropWhile isWhiteSpace).reverse

theorem isWhiteSpace_of_isBlank {c : Char} (blank : isBlank c = true) : isWhiteSpace c = true := by
  simp only [isBlank, Bool.or_eq_true, beq_iff_eq] at blank
  rcases blank with rfl | rfl <;> decide

/-- The table has the twenty-five code points of the property. -/
example : rangesSize whiteSpaceRanges = 25 := by decide

end DocComments.Text
