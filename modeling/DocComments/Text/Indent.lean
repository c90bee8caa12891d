import DocComments.Text.Lines
import DocComments.Text.WhiteSpace

/-!
# Indentation

`dedent` removes the indentation that the lines of a text have in common. Only lines that show
something take part in finding it. A line with less indentation than that shows nothing, and
stays as it is.
-/

namespace DocComments.Text

/-- The number of spaces and tabs a line opens with, one column each. -/
def indentWidth (line : Text) : Nat := line.takeBlanks.length

/-- The least indentation among the lines that show something, zero if none does. -/
def commonIndent (parts : List Text) : Nat :=
  ((parts.filter (!isEmptyLine ·)).map indentWidth).min?.getD 0

/-- A line without its first `width` columns, or the line itself if it is indented by less. -/
def outdent (width : Nat) (line : Text) : Text :=
  if width ≤ indentWidth line then line.drop width else line

/-- The lines without the indentation they have in common. -/
def dedentLines (parts : List Text) : List Text := parts.map (outdent (commonIndent parts))

/-- A text without the indentation its lines have in common. -/
def dedent (text : Text) : Text := joinLines (dedentLines (lines text))

@[simp] theorem length_dedentLines (parts : List Text) :
    (dedentLines parts).length = parts.length := by
  simp [dedentLines]

@[simp] theorem outdent_zero (line : Text) : outdent 0 line = line := by
  simp [outdent]

end DocComments.Text

namespace DocComments

/-- Removes the leading indentation shared by all lines of `text` that show something. -/
def dedent (text : String) : String := String.ofList (Text.dedent text.toList)

end DocComments
