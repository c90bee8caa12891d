import DocComments.Text.Basic

/-!
# Lines

A text is read line by line. Only `\n` ends a line, and a text ending in `\n` has an empty last
line, so every text has at least one line and joining its lines gives the text back.
-/

namespace DocComments.Text

/-- The lines of a text, without the `\n` between them. -/
def lines (text : Text) : List Text := text.splitOn '\n'

/-- Lines written one after the other with `\n` between them. -/
def joinLines (parts : List Text) : Text := ['\n'].intercalate parts

@[simp] theorem joinLines_lines (text : Text) : joinLines (lines text) = text :=
  List.intercalate_splitOn '\n'

theorem lines_joinLines {parts : List Text} (whole : ∀ part ∈ parts, '\n' ∉ part)
    (inhabited : parts ≠ []) : lines (joinLines parts) = parts :=
  List.splitOn_intercalate '\n' whole inhabited

theorem lines_ne_nil (text : Text) : lines text ≠ [] := List.splitOn_ne_nil '\n' text

/-- The first line of a text. -/
def firstLine (text : Text) : Text := text.takeWhile (· != '\n')

/-- What follows the first line, unless that line is also the last. -/
def nextLines? (text : Text) : Option Text :=
  match text.dropWhile (· != '\n') with
  | [] => none
  | _ :: rest => some rest

/-- The first line, its line break and the lines that follow make up the text. -/
theorem eq_of_nextLines? {text rest : Text} (next : nextLines? text = some rest) :
    text = firstLine text ++ '\n' :: rest := by
  induction text with
  | nil => simp [nextLines?] at next
  | cons c text ih =>
      by_cases isBreak : c = '\n'
      · subst isBreak
        simpa [nextLines?, firstLine, List.dropWhile_cons, List.takeWhile_cons] using next
      · have tail : nextLines? text = some rest := by
          simpa [nextLines?, List.dropWhile_cons, isBreak] using next
        simpa [firstLine, List.takeWhile_cons, isBreak] using ih tail

theorem length_lt_of_nextLines? {text rest : Text} (next : nextLines? text = some rest) :
    rest.length < text.length := by
  rw [eq_of_nextLines? next]
  simp only [List.length_append, List.length_cons]
  omega

/-- The number of line breaks in a text. -/
def breaks (text : Text) : Nat := text.count '\n'

end DocComments.Text
