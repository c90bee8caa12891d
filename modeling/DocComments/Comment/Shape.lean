import DocComments.Comment.Basic
import DocComments.Comment.Delimiters
import DocComments.Text.Indent

/-!
# What a comment says

A comment that has been located in a text is either a run of lines or a block. Its `Shape` holds the
text between the marks. From it follow the comment's role and its lines: `Shape.role` and
`Shape.lines`.
-/

namespace DocComments

/-- A located comment without its marks. -/
inductive Shape where
  /-- A run of marked lines: what follows the marker on each of them. -/
  | run (texts : List Text)
  /-- A block: its body, and how often the marker character stands between the body and the closing
  delimiter. -/
  | block (body : Text) (extra : Nat)
deriving DecidableEq, Repr

namespace Shape

/-! ### Runs -/

/-- Whether a text shows nothing but marker characters, and at least one. -/
def isMarkerLine (lineChar : Char) (text : Text) : Bool :=
  let shown := text.trim
  !shown.isEmpty && shown.all (· == lineChar)

/-- Whether a run is a poster: its first line repeats the marker character. -/
def opensPoster (lineChar : Char) (texts : List Text) : Bool :=
  texts.head?.bind List.head? = some lineChar

/-- The lines of a poster that say something: not the first one, and not a last one that shows only
marker characters. -/
def posterTexts (lineChar : Char) (texts : List Text) : List Text :=
  let remaining := texts.drop 1
  if remaining.getLast?.any (isMarkerLine lineChar) then remaining.dropLast else remaining

/-- The texts of a run that say something. -/
def runTexts (lineChar : Char) (texts : List Text) : List Text :=
  if opensPoster lineChar texts then posterTexts lineChar texts else texts

/-! ### Blocks -/

/-- The characters that end a line inside a block. -/
def isLineBreak (c : Char) : Bool := c == '\n' || c == '\r'

/-- A text up to its last line break, or all of it if it has none. -/
def untilLastBreak (text : Text) : Text :=
  match text.reverse.dropWhile (!isLineBreak ·) with
  | [] => text
  | _ :: before => before.reverse

/-- The text between the line of the opening and the line of the closing delimiter. A body on one
line is kept whole. -/
def interior (body : Text) : Text :=
  match body.dropWhile (!isLineBreak ·) with
  | [] => body
  | fromBreak => untilLastBreak (fromBreak.dropWhile isLineBreak)

/-- A line inside a block, without the marker character it may open with. -/
def blockLine (blockChar : Char) (line : Text) : Text :=
  let line := line.dropReturn
  match line.dropBlanks with
  | c :: rest => if c = blockChar then rest else line
  | [] => line

/-- The lines of a block that say something. -/
def blockTexts (blockChar : Char) (body : Text) : List Text :=
  (interior body).lines.map (blockLine blockChar)

/-! ### Reading a shape -/

/-- The lines of a comment. There is always at least one. -/
def lines (markers : Markers) : Shape → List Text
  | .run texts =>
    match runTexts markers.lineChar texts with
    | [] => [[]]
    | shown => Text.dedentLines shown
  | .block body _ => Text.dedentLines (blockTexts markers.blockChar body)

/-- The number of marker characters that the closing delimiter itself starts with. -/
def closerCount (markers : Markers) : Nat :=
  (markers.blockClose.takeWhile (· == markers.blockChar)).length

/-- The role of a comment. -/
def role (markers : Markers) : Shape → Role
  | .run texts => if opensPoster markers.lineChar texts then .poster else .normal
  | .block _ extra => if 1 < closerCount markers + extra then .poster else .normal

end Shape

end DocComments
