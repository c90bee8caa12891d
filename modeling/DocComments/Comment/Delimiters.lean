import DocComments.Text.Basic

/-!
# Comment delimiters

A language opens its block comments with one delimiter and its line comments with another. A
documentation comment repeats the last character of the delimiter once more, and a poster comment
repeats it again: with the delimiters `/*` and `//` these are `/**` and `///`, and `**/` and `////`.
The delimiter that closes a block is the opening one read backwards, with brackets turned around.
-/

namespace DocComments

/-- The delimiters that open comments. An empty one stands for the usual one. -/
structure Delimiters where
  block : String := "/*"
  line : String := "//"
deriving DecidableEq, Repr, Inhabited

/-- What marks documentation comments in a text. -/
structure Markers where
  /-- Opens a documentation block. -/
  blockOpen : Text
  /-- Closes a block. -/
  blockClose : Text
  /-- The character that is repeated before the closing delimiter of a poster, and that may open
  the lines inside a block. -/
  blockChar : Char
  /-- Opens every line of a documentation line run. -/
  lineDoc : Text
  /-- The character that is repeated in the first line of a poster. -/
  lineChar : Char
deriving DecidableEq, Repr

namespace Markers

/-- The closing counterpart of a bracket. All other characters are their own. -/
def counterpart (c : Char) : Char :=
  match c with
  | '(' => ')'
  | '[' => ']'
  | '\x7b' => '\x7d'
  | '<' => '>'
  | other => other

/-- The markers for two delimiters that are not empty. -/
def ofStyles (block line : Text) : Markers :=
  let blockChar := block.getLastD '*'
  let lineChar := line.getLastD '/'
  { blockOpen := block ++ [blockChar]
    blockClose := block.reverse.map counterpart
    blockChar
    lineDoc := line ++ [lineChar]
    lineChar }

end Markers

/-- A delimiter, or the usual one if it is empty. -/
def Delimiters.orUsual (style usual : String) : Text :=
  if style.isEmpty then usual.toList else style.toList

/-- The markers of documentation comments. -/
def Delimiters.markers (delimiters : Delimiters) : Markers :=
  let usual : Delimiters := {}
  .ofStyles (Delimiters.orUsual delimiters.block usual.block)
    (Delimiters.orUsual delimiters.line usual.line)

end DocComments
