import DocComments.Text.Basic

/-!
# Tag lines

A line of a comment is a tag line if it starts with `@` and a name. Everything behind the name,
without the spaces and tabs around it, is the content.
-/

namespace DocComments

/-- The parts of a tag line. -/
structure TagLine where
  name : String
  content : String
deriving DecidableEq, Repr

namespace TagLine

/-- The characters that names are made of. -/
def isNameChar (c : Char) : Bool := c.isAlphanum || c == '_'

/-- A text without the spaces and tabs at its two ends. -/
def trimBlanks (text : Text) : Text :=
  (Text.dropBlanks text.dropBlanks.reverse).reverse

/-- The name and the content of a tag line. -/
def split? : Text → Option (Text × Text)
  | '@' :: rest =>
    let name := rest.takeWhile isNameChar
    if name.isEmpty then none else some (name, trimBlanks (rest.dropWhile isNameChar))
  | _ => none

/-- Reads a line of a comment. A line that is no tag line belongs to the description. -/
def read? (line : String) : Option TagLine :=
  (split? line.toList).map fun (name, content) => ⟨String.ofList name, String.ofList content⟩

end TagLine

end DocComments
