import DocComments.Document
import DocComments.Yaml.Scalar

/-!
# Writing YAML

A document is written in block style. Members of a mapping inside a mapping stand two columns
further in, the dashes of a sequence inside a mapping stand in the column of its name, and what is
inside a sequence starts on the line of the dash. Empty sequences and mappings are written with
brackets.
-/

namespace DocComments.Yaml

/-- The spaces in front of `column`. -/
def margin (column : Nat) : Text := List.replicate column ' '

/-- A scalar or an empty collection up to the start of the line after it, with the lines of a
literal block in `column`. -/
def scalarLine (column : Nat) : Document → Text
  | .null => "null\n".toList
  | .boolean true => "true\n".toList
  | .boolean false => "false\n".toList
  | .integer value => Nat.toDigits 10 value ++ ['\n']
  | .number value => numberLayout.render value ++ ['\n']
  | .string value => stringLine column value.toList
  | .sequence _ => "[]\n".toList
  | .mapping _ => "\x7b\x7d\n".toList

mutual

/-- The value of a member, behind its colon, in a mapping that stands in `column`. -/
def writeValue (column : Nat) : Document → Text
  | .sequence (item :: items) => '\n' :: writeItems column (item :: items)
  | .mapping (member :: members) => '\n' :: writeMembers (column + 2) (member :: members)
  | scalar => ' ' :: scalarLine (column + 2) scalar

/-- The item of a sequence that stands in `column`, behind its dash. -/
def writeItem (column : Nat) : Document → Text
  | .sequence (item :: items) =>
    '-' :: ' ' :: writeItem (column + 2) item ++ writeItems (column + 2) items
  | .mapping ((name, value) :: members) =>
    keyText name ++ ':' :: writeValue (column + 2) value ++ writeMembers (column + 2) members
  | scalar => scalarLine (column + 2) scalar

/-- The lines of the items of a sequence that stands in `column`. -/
def writeItems (column : Nat) : List Document → Text
  | [] => []
  | item :: items => margin column ++ '-' :: ' ' :: writeItem column item ++ writeItems column items

/-- The lines of the members of a mapping that stands in `column`. -/
def writeMembers (column : Nat) : List (String × Document) → Text
  | [] => []
  | (name, value) :: members =>
    margin column ++ keyText name ++ ':' :: writeValue column value ++ writeMembers column members

end

/-- The YAML text of a document. -/
def write : Document → String
  | .sequence (item :: items) => String.ofList (writeItems 0 (item :: items))
  | .mapping (member :: members) => String.ofList (writeMembers 0 (member :: members))
  | scalar => String.ofList (scalarLine 2 scalar)

end DocComments.Yaml
