import DocComments.Dictionary
import DocComments.Document

/-!
# Values

What the reader of a tag makes of the text behind it is a `Value`. A comment keeps values under the
tag's name as a `FieldValue`: all of them for a tag that may repeat, one for a tag that may not, and
just the truth for a tag that acts as a flag.
-/

namespace DocComments

/-- The value of a tag. The members of an object stand in the order of their names. -/
inductive Value where
  | null
  | boolean (value : Bool)
  | number (value : Number)
  | string (value : String)
  | array (items : List Value)
  | object (members : List (String × Value))
deriving Repr, Inhabited

namespace Value

/-- The object with the given members. Of members with one name the last counts. -/
def ofMembers (members : List (String × Value)) : Value := .object (Dictionary.sortEntries members)

/-- The text of a string value. -/
def string? : Value → Option String
  | .string value => some value
  | _ => none

mutual

/-- The value as plain data. -/
def toDocument : Value → Document
  | .null => .null
  | .boolean value => .boolean value
  | .number value => .number value
  | .string value => .string value
  | .array items => .sequence (toDocuments items)
  | .object members => .mapping (toMembers members)

/-- Values as plain data, one by one. -/
def toDocuments : List Value → List Document
  | [] => []
  | item :: items => item.toDocument :: toDocuments items

/-- Named values as plain data, one by one. -/
def toMembers : List (String × Value) → List (String × Document)
  | [] => []
  | (name, value) :: members => (name, value.toDocument) :: toMembers members

end

theorem toDocuments_eq_map (items : List Value) : toDocuments items = items.map toDocument := by
  induction items with
  | nil => rfl
  | cons item items ih => rw [toDocuments, ih, List.map_cons]

theorem toMembers_eq_map (members : List (String × Value)) :
    toMembers members = members.map fun (name, value) => (name, value.toDocument) := by
  induction members with
  | nil => rfl
  | cons member members ih => rw [toMembers, ih, List.map_cons]

end Value

/-- What a comment keeps under the name of a tag. -/
inductive FieldValue where
  /-- The values of a tag that may repeat, in the order of their lines. -/
  | list (values : List Value)
  /-- The value of a tag that may not repeat. -/
  | scalar (value : Value)
  /-- The truth of a tag whose reader answers with a boolean. -/
  | flag (value : Bool)
deriving Repr, Inhabited

namespace FieldValue

/-- The values of a list. -/
def list? : FieldValue → Option (List Value)
  | .list values => some values
  | _ => none

/-- The value of a scalar. -/
def scalar? : FieldValue → Option Value
  | .scalar value => some value
  | _ => none

/-- The truth of a flag. -/
def flag? : FieldValue → Option Bool
  | .flag value => some value
  | _ => none

/-- The field as plain data, which does not say which of the three it was. -/
def toDocument : FieldValue → Document
  | .list values => .sequence (Value.toDocuments values)
  | .scalar value => value.toDocument
  | .flag value => .boolean value

end FieldValue

end DocComments
