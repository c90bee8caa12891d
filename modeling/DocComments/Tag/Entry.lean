import DocComments.Comment.Basic
import DocComments.Table

/-!
# Entries

An entry is a comment whose tags have been read: a description made of the lines that are no tag
lines, and a field for every tag that has a value.
-/

namespace DocComments

/-- A comment with its tags read. -/
structure Entry where
  /-- The lines that are no tag lines, each with a line break behind it. -/
  description : String := ""
  context : Context
  range : LineRange
  /-- The values of the tags, in the order in which the tags first got one. -/
  fields : Table FieldValue := {}

namespace Entry

/-- The entry of a comment of which no line has been read yet. -/
def ofComment (comment : Comment) : Entry := { context := comment.context, range := comment.range }

/-- The field of a tag. -/
def field? (entry : Entry) (name : String) : Option FieldValue := entry.fields.get? name

/-- Whether a tag has a value. -/
def contains (entry : Entry) (name : String) : Bool := entry.fields.contains name

/-- The values of a tag that may repeat. There are none if it is absent or no list. -/
def values (entry : Entry) (name : String) : List Value :=
  ((entry.field? name).bind FieldValue.list?).getD []

/-- The entry with a field set. -/
def setField (entry : Entry) (name : String) (value : FieldValue) : Entry :=
  { entry with fields := entry.fields.insert name value }

/-- The entry with one more line of description. -/
def addLine (entry : Entry) (line : String) : Entry :=
  { entry with description := entry.description ++ line ++ "\n" }

/-- The entry as plain data: description, context, range, then the fields. -/
def toDocument (entry : Entry) : Document :=
  .mapping
    ([("description", .string entry.description), ("context", entry.context.toDocument),
        ("commentRange", entry.range.toDocument)] ++
      entry.fields.entries.map fun (name, value) => (name, value.toDocument))

end Entry

end DocComments
