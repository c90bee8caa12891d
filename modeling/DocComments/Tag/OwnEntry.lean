import DocComments.Tag.Event
import DocComments.Tag.Line
import DocComments.Tag.Registry

/-!
# What a comment says by itself

The lines of a comment are taken in one after the other. What a line turns out to be does not depend
on the lines before it (`Registry.readLine`); only where its value goes does (`Entry.store?`).
-/

namespace DocComments

/-- What a line of a comment turns out to be. -/
inductive LineReading where
  /-- A line of the description. -/
  | text
  /-- A tag that no rule can read. -/
  | unknown (name : String)
  /-- A tag that is not allowed on the comment. -/
  | notAllowed (name : String)
  /-- A tag with the value its rule reads, if any. -/
  | value (name content : String) (repeatable : Bool) (read : Option Value)

/-- Reads a line. A poster may carry every tag, whatever it is allowed on. -/
def Registry.readLine (registry : Registry) (role : Role) (kind line : String) : LineReading :=
  match TagLine.read? line with
  | none => .text
  | some tag =>
    let name := registry.canonicalName tag.name
    match registry.rule? name with
    | none => .unknown name
    | some rule =>
      match rule.parse with
      | none => .unknown name
      | some parse =>
        if role = .normal && !rule.allows kind then .notAllowed name
        else .value name tag.content rule.repeatable (parse tag.content)

namespace Entry

/-- Stores a value of a tag. A boolean makes the tag a flag. Any other value of a tag that may repeat
is added to its list, or starts one; a tag that may not repeat keeps the field it has, and `none` is
the result. -/
def store? (entry : Entry) (name : String) (repeatable : Bool) (value : Value) : Option Entry :=
  match value with
  | .boolean truth => some (entry.setField name (.flag truth))
  | value =>
    if repeatable then
      match entry.field? name with
      | some (.list values) => some (entry.setField name (.list (values ++ [value])))
      | _ => some (entry.setField name (.list [value]))
    else if entry.contains name then none
    else some (entry.setField name (.scalar value))

/-- Takes in a line that has been read. -/
def applyLine (entry : Entry) (line : String) : LineReading → Entry × List Event
  | .text => (entry.addLine line, [])
  | .unknown name => (entry, [.warn (.unknown name)])
  | .notAllowed name => (entry, [.warn (.notAllowed name entry.context.kind)])
  | .value name content _ none => (entry, [.parse name content])
  | .value name content repeatable (some value) =>
    match entry.store? name repeatable value with
    | some entry => (entry, [.parse name content])
    | none => (entry, [.parse name content, .warn (.duplicate name)])

/-- Takes in the lines of a comment. -/
def readLines (registry : Registry) (role : Role) (entry : Entry) :
    List String → Entry × List Event
  | [] => (entry, [])
  | line :: lines =>
    let (next, events) :=
      entry.applyLine line (registry.readLine role entry.context.kind line)
    let (final, later) := readLines registry role next lines
    (final, events ++ later)

end Entry

/-- The entry that the lines of a comment make by themselves. -/
def Registry.ownEntry (registry : Registry) (comment : Comment) : Entry × List Event :=
  Entry.readLines registry comment.role (Entry.ofComment comment) comment.lines

end DocComments
