import DocComments.Json.Writer
import DocComments.Tag.Reader
import DocComments.Yaml.Writer

/-!
# Reports

A report is the outcome of reading the comments of a source: the entries of the normal comments,
grouped by what their comments speak for, and what happened on the way.
-/

namespace DocComments

/-- The entries of a kind, for every kind in the order in which the kinds first occur. -/
abbrev Groups := Table (List Entry)

/-- Adds an entry to the group of its kind. -/
def Groups.add (groups : Groups) (entry : Entry) : Groups :=
  groups.insert entry.context.kind ((groups.get? entry.context.kind).getD [] ++ [entry])

/-- Groups entries by their kind. -/
def Groups.ofEntries (entries : List Entry) : Groups := entries.foldl Groups.add {}

/-- The outcome of reading comments. -/
structure Report where
  groups : Groups
  events : List Event

namespace Report

/-- The warnings, in the order in which they were given. -/
def warnings (report : Report) : List Warning := report.events.filterMap Event.warning?

/-- The groups as plain data. -/
def toDocument (report : Report) : Document :=
  .mapping (report.groups.entries.map fun (kind, entries) =>
    (kind, .sequence (entries.map Entry.toDocument)))

/-- The groups as indented JSON. -/
def toJson (report : Report) : String := (Json.ofDocument report.toDocument).pretty

/-- The groups as YAML. -/
def toYaml (report : Report) : String := Yaml.write report.toDocument

end Report

/-- Reads the tags of the comments of one source. -/
def TagReader.read (reader : TagReader) (comments : List Comment) : Report :=
  let (entries, events) := reader.readFrom none comments
  { groups := Groups.ofEntries entries, events }

end DocComments
