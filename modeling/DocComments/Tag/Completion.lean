import DocComments.Tag.Autofill
import DocComments.Tag.Event

/-!
# Inherited and computed fields

The entry of a normal comment is completed in two steps. It inherits the fields of the poster that it
does not have, and then the rules compute their fields in the order of registration: the fallback of
a tag that has no value yet, and the autofill of a tag for which it is enabled.
-/

namespace DocComments

/-- Whether a tag may stand on comments of a kind. A name without a rule is not restricted. -/
def Registry.allows (registry : Registry) (name kind : String) : Bool :=
  (registry.rule? name).all (·.allows kind)

namespace Entry

/-- Takes over one field of a poster, unless the entry has it or may not have it. -/
def inheritField (registry : Registry) (entry : Entry) (field : String × FieldValue) : Entry :=
  if registry.allows field.1 entry.context.kind && !entry.contains field.1 then
    entry.setField field.1 field.2
  else entry

/-- Takes over the fields of a poster in order. -/
def inherit (registry : Registry) (entry poster : Entry) : Entry :=
  poster.fields.entries.foldl (inheritField registry) entry

/-- Computes a field and sets it, unless the function declines. -/
def compute (entry : Entry) (name : String) (function : Entry → Option FieldValue) : Entry :=
  match function entry with
  | some value => entry.setField name value
  | none => entry

/-- Computes the fallback of a tag if it has no value. -/
def applyFallback (entry : Entry) (name : String) (rule : TagRule) : Entry × List Event :=
  match rule.fallback with
  | some function =>
    if entry.contains name then (entry, []) else (entry.compute name function, [.fallback name])
  | none => (entry, [])

/-- Computes the autofill of a tag if it is enabled. -/
def applyAutofill (choice : Autofill) (entry : Entry) (name : String) (rule : TagRule) :
    Entry × List Event :=
  match rule.autofill with
  | some function =>
    if choice.enables name then (entry.compute name function, [.autofill name]) else (entry, [])
  | none => (entry, [])

/-- Computes the fields of one tag. -/
def completeField (choice : Autofill) (entry : Entry) (name : String) (rule : TagRule) :
    Entry × List Event :=
  if rule.allows entry.context.kind then
    let (defaulted, before) := entry.applyFallback name rule
    let (filled, after) := defaulted.applyAutofill choice name rule
    (filled, before ++ after)
  else (entry, [])

/-- Computes the fields of tags in order. -/
def complete (choice : Autofill) (entry : Entry) : List (String × TagRule) → Entry × List Event
  | [] => (entry, [])
  | (name, rule) :: rules =>
    let (next, events) := entry.completeField choice name rule
    let (final, later) := complete choice next rules
    (final, events ++ later)

end Entry

end DocComments
