import DocComments.Tag.Warning

/-!
# Events

Everything that happens while tags are read is kept as a list of events: each call of a function of
a rule, and each warning. The warnings of a run are the ones among its events.
-/

namespace DocComments

/-- Something that happens while tags are read. -/
inductive Event where
  /-- The content of a tag is read. -/
  | parse (name content : String)
  /-- The fallback of a tag is computed. -/
  | fallback (name : String)
  /-- The autofill of a tag is computed. -/
  | autofill (name : String)
  /-- A warning is given. -/
  | warn (warning : Warning)
deriving DecidableEq, Repr

/-- The warning that an event gives. -/
def Event.warning? : Event → Option Warning
  | .warn warning => some warning
  | _ => none

end DocComments
