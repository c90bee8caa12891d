import DocComments.Tag.Entry
import DocComments.Text.Quoted

/-!
# Tag rules

A rule says how the content of a tag is read, what its field is when no line sets it, and on which
kinds of comments the tag is allowed.
-/

namespace DocComments

/-- What is known about a tag. -/
structure TagRule where
  /-- Reads the content of a tag line. A tag without a reader cannot be written in a comment, and a
  reader may decline. -/
  parse : Option (String → Option Value) := none
  /-- Computes the field when neither the comment nor a poster has set it. -/
  fallback : Option (Entry → Option FieldValue) := none
  /-- Computes the field in any case. -/
  autofill : Option (Entry → Option FieldValue) := none
  /-- The kinds of comments on which the tag is allowed, if it is restricted. -/
  kinds : Option (List String) := none
  /-- Whether a comment may have several values of the tag. -/
  repeatable : Bool := true

namespace TagRule

/-- Whether the tag is allowed on comments of this kind. -/
def allows (rule : TagRule) (kind : String) : Bool := rule.kinds.all (·.contains kind)

/-- The allowed kinds in the order of their names, each once. -/
def sortedKinds (kinds : List String) : List String :=
  (Dictionary.sortEntries (kinds.map (·, ()))).map Prod.fst

/-- The allowed kinds as they are shown to a person. -/
def kindsText : Option (List String) → String
  | none => "None"
  | some kinds =>
    let shown := (sortedKinds kinds).map fun kind => String.ofList (Text.quoted kind.toList)
    "Some(\x7b" ++ ", ".intercalate shown ++ "\x7d)"

/-- A truth value as it is shown to a person. -/
def truthText (truth : Bool) : String := if truth then "true" else "false"

/-- The rule as it is shown to a person, who cannot see into its functions. -/
def describe (rule : TagRule) : String :=
  "AnnotationSpec \x7b parse: " ++ truthText rule.parse.isSome ++
    ", default: " ++ truthText rule.fallback.isSome ++
    ", autofill: " ++ truthText rule.autofill.isSome ++
    ", allowed_on: " ++ kindsText rule.kinds ++
    ", multiple: " ++ truthText rule.repeatable ++ " \x7d"

end TagRule

end DocComments
