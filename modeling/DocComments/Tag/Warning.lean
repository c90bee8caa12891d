/-!
# Warnings

What can be wrong with the tags of a comment. None of it stops the reading: the tag at fault is left
out, and the rest of the comment counts.
-/

namespace DocComments

/-- A fault in the tags of a comment. Names are those that aliases stand for. -/
inductive Warning where
  /-- No rule says how to read the tag. -/
  | unknown (name : String)
  /-- The tag is not allowed on comments of this kind. -/
  | notAllowed (name kind : String)
  /-- A tag that may not repeat has a value already. -/
  | duplicate (name : String)
  /-- There is a poster comment already. -/
  | multiplePosters
deriving DecidableEq, Repr

namespace Warning

/-- The message for the author of the comment. -/
def message : Warning → String
  | .unknown name => "Parser for annotation '" ++ name ++ "' not found."
  | .notAllowed name kind =>
    "Annotation '" ++ name ++ "' is not allowed on comment from type '" ++ kind ++ "'."
  | .duplicate name =>
    "Annotation '" ++ name ++ "' is only allowed once per comment, second value will be ignored."
  | .multiplePosters => "You can't have more than one poster comment."

/-- The code under which the fault is documented. -/
def code : Warning → String
  | .unknown _ => "parser::unknown_annotation"
  | .notAllowed _ _ => "parser::annotation_not_allowed"
  | .duplicate _ => "parser::duplicate_annotation"
  | .multiplePosters => "parser::multiple_posters"

/-- What to do about the fault, where there is something to say. -/
def help? : Warning → Option String
  | .unknown _ => some "Register the annotation, or an alias for it, before parsing."
  | .multiplePosters => some "Only the first poster comment of a file is used."
  | .notAllowed _ _ | .duplicate _ => none

end Warning

end DocComments
