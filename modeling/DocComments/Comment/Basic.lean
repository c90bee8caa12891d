import DocComments.Value

/-!
# Comments

A documentation comment is a list of lines, with the marks of the comment and the common indentation
taken off, together with where it stood and what the code behind it is.
-/

namespace DocComments

/-- Whom a comment speaks for. -/
inductive Role where
  /-- The code that follows the comment. -/
  | normal
  /-- The whole file: the tags of a poster hold for the other comments too. -/
  | poster
deriving DecidableEq, Repr, Inhabited

/-- The first and the last line of a comment, counted from one. -/
structure LineRange where
  first : Nat := 0
  last : Nat := 0
deriving DecidableEq, Repr, Inhabited

/-- What the code behind a comment is. Comments are grouped by `kind`, and tags may be restricted to
some kinds; the extras are whatever else is known. -/
structure Context where
  kind : String := ""
  extras : Dictionary Value := {}

/-- The context with one more extra, in place of one with the same name. -/
def Context.insert (context : Context) (name : String) (value : Value) : Context :=
  { context with extras := context.extras.insert name value }

/-- The extra with the given name. -/
def Context.get? (context : Context) (name : String) : Option Value := context.extras.get? name

/-- The context as plain data: its kind under `type`, then the extras. -/
def Context.toDocument (context : Context) : Document :=
  .mapping (("type", .string context.kind) :: Value.toMembers context.extras.entries)

/-- The range as plain data. -/
def LineRange.toDocument (range : LineRange) : Document :=
  .mapping [("start", .integer range.first), ("end", .integer range.last)]

/-- A documentation comment. -/
structure Comment where
  lines : List String
  role : Role := .normal
  range : LineRange := {}
  context : Context

/-- Whether a comment speaks for the whole file. -/
def Comment.isPoster (comment : Comment) : Bool := comment.role = .poster

end DocComments
