import DocComments.Tag.Registry

/-!
# Choosing autofills

A rule may have an autofill, which computes the field of its tag whatever the comment itself says.
Whether it is computed is chosen for all tags at once or tag by tag.
-/

namespace DocComments

/-- Which tags have their autofill computed. -/
inductive Autofill where
  /-- All of them, or none. -/
  | all (enabled : Bool)
  /-- The tags with these names or aliases. -/
  | only (names : List String)
deriving DecidableEq, Repr

instance : Inhabited Autofill := ⟨.all true⟩

namespace Autofill

/-- The choice with every alias replaced by the name it stands for. -/
def canonical (registry : Registry) : Autofill → Autofill
  | .all enabled => .all enabled
  | .only names => .only (names.map registry.canonicalName)

/-- Whether the tag with this name has its autofill computed. -/
def enables (choice : Autofill) (name : String) : Bool :=
  match choice with
  | .all enabled => enabled
  | .only names => names.contains name

end Autofill

end DocComments
