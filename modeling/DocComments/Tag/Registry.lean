import DocComments.Tag.Rule

/-!
# Registries

A registry holds the rules of the known tags, in the order in which the tags were registered, and
the aliases that stand for them. An alias is followed once: what it stands for is a name, even if
that name is itself an alias.
-/

namespace DocComments

/-- The known tags and their aliases. -/
structure Registry where
  rules : Table TagRule := {}
  aliases : Table String := {}

namespace Registry

/-- Registers a tag. A tag that is known already keeps its place. -/
def insert (registry : Registry) (name : String) (rule : TagRule) : Registry :=
  { registry with rules := registry.rules.insert name rule }

/-- Registers an alias. An alias that is known already is replaced. -/
def insertAlias (registry : Registry) (short canonical : String) : Registry :=
  { registry with aliases := registry.aliases.insert short canonical }

/-- The name that a name stands for: itself, unless it is an alias. -/
def canonicalName (registry : Registry) (name : String) : String :=
  (registry.aliases.get? name).getD name

/-- The rule of the tag with this name, which is not taken for an alias. -/
def rule? (registry : Registry) (name : String) : Option TagRule := registry.rules.get? name

/-- The rule of the tag with this name or alias. -/
def get? (registry : Registry) (name : String) : Option TagRule :=
  registry.rule? (registry.canonicalName name)

/-- The number of tags. -/
def size (registry : Registry) : Nat := registry.rules.size

/-- Whether no tag is known. -/
def isEmpty (registry : Registry) : Bool := registry.size = 0

/-- The names of the tags in the order of registration. -/
def names (registry : Registry) : List String := registry.rules.keys

end Registry

end DocComments
