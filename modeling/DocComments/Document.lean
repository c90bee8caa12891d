import DocComments.Number.Basic

/-!
# Documents

A document is what gets written, whatever the format: scalars, sequences, and mappings whose
members keep their order and may repeat a name.
-/

namespace DocComments

/-- A tree of plain data. -/
inductive Document where
  | null
  | boolean (value : Bool)
  | integer (value : Nat)
  | number (value : Number)
  | string (value : String)
  | sequence (items : List Document)
  | mapping (members : List (String × Document))
deriving Repr, Inhabited

end DocComments
