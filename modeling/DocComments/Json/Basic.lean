import DocComments.Document
import DocComments.Number.Layout

/-!
# JSON

The tree of a JSON text. Objects keep the order and the repetition of their members, and a number is
the token that stands in the text, so that two texts with different trees say different things.
-/

namespace DocComments

/-- A JSON value as it is written. -/
inductive Json where
  | null
  | boolean (value : Bool)
  | number (token : String)
  | string (value : String)
  | array (items : List Json)
  | object (members : List (String × Json))
deriving Repr, Inhabited

namespace Json

/-- Numbers are written plainly from `0.00001` up to sixteen digits before the point, and otherwise
with an exponent that shows its sign. The numbers without digits have no text in JSON. -/
def numberLayout : NumberLayout where
  plain exponent := -5 ≤ exponent && exponent ≤ 15
  exponentSign := ['+']
  infinity := "null".toList
  negativeInfinity := "null".toList
  undefined := "null".toList

/-- The JSON value of a number: its token, or null if it has no digits. -/
def ofNumber (number : Number) : Json :=
  match number.magnitude with
  | .finite _ _ => .number (String.ofList (numberLayout.render number))
  | _ => .null

mutual

/-- The JSON value of plain data. -/
def ofDocument : Document → Json
  | .null => .null
  | .boolean value => .boolean value
  | .integer value => .number (String.ofList (Nat.toDigits 10 value))
  | .number value => ofNumber value
  | .string value => .string value
  | .sequence items => .array (ofDocuments items)
  | .mapping members => .object (ofMembers members)

/-- The JSON values of items, one by one. -/
def ofDocuments : List Document → List Json
  | [] => []
  | item :: items => ofDocument item :: ofDocuments items

/-- The JSON values of members, one by one. -/
def ofMembers : List (String × Document) → List (String × Json)
  | [] => []
  | (name, value) :: members => (name, ofDocument value) :: ofMembers members

end

end Json

end DocComments
