import DocComments.Json.Basic

/-!
# Writing JSON

One writer serves the compact and the indented text: a `Json.Layout` says what stands between the
parts of arrays and objects, and the compact layout puts nothing there.
-/

namespace DocComments.Json

/-- The hexadecimal digits that escapes are written with. -/
def hexDigit (n : Nat) : Char := Nat.digitChar (n % 16)

/-- A character inside a string. Quotes, backslashes and control characters are escaped, the common
ones by a letter and the others by their number; all else stands for itself. -/
def escape (c : Char) : Text :=
  if c = '"' then ['\\', '"']
  else if c = '\\' then ['\\', '\\']
  else if c = '\x08' then ['\\', 'b']
  else if c = '\x0c' then ['\\', 'f']
  else if c = '\n' then ['\\', 'n']
  else if c = '\r' then ['\\', 'r']
  else if c = '\t' then ['\\', 't']
  else if c.toNat < 0x20 then ['\\', 'u', '0', '0', hexDigit (c.toNat / 16), hexDigit c.toNat]
  else [c]

/-- A string between quotes. -/
def quote (value : String) : Text := '"' :: value.toList.flatMap escape ++ ['"']

/-- What is written between the parts of an array or object. -/
structure Layout where
  /-- What stands in front of an item or closing bracket at this depth. -/
  newline : Nat → Text
  /-- What stands between the name of a member and its value. -/
  colon : Text

/-- Nothing but the tokens. -/
def Layout.compact : Layout := ⟨fun _ => [], [':']⟩

/-- Every item on a line of its own, two spaces further in for every level. -/
def Layout.pretty : Layout := ⟨fun depth => '\n' :: List.replicate (2 * depth) ' ', [':', ' ']⟩

mutual

/-- The text of a JSON value at some depth. -/
def write (layout : Layout) (depth : Nat) : Json → Text
  | .null => "null".toList
  | .boolean true => "true".toList
  | .boolean false => "false".toList
  | .number token => token.toList
  | .string value => quote value
  | .array [] => ['[', ']']
  | .array (item :: items) =>
    '[' :: layout.newline (depth + 1) ++ write layout (depth + 1) item ++
      writeItems layout (depth + 1) items ++ layout.newline depth ++ [']']
  | .object [] => ['\x7b', '\x7d']
  | .object ((name, value) :: members) =>
    '\x7b' :: layout.newline (depth + 1) ++ quote name ++ layout.colon ++
      write layout (depth + 1) value ++ writeMembers layout (depth + 1) members ++
      layout.newline depth ++ ['\x7d']

/-- The items of an array after the first, each behind a comma. -/
def writeItems (layout : Layout) (depth : Nat) : List Json → Text
  | [] => []
  | item :: items =>
    ',' :: layout.newline depth ++ write layout depth item ++ writeItems layout depth items

/-- The members of an object after the first, each behind a comma. -/
def writeMembers (layout : Layout) (depth : Nat) : List (String × Json) → Text
  | [] => []
  | (name, value) :: members =>
    ',' :: layout.newline depth ++ quote name ++ layout.colon ++ write layout depth value ++
      writeMembers layout depth members

end

/-- The text without spaces. -/
def compact (json : Json) : String := String.ofList (json.write .compact 0)

/-- The text with every item on a line of its own. -/
def pretty (json : Json) : String := String.ofList (json.write .pretty 0)

end DocComments.Json
