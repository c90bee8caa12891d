import DocComments.Json.Token

/-!
# Reading JSON

The tokens of a text are read one after the other. What has been read of the arrays and objects that
are still open is kept on a stack, and a `Json.Expected` says what may come next. A text is JSON if
its tokens lead to one finished value.
-/

namespace DocComments.Json

/-- An array or object that is still open while one of its values is read. -/
inductive Open where
  /-- The items before the one being read. -/
  | array (items : List Json)
  /-- The members before the one being read, and its name. -/
  | object (members : List (String × Json)) (name : String)
deriving Repr

/-- What the tokens read so far ask for. -/
inductive Expected where
  /-- A value. -/
  | value
  /-- The first item of an array, or its end. -/
  | firstItem
  /-- The name of the first member of an object, or its end. -/
  | firstName
  /-- The name of another member. -/
  | name (members : List (String × Json))
  /-- The colon behind a name. -/
  | colon (members : List (String × Json)) (name : String)
  /-- What may follow a finished value. -/
  | after (value : Json)
deriving Repr

/-- How far a text has been read. -/
structure Progress where
  opened : List Open
  expected : Expected
deriving Repr

/-- A token at a place where a value is asked for. -/
def startValue (opened : List Open) : Token → Option Progress
  | .null => some ⟨opened, .after .null⟩
  | .boolean value => some ⟨opened, .after (.boolean value)⟩
  | .number token => some ⟨opened, .after (.number token)⟩
  | .string value => some ⟨opened, .after (.string value)⟩
  | .openBracket => some ⟨opened, .firstItem⟩
  | .openBrace => some ⟨opened, .firstName⟩
  | _ => none

/-- A token behind a finished value. -/
def continueAfter (value : Json) : List Open → Token → Option Progress
  | .array items :: opened, .comma => some ⟨.array (items ++ [value]) :: opened, .value⟩
  | .array items :: opened, .closeBracket => some ⟨opened, .after (.array (items ++ [value]))⟩
  | .object members name :: opened, .comma => some ⟨opened, .name (members ++ [(name, value)])⟩
  | .object members name :: opened, .closeBrace =>
    some ⟨opened, .after (.object (members ++ [(name, value)]))⟩
  | _, _ => none

/-- Reads one token. -/
def readToken (progress : Progress) (token : Token) : Option Progress :=
  match progress.expected, token with
  | .value, token => startValue progress.opened token
  | .firstItem, .closeBracket => some ⟨progress.opened, .after (.array [])⟩
  | .firstItem, token => startValue (.array [] :: progress.opened) token
  | .firstName, .closeBrace => some ⟨progress.opened, .after (.object [])⟩
  | .firstName, .string name => some ⟨progress.opened, .colon [] name⟩
  | .name members, .string name => some ⟨progress.opened, .colon members name⟩
  | .colon members name, .colon => some ⟨.object members name :: progress.opened, .value⟩
  | .after value, token => continueAfter value progress.opened token
  | _, _ => none

/-- The value that has been read, if nothing is missing. -/
def finished? : Progress → Option Json
  | ⟨[], .after value⟩ => some value
  | _ => none

/-- Reads a JSON text. -/
def parse? (text : String) : Option Json := do
  let tokens ← tokens? text.toList
  let progress ← tokens.foldlM readToken ⟨[], .value⟩
  finished? progress

end DocComments.Json
