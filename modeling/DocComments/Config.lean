import DocComments.Comment.Delimiters
import DocComments.Dictionary
import DocComments.Json.Writer
import DocComments.Number.Decimal
import DocComments.Tag.Reader
import DocComments.Text.Quoted

/-!
# Configuration

The delimiters of an extractor and the autofills of a tag reader can be given as JSON values. An
object names the settings, an array gives them by position, and what is missing keeps its usual
value. `Config.delimiters` and `Config.autofill` read them; a value that does not fit is a
`ConfigError`.
-/

namespace DocComments

/-- What a part of a configuration should have been. -/
inductive Expectation where
  | string
  | extractorConfig
  | readerConfig
deriving DecidableEq, Repr

/-- Why a configuration cannot be read. -/
inductive ConfigError where
  /-- A value of another type stands where something is expected. -/
  | mismatch (found : Json) (expected : Expectation)
  /-- An array has more items than there are settings. -/
  | tooLong (length : Nat)
  /-- A choice of autofills is neither a truth value nor a list of names. -/
  | autofill

namespace ConfigError

/-- The integer that a number token stands for, if it is written as one and fits into 64 bits. A
negative zero is no integer. -/
def integer? (token : Text) : Option Text :=
  match token with
  | '-' :: digits =>
    ((Text.natOfDigits? 10 digits).filter fun n => 0 < n && n ≤ 0x8000000000000000).map fun _ => token
  | _ => ((Text.natOfDigits? 10 token).filter (· ≤ 0xFFFFFFFFFFFFFFFF)).map fun _ => token

/-- A text between back quotes. -/
def backQuoted (text : Text) : Text := '\x60' :: text ++ ['\x60']

/-- A number as it is named in a message: an integer by its digits, any other number as JSON writes
it. -/
def numberText (token : Text) : Text :=
  match integer? token with
  | some digits => "integer ".toList ++ backQuoted digits
  | none =>
    let number := ((Decimal.read? token).map Decimal.nearest).getD default
    "floating point ".toList ++ backQuoted (Json.numberLayout.render number)

/-- A value as it is named in a message. -/
def foundText : Json → Text
  | .null => "null".toList
  | .boolean true => "boolean ".toList ++ backQuoted "true".toList
  | .boolean false => "boolean ".toList ++ backQuoted "false".toList
  | .number token => numberText token.toList
  | .string value => "string ".toList ++ Text.quoted value.toList
  | .array _ => "sequence".toList
  | .object _ => "map".toList

/-- An expectation as it is named in a message. -/
def expectedText : Expectation → String
  | .string => "a string"
  | .extractorConfig => "struct ExtractorConfig"
  | .readerConfig => "struct ParserConfig"

/-- The message for the author of the configuration. -/
def message : ConfigError → String
  | .mismatch found expected =>
    "invalid type: " ++ String.ofList (foundText found) ++ ", expected " ++ expectedText expected
  | .tooLong length =>
    "invalid length " ++ String.ofList (Nat.toDigits 10 length) ++
      ", expected fewer elements in array"
  | .autofill => "data did not match any variant of untagged enum Autofill"

end ConfigError

namespace Config

/-- The setting with this name. Of settings with one name the last counts. -/
def setting? (members : List (String × Json)) (name : String) : Option Json :=
  members.reverse.lookup name

/-- Reads a string. -/
def string : Json → Except ConfigError String
  | .string value => .ok value
  | other => .error (.mismatch other .string)

/-- Reads a string that may be missing. -/
def stringOr (usual : String) : Option Json → Except ConfigError String
  | some value => string value
  | none => .ok usual

/-- Reads the two delimiters, the one for blocks first. -/
def delimiterPair (block line : Option Json) : Except ConfigError Delimiters := do
  let usual : Delimiters := {}
  return { block := ← stringOr usual.block block, line := ← stringOr usual.line line }

/-- Reads the delimiters of an extractor. -/
def delimiters : Json → Except ConfigError Delimiters
  | .object members =>
    delimiterPair (setting? members "blockCommentStyle") (setting? members "lineCommentStyle")
  | .array items => do
    let read ← delimiterPair items[0]? items[1]?
    if 2 < items.length then throw (.tooLong items.length)
    return read
  | other => .error (.mismatch other .extractorConfig)

/-- Reads names. -/
def names? (items : List Json) : Option (List String) :=
  items.mapM fun
    | .string name => some name
    | _ => none

/-- Reads a choice of autofills that may be missing. -/
def choice : Option Json → Except ConfigError Autofill
  | none => .ok default
  | some (.boolean enabled) => .ok (.all enabled)
  | some (.array items) =>
    match names? items with
    | some names => .ok (.only names)
    | none => .error .autofill
  | some _ => .error .autofill

/-- Reads the choice of autofills of a tag reader. -/
def autofill : Json → Except ConfigError Autofill
  | .object members => choice (setting? members "autofill")
  | .array items => do
    let read ← choice items[0]?
    if 1 < items.length then throw (.tooLong items.length)
    return read
  | other => .error (.mismatch other .readerConfig)

/-- The delimiters of an extractor as plain data. -/
def delimitersDocument (delimiters : Delimiters) : Document :=
  .mapping
    [("blockCommentStyle", .string delimiters.block), ("lineCommentStyle", .string delimiters.line)]

/-- The choice of autofills of a tag reader as plain data. -/
def autofillDocument : Autofill → Document
  | .all enabled => .mapping [("autofill", .boolean enabled)]
  | .only names => .mapping [("autofill", .sequence (names.map .string))]

end Config

end DocComments
