import DocComments.Number.Decimal
import DocComments.Text.Digits

/-!
# What plain YAML text says

A string may only be written plainly if the plain text is read as a string again. `readsAsOther`
tells the texts that are read as null, a truth value or a number instead.
-/

namespace DocComments.Yaml

/-- The plain texts of null. -/
def nullWords : List String := ["~", "null", "Null", "NULL"]

/-- The plain texts of the truth values. -/
def booleanWords : List String := ["true", "True", "TRUE", "false", "False", "FALSE"]

/-- The plain texts of infinity, which may have a sign. -/
def infinityWords : List String := [".inf", ".Inf", ".INF"]

/-- The plain texts of what is not a number. -/
def undefinedWords : List String := [".nan", ".NaN", ".NAN"]

/-- The marks of the radices other than ten. -/
def radixMarks : List (String × Nat) := [("0x", 16), ("0o", 8), ("0b", 2)]

/-- Whether a text is an integer with a radix mark and digits, and at most `limit`. -/
def isMarkedInteger (limit : Nat) (text : Text) : Bool :=
  radixMarks.any fun (mark, radix) =>
    ((Text.after? mark.toList text).bind (Text.natOfDigits? radix)).any (· ≤ limit)

/-- The greatest integer of 128 bits without a sign. -/
def greatestUnsigned : Nat := 0xFFFFFFFFFFFFFFFFFFFFFFFFFFFFFFFF

/-- The size of the least integer of 128 bits with a sign. -/
def leastSignedSize : Nat := 0x80000000000000000000000000000000

/-- Whether a text is an integer with a radix mark that fits into 128 bits, signed if it has a
minus. -/
def isRadixInteger : Text → Bool
  | '-' :: size => isMarkedInteger leastSignedSize size
  | '+' :: size => isMarkedInteger greatestUnsigned size
  | size => isMarkedInteger greatestUnsigned size

/-- Whether a text is a decimal numeral for a finite number. -/
def isDecimal (text : Text) : Bool :=
  (Decimal.read? text).any fun decimal =>
    match decimal.nearest.magnitude with
    | .finite _ _ => true
    | _ => false

/-- Whether a text is a row of several digits that starts with a zero, with at most one sign. Readers
differ on what it says, so it is no plain string however long it is. -/
def isZeroLed (text : Text) : Bool :=
  match (Decimal.takeSign text).2 with
  | '0' :: digits => !digits.isEmpty && digits.all Char.isDigit
  | _ => false

/-- Whether a text is the word for an infinity, with at most one sign. -/
def isInfinity (text : Text) : Bool :=
  infinityWords.any fun word => (Decimal.takeSign text).2 == word.toList

/-- Whether a plain text would be read as something else than a string. -/
def readsAsOther (text : Text) : Bool :=
  text.isEmpty || (nullWords ++ booleanWords ++ undefinedWords).any (text == ·.toList) ||
    isInfinity text || isRadixInteger text || isZeroLed text || isDecimal text

end DocComments.Yaml
