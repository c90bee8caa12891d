import DocComments.Json.Basic
import DocComments.Json.StringBody
import DocComments.Number.Decimal

/-!
# JSON tokens

A JSON text is a row of tokens with white space between them. `Json.tokens?` finds them, and refuses
a text with anything else in it: an unknown word, a misformed number, a string with a bare control
character or an escape that stands for no character.
-/

namespace DocComments.Json

/-- The smallest parts of a JSON text. -/
inductive Token where
  | openBracket
  | closeBracket
  | openBrace
  | closeBrace
  | comma
  | colon
  | null
  | boolean (value : Bool)
  | number (token : String)
  | string (value : String)
deriving DecidableEq, Repr

/-- The characters that may stand between tokens. -/
def isSpace (c : Char) : Bool := c == ' ' || c == '\t' || c == '\n' || c == '\r'

/-- The token that a single character is. -/
def punctuation? (c : Char) : Option Token :=
  match c with
  | '[' => some .openBracket
  | ']' => some .closeBracket
  | '\x7b' => some .openBrace
  | '\x7d' => some .closeBrace
  | ',' => some .comma
  | ':' => some .colon
  | _ => none

/-- The token that a word of letters is. -/
def word? (letters : Text) : Option Token :=
  if letters = "null".toList then some .null
  else if letters = "true".toList then some (.boolean true)
  else if letters = "false".toList then some (.boolean false)
  else none

/-- The characters that numbers are made of. -/
def isNumberPart (c : Char) : Bool :=
  c.isDigit || c == '-' || c == '+' || c == '.' || c == 'e' || c == 'E'

/-- Whether a text is a number: an optional minus, a whole part without a leading zero, an optional
fraction and an optional exponent. -/
def isNumber (text : Text) : Bool :=
  let size :=
    match text with
    | '-' :: rest => rest
    | _ => text
  let whole := size.takeWhile Char.isDigit
  let tail := size.dropWhile Char.isDigit
  let wholeFits := whole.length == 1 || (whole ≠ [] && whole.head? != some '0')
  let tailFits :=
    match tail with
    | '.' :: rest =>
      rest.takeWhile Char.isDigit ≠ [] &&
        (Decimal.readExponent? (rest.dropWhile Char.isDigit)).isSome
    | _ => (Decimal.readExponent? tail).isSome
  wholeFits && tailFits

theorem length_dropWhile_lt {p : Char → Bool} {c : Char} {rest : Text} (first : p c = true) :
    ((c :: rest).dropWhile p).length < (c :: rest).length := by
  rw [List.dropWhile_cons_of_pos first]
  exact Nat.lt_succ_of_le (List.dropWhile_sublist p).length_le

/-- The tokens of a text. -/
def tokens? (text : Text) : Option (List Token) :=
  match text with
  | [] => some []
  | c :: rest =>
    if isSpace c then tokens? rest
    else
      match punctuation? c with
      | some mark => (tokens? rest).map (mark :: ·)
      | none =>
        if c = '"' then
          match _ : stringBody? rest with
          | none => none
          | some (body, after) => (tokens? after).map (.string (String.ofList body) :: ·)
        else if _ : isNumberPart c then
          let token := (c :: rest).takeWhile isNumberPart
          if isNumber token then
            (tokens? ((c :: rest).dropWhile isNumberPart)).map
              (.number (String.ofList token) :: ·)
          else none
        else if _ : c.isAlpha then
          match word? ((c :: rest).takeWhile Char.isAlpha) with
          | none => none
          | some word => (tokens? ((c :: rest).dropWhile Char.isAlpha)).map (word :: ·)
        else none
termination_by text.length
decreasing_by
  · simp
  · simp
  · exact Nat.lt_succ_of_lt (length_lt_of_stringBody? ‹_›)
  · exact length_dropWhile_lt ‹_›
  · exact length_dropWhile_lt ‹_›

end DocComments.Json
