import DocComments.Number.Layout
import DocComments.Yaml.Style

/-!
# YAML scalars

The text of a string in each of the four styles, and the layout of numbers. Everything but a literal
block stands on one line.
-/

namespace DocComments.Yaml

/-- A character between single quotes. -/
def singleEscape (c : Char) : Text := if c = '\x27' then ['\x27', '\x27'] else [c]

/-- The digits of an escape, in upper case. -/
def upperHex (width n : Nat) : Text := (Text.paddedDigits 16 width n).map Char.toUpper

/-- The letter that stands for a character behind a backslash. -/
def escapeLetters : List (Char × Char) :=
  [('\x00', '0'), ('\x07', 'a'), ('\x08', 'b'), ('\t', 't'), ('\n', 'n'), ('\x0b', 'v'),
    ('\x0c', 'f'), ('\r', 'r'), ('\x1b', 'e'), ('"', '"'), ('\\', '\\'), ('\x85', 'N'),
    ('\u2028', 'L'), ('\u2029', 'P')]

/-- A character between double quotes. -/
def doubleEscape (c : Char) : Text :=
  match escapeLetters.lookup c with
  | some letter => ['\\', letter]
  | none =>
    if isPrintable c then [c]
    else if c.toNat ≤ 0xFF then '\\' :: 'x' :: upperHex 2 c.toNat
    else if c.toNat ≤ 0xFFFF then '\\' :: 'u' :: upperHex 4 c.toNat
    else '\\' :: 'U' :: upperHex 8 c.toNat

/-- What follows the bar of a literal block: the indentation where the text itself starts with a
space or an empty line, then how the line breaks at the end are kept. -/
def literalHints (text : Text) : Text :=
  let indentation :=
    match text.head? with
    | some c => if c == ' ' || isBreak c then ['2'] else []
    | none => []
  let ending :=
    match text.reverse with
    | last :: rest =>
      if !isBreak last then ['-']
      else
        match rest with
        | [] => ['+']
        | previous :: _ => if isBreak previous then ['+'] else []
    | [] => ['-']
  indentation ++ ending

/-- The lines of a literal block, each that is not empty behind `margin`. -/
def literalLines (margin : Text) (lineStart : Bool) : Text → Text
  | [] => []
  | c :: rest =>
    if isBreak c then c :: literalLines margin true rest
    else (if lineStart then margin else []) ++ c :: literalLines margin false rest

/-- A literal block up to the start of the line after it. -/
def literalBlock (column : Nat) (text : Text) : Text :=
  let ended := text.getLast?.any isBreak
  '|' :: literalHints text ++ '\n' :: literalLines (List.replicate column ' ') true text ++
    (if ended then [] else ['\n'])

/-- A string on one line, in any style but the literal one. -/
def inlineString (style : Style) (text : Text) : Text :=
  match style with
  | .plain => text
  | .singleQuoted => '\x27' :: text.flatMap singleEscape ++ ['\x27']
  | .doubleQuoted | .literal => '"' :: text.flatMap doubleEscape ++ ['"']

/-- A string up to the start of the line after it, with the lines of a literal block in `column`. -/
def stringLine (column : Nat) (text : Text) : Text :=
  match styleOf text with
  | .literal => literalBlock column text
  | style => inlineString style text ++ ['\n']

/-- The name of a member, which stands on one line. -/
def keyText (name : String) : Text := inlineString (styleOf name.toList) name.toList

/-- Numbers are written plainly from `0.00001` up to sixteen digits before the point, and otherwise
with an exponent. -/
def numberLayout : NumberLayout where
  plain exponent := -5 ≤ exponent && exponent ≤ 15
  exponentSign := []
  infinity := ".inf".toList
  negativeInfinity := "-.inf".toList
  undefined := ".nan".toList

end DocComments.Yaml
