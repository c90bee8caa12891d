import DocComments.Yaml.PlainText

/-!
# Styles of YAML strings

A string can be written in four styles. The wanted one follows from what the string says: a string
of several lines is a literal block, one that would read as something else than a string is quoted,
and all others are plain. The style has to give way where its text would not read back, until the
double-quoted style, which can write every character, is left.
-/

namespace DocComments.Yaml

/-- The ways to write a string. -/
inductive Style where
  | plain
  | singleQuoted
  | doubleQuoted
  | literal
deriving DecidableEq, Repr

/-- The characters that end a line. -/
def isBreak (c : Char) : Bool :=
  c == '\n' || c == '\r' || c == '\x85' || c == '\u2028' || c == '\u2029'

/-- The characters that are written as they are, line feed included. -/
def isPrintable (c : Char) : Bool :=
  let code := c.toNat
  code == 0x0A || (0x20 ≤ code && code ≤ 0x7E) ||
    (0xA0 ≤ code && code != 0xFEFF && code != 0xFFFE && code != 0xFFFF)

/-- Whether a place holds a blank, a line break, a null character or nothing. -/
def isBlankOrEnd : Option Char → Bool
  | none => true
  | some c => Text.isBlank c || isBreak c || c == '\x00'

/-- Whether a text has a character that only the double-quoted style can write. -/
def hasSpecial (text : Text) : Bool := text.any (!isPrintable ·)

/-- The characters that no plain text can start with. -/
def isIndicator (c : Char) : Bool :=
  ['#', ',', '[', ']', '\x7b', '\x7d', '&', '*', '!', '|', '>', '\x27', '"', '%', '@', '\x60'].contains c

/-- Whether a colon ends a word, or a hash follows a blank, in what comes after `previous`. -/
def hasInnerIndicator (previous : Char) : Text → Bool
  | [] => false
  | c :: rest =>
    (c == ':' && isBlankOrEnd rest.head?) || (c == '#' && isBlankOrEnd (some previous)) ||
      hasInnerIndicator c rest

/-- Whether a text cannot be written plainly. -/
def refusesPlain (text : Text) : Bool :=
  match text with
  | [] => true
  | first :: rest =>
    Text.opensWith "---".toList text || Text.opensWith "...".toList text || isIndicator first ||
      (['?', ':', '-'].contains first && isBlankOrEnd rest.head?) ||
      hasInnerIndicator first rest || first == ' ' || text.getLast? == some ' ' ||
      text.any isBreak || hasSpecial text

/-- Whether a space stands right before a line break. -/
def hasSpaceBeforeBreak : Text → Bool
  | c :: next :: rest => (c == ' ' && isBreak next) || hasSpaceBeforeBreak (next :: rest)
  | _ => false

/-- Whether a text cannot be written as a literal block. -/
def refusesLiteral (text : Text) : Bool :=
  hasSpecial text || text.getLast? == some ' ' || hasSpaceBeforeBreak text

/-- The style in which a text is written. -/
def styleOf (text : Text) : Style :=
  if text.contains '\n' then if refusesLiteral text then .doubleQuoted else .literal
  else if readsAsOther text || refusesPlain text then
    if hasSpecial text then .doubleQuoted else .singleQuoted
  else .plain

end DocComments.Yaml
