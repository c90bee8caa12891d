import DocComments.Text.DefaultIgnorable
import DocComments.Text.Digits
import DocComments.Text.GraphemeExtend
import DocComments.Text.Unprintable

/-!
# Quoted text

Texts and characters that are shown to a person stand between quotes. The quote itself, the
backslash and every character that could not be seen on its own are escaped, so that the shown
form stays on one line and hides nothing.
-/

namespace DocComments.Text

/-- Whether a character is one of the halfwidth marks of voiced sounds. They belong to the letter
before them, but they are letters themselves and stand beside it. -/
def isHalfwidthSoundMark (c : Char) : Bool := c == '\uff9e' || c == '\uff9f'

/-- Whether a character cannot be seen on its own: it shows nothing, or it is drawn onto the
character before it. -/
def isUnseen (c : Char) : Bool :=
  isUnprintable c || isDefaultIgnorable c || (isGraphemeExtend c && !isHalfwidthSoundMark c)

/-- A character between the given quotes. -/
def quotedChar (mark c : Char) : Text :=
  if c = mark || c = '\\' then ['\\', c]
  else if c = '\n' then ['\\', 'n']
  else if c = '\r' then ['\\', 'r']
  else if c = '\t' then ['\\', 't']
  else if c = '\x00' then ['\\', '0']
  else if isUnseen c then
    "\\u\x7b".toList ++ Nat.toDigits 16 c.toNat ++ "\x7d".toList
  else [c]

/-- A text between two of the given quotes. -/
def quotedWith (mark : Char) (text : Text) : Text :=
  mark :: text.flatMap (quotedChar mark) ++ [mark]

/-- A text between double quotes. -/
def quoted (text : Text) : Text := quotedWith '"' text

/-- A character between single quotes. -/
def quotedSingle (c : Char) : Text := quotedWith '\x27' [c]

end DocComments.Text
