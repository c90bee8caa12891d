import DocComments.Number.Shortest
import DocComments.Text.Basic

/-!
# Number text

A `NumberLayout` fixes how the shortest digits of a number are laid out: which powers of ten are
written plainly and which with an exponent, how the exponent's sign is written, and what stands for
the numbers that have no digits.
-/

namespace DocComments

/-- The decisions of a format on how to write numbers. -/
structure NumberLayout where
  /-- Whether a number whose first digit stands for this power of ten is written plainly. -/
  plain : Int → Bool
  /-- What is written before an exponent that is not negative. -/
  exponentSign : Text
  /-- The text of positive infinity. -/
  infinity : Text
  /-- The text of negative infinity. -/
  negativeInfinity : Text
  /-- The text of what is not a number. -/
  undefined : Text

namespace NumberLayout

/-- Digits whose first stands for `10 ^ exponent`, written out with a point. A whole number gets a
zero after its point. -/
def plainText (digits : Text) (exponent : Int) : Text :=
  if exponent < 0 then "0.".toList ++ List.replicate (-exponent - 1).toNat '0' ++ digits
  else if digits.length ≤ exponent.toNat + 1 then
    digits ++ List.replicate (exponent.toNat + 1 - digits.length) '0' ++ ".0".toList
  else digits.take (exponent.toNat + 1) ++ '.' :: digits.drop (exponent.toNat + 1)

/-- Digits with the point after the first one, if there are more, and an exponent. -/
def scientificText (sign digits : Text) (exponent : Int) : Text :=
  let significand :=
    match digits with
    | first :: next :: rest => first :: '.' :: next :: rest
    | single => single
  let power :=
    if exponent < 0 then '-' :: Nat.toDigits 10 (-exponent).toNat
    else sign ++ Nat.toDigits 10 exponent.toNat
  significand ++ 'e' :: power

/-- The text of a finite size. -/
def finiteText (layout : NumberLayout) (significand : Nat) (exponent : Int) : Text :=
  if significand = 0 then "0.0".toList
  else
    let short := Number.shortest significand exponent
    let digits := Nat.toDigits 10 short.digits
    let leading := short.place + digits.length - 1
    if layout.plain leading then plainText digits leading
    else scientificText layout.exponentSign digits leading

/-- The text of a number. -/
def render (layout : NumberLayout) (number : Number) : Text :=
  match number.magnitude with
  | .undefined => layout.undefined
  | .infinite => if number.isNegative then layout.negativeInfinity else layout.infinity
  | .finite significand exponent =>
    let size := layout.finiteText significand exponent
    if number.isNegative then '-' :: size else size

end NumberLayout

end DocComments
