import DocComments.Number.Basic
import DocComments.Text.Basic

/-!
# Decimal numerals

A `Decimal` is what a numeral such as `-1.25e3` says: a sign, the digits as one natural, and the
power of ten they are multiplied by. `Decimal.nearest` is the double it stands for.
-/

namespace DocComments

/-- The value of a decimal numeral, `digits * 10 ^ exponent` with a sign. -/
structure Decimal where
  negative : Bool
  digits : Nat
  exponent : Int
deriving DecidableEq, Repr

namespace Decimal

/-- The natural that a row of decimal digits stands for. -/
def natOfDigits (digits : Text) : Nat :=
  digits.foldl (fun value c => 10 * value + (c.toNat - '0'.toNat)) 0

/-- Takes an optional sign off a numeral; whether it is a minus comes first. -/
def takeSign : Text → Bool × Text
  | '-' :: rest => (true, rest)
  | '+' :: rest => (false, rest)
  | text => (false, text)

/-- The exponent at the end of a numeral: nothing, or `e` and digits with an optional sign. -/
def readExponent? : Text → Option Int
  | [] => some 0
  | c :: rest =>
    if c = 'e' ∨ c = 'E' then
      let (negative, digits) := takeSign rest
      if digits ≠ [] ∧ digits.all Char.isDigit then
        some (if negative then -(natOfDigits digits : Int) else natOfDigits digits)
      else none
    else none

/-- Reads a numeral: an optional sign, digits with an optional point among, before or after them,
and an optional exponent. -/
def read? (text : Text) : Option Decimal :=
  let (negative, unsigned) := takeSign text
  let whole := unsigned.takeWhile Char.isDigit
  let (part, tail) :=
    match unsigned.dropWhile Char.isDigit with
    | '.' :: rest => (rest.takeWhile Char.isDigit, rest.dropWhile Char.isDigit)
    | rest => ([], rest)
  if whole = [] ∧ part = [] then none
  else
    (readExponent? tail).map fun exponent =>
      { negative
        digits := natOfDigits (whole ++ part)
        exponent := exponent - part.length }

/-- Beyond this power of ten no double is finite, and below its inverse none differs from zero. -/
def exponentLimit : Int := 400

/-- The double nearest to a decimal. The power of ten is only formed where it matters. -/
def nearest (decimal : Decimal) : Number :=
  let leading : Int := decimal.exponent + decimal.digits.log2 / 3
  if decimal.digits = 0 ∨ leading < -exponentLimit - 1 then .ofRatio decimal.negative 0 1
  else if exponentLimit < decimal.exponent then .ofRatio decimal.negative (Number.twoPow 1024) 1
  else
    .ofRatio decimal.negative (decimal.digits * Number.tenPow decimal.exponent.toNat)
      (Number.tenPow (-decimal.exponent).toNat)

end Decimal

end DocComments
