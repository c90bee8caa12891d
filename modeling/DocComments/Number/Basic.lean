/-!
# Numbers

A value that a tag carries may be a number. It is a double: sign, eleven bits of exponent and
fifty-two bits of fraction, kept as the sixty-four bits that they are, so that no two numbers that
differ in a bit are taken for one. All arithmetic on them is exact arithmetic on naturals.
-/

namespace DocComments

/-- A double-precision number, given by its bits. -/
structure Number where
  bits : UInt64
deriving DecidableEq, Repr, Inhabited

namespace Number

/-- The size of a number, leaving its sign aside. -/
inductive Magnitude where
  /-- Not a number. -/
  | undefined
  /-- Greater than every finite number. -/
  | infinite
  /-- The finite size `significand * 2 ^ exponent`. -/
  | finite (significand : Nat) (exponent : Int)
deriving DecidableEq, Repr

/-- The exponent of the last place of the smallest numbers. -/
def leastExponent : Int := -1074

/-- The unit of the exponent bits, which is also the leading bit of a significand that has all its
fifty-three bits. -/
def leadingBit : Nat := 0x10000000000000

/-- The bit of the sign. -/
def signBit : Nat := 0x8000000000000000

/-- The exponent bits of infinity and of what is not a number. -/
def topExponent : Nat := 0x7FF

/-- A power of two. -/
def twoPow (n : Nat) : Nat := Nat.pow 2 n

/-- A power of ten. -/
def tenPow (n : Nat) : Nat := Nat.pow 10 n

/-- Whether the sign bit is set. -/
def isNegative (number : Number) : Bool := signBit ≤ number.bits.toNat

/-- The size of a number, read off its exponent and fraction bits. -/
def magnitude (number : Number) : Magnitude :=
  let exponent := number.bits.toNat / leadingBit % (topExponent + 1)
  let fraction := number.bits.toNat % leadingBit
  if exponent = topExponent then if fraction = 0 then .infinite else .undefined
  else if exponent = 0 then .finite fraction leastExponent
  else .finite (leadingBit + fraction) (leastExponent + exponent - 1)

/-- A quotient rounded to the nearest natural, a half to the even one. -/
def roundDiv (numerator denominator : Nat) : Nat :=
  let quotient := numerator / denominator
  let twice := 2 * (numerator % denominator)
  if denominator < twice ∨ (twice = denominator ∧ quotient % 2 = 1) then quotient + 1 else quotient

/-- The bits, sign left out, of the double nearest to a quotient. The last place `place` is chosen
so that the rounded significand has fifty-three bits, or fewer at the least exponent. A significand
that rounds up to the next power of two carries into the exponent by itself. -/
def magnitudeBits (numerator denominator : Nat) : Nat :=
  if numerator = 0 then 0
  else
    let log : Int := (numerator.log2 : Int) - denominator.log2
    let reached := denominator * twoPow log.toNat ≤ numerator * twoPow (-log).toNat
    let place := max ((if reached then log else log - 1) - 52) leastExponent
    let significand :=
      roundDiv (numerator * twoPow (-place).toNat) (denominator * twoPow place.toNat)
    min ((place - leastExponent).toNat * leadingBit + significand) (topExponent * leadingBit)

/-- The double nearest to the quotient of two naturals, with the sign asked for. -/
def ofRatio (negative : Bool) (numerator denominator : Nat) : Number :=
  ⟨((if negative then signBit else 0) + magnitudeBits numerator denominator).toUInt64⟩

/-- The double nearest to a natural. -/
def ofNat (n : Nat) : Number := ofRatio false n 1

end Number

end DocComments
