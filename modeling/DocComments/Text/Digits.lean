import DocComments.Text.Basic

/-!
# Digits

Naturals written in some radix up to sixteen, with digits of either case.
-/

namespace DocComments.Text

/-- The value of a digit in the given radix. -/
def digitValue? (radix : Nat) (c : Char) : Option Nat :=
  let value? :=
    if '0' ≤ c ∧ c ≤ '9' then some (c.toNat - '0'.toNat)
    else if 'a' ≤ c ∧ c ≤ 'f' then some (c.toNat - 'a'.toNat + 10)
    else if 'A' ≤ c ∧ c ≤ 'F' then some (c.toNat - 'A'.toNat + 10)
    else none
  value?.filter (· < radix)

/-- The natural written by a row of digits, which must not be empty. -/
def natOfDigits? (radix : Nat) (digits : Text) : Option Nat :=
  if digits.isEmpty then none
  else digits.foldlM (fun value c => (digitValue? radix c).map (radix * value + ·)) 0

/-- The digits of a natural in the given radix, filled up with zeros to a width. -/
def paddedDigits (radix width n : Nat) : Text :=
  let digits := Nat.toDigits radix n
  List.replicate (width - digits.length) '0' ++ digits

end DocComments.Text
