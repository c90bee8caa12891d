import DocComments.Number.Basic

/-!
# Shortest digits

The digits written for a number are the fewest that still tell it from every other double. They are
found by exact arithmetic: a decimal reads back as the number if it lies in the interval of reals
that round to it, and the interval is searched on ever finer decimal grids, `10 ^ place` apart.
On one grid only the two points next to the number can be the answer, and the nearer one is; of two
equally near ones it is the one with the even last digit.
-/

namespace DocComments.Number

/-- The decimal `digits * 10 ^ place`. -/
structure ShortDecimal where
  digits : Nat
  place : Int
deriving DecidableEq, Repr

/-- The point of the grid `10 ^ place` that reads back as `significand * 2 ^ exponent` and is nearest
to it, if there is one.

Sizes are compared as multiples of `unit`, a quarter of the number's last place, and of `step`, the
distance of the grid's points, both scaled to naturals. The interval is half a last place wide on
each side, and a quarter below a power of two; its ends round to the number if the significand is
even. -/
def gridPoint? (significand : Nat) (exponent place : Int) : Option ShortDecimal :=
  let quarter := exponent - 2
  let unit := twoPow quarter.toNat * tenPow (-place).toNat
  let step := tenPow place.toNat * twoPow (-quarter).toNat
  let value := 4 * significand * unit
  let margin := if significand = leadingBit ∧ leastExponent < exponent then 1 else 2
  let low := (4 * significand - margin) * unit
  let high := (4 * significand + 2) * unit
  let inside (point : Nat) : Bool :=
    if significand % 2 = 0 then low ≤ point && point ≤ high else low < point && point < high
  let below := value / step
  let above := below + 1
  let upward : Bool :=
    let gap := 2 * (value - below * step)
    step < gap || (gap = step && below % 2 = 1)
  match inside (below * step), inside (above * step) with
  | true, true => some ⟨if upward then above else below, place⟩
  | true, false => some ⟨below, place⟩
  | false, true => some ⟨above, place⟩
  | false, false => none

/-- The number of grids searched. The first is too coarse to have a point in the interval, and
seventeen digits always tell a double from its neighbours. -/
def gridCount : Nat := 20

/-- A power of ten above `2 ^ log`, close enough to start the search from: the decimal logarithm of
two lies between 0.30102 and 0.30103. -/
def coarsePlace (log : Int) : Int :=
  (if log < 0 then log * 30102 else log * 30103) / 100000 + 2

/-- The shortest decimal that reads back as `significand * 2 ^ exponent`, for a positive
significand. -/
def shortest (significand : Nat) (exponent : Int) : ShortDecimal :=
  let start := coarsePlace (significand.log2 + exponent)
  ((List.range gridCount).findSome? fun (finer : Nat) =>
    gridPoint? significand exponent (start - finer)).getD ⟨0, 0⟩

end DocComments.Number
