import TagFlow.Decimal.Binary

/-!
# The shortest decimal that reads back

The real numbers that round to one floating-point number form an interval around it: half a unit in
the last place to either side (a quarter below a power of two, where the spacing halves), the ends
included when the mantissa is even. `shortest` walks the decimal grids `10 ^ k` from coarse to fine
and stops at the first grid that has a point in the interval. If a grid has a point there, one of
the number's two neighbours on that grid is one, so only those two are tested.

All comparisons are between integers: `c · 10 ^ k ≤ n · 2 ^ s` is cross-multiplied.
-/

namespace TagFlow.Decimal

/-- The decimal number `coefficient · 10 ^ exponent`. -/
structure Scaled where
  coefficient : Nat
  exponent : Int
deriving DecidableEq

/-- The interval of reals that round to a number, in units of `2 ^ scale`. -/
structure Interval where
  low : Nat
  value : Nat
  high : Nat
  scale : Int
  /-- Whether the two ends belong to the interval. -/
  closed : Bool

namespace Interval

/-- The interval of `mantissa · 2 ^ exponent`, in quarters of a unit in the last place. -/
def around (mantissa : Nat) (exponent : Int) : Interval :=
  let atBinade := mantissa == Nat.pow 2 Binary.fractionBits && exponent != Binary.minExponent
  { low := 4 * mantissa - (if atBinade then 1 else 2)
    value := 4 * mantissa
    high := 4 * mantissa + 2
    scale := exponent - 2
    closed := mantissa % 2 == 0 }

/-- The factor of a grid point's coefficient on the grid `10 ^ k`, once both sides are integers. -/
def gridFactor (r : Interval) (k : Int) : Nat :=
  Nat.pow 10 k.toNat * Nat.pow 2 (-r.scale).toNat

/-- The factor of the interval's numbers on the grid `10 ^ k`, once both sides are integers. -/
def valueFactor (r : Interval) (k : Int) : Nat :=
  Nat.pow 2 r.scale.toNat * Nat.pow 10 (-k).toNat

/-- Whether the grid point `c · 10 ^ k` rounds to the number. -/
def holds (r : Interval) (k : Int) (c : Nat) : Bool :=
  let point := c * r.gridFactor k
  let low := r.low * r.valueFactor k
  let high := r.high * r.valueFactor k
  if r.closed then decide (low ≤ point ∧ point ≤ high) else decide (low < point ∧ point < high)

/-- The point of the grid `10 ^ k` that rounds to the number, if there is one: of two the nearer,
and of two equally near the larger. -/
def onGrid? (r : Interval) (k : Int) : Option Nat :=
  let exact := r.value * r.valueFactor k
  let unit := r.gridFactor k
  let below := exact / unit
  match r.holds k below, r.holds k (below + 1) with
  | false, false => none
  | true, false => some below
  | false, true => some (below + 1)
  | true, true =>
    if exact - below * unit < (below + 1) * unit - exact then some below else some (below + 1)

/-- The first of the grids `10 ^ k`, `10 ^ (k - 1)`, … with a point in the interval. -/
def search (r : Interval) : Nat → Int → Scaled
  | 0, k => ⟨r.value * r.valueFactor k / r.gridFactor k, k⟩
  | n + 1, k =>
    match r.onGrid? k with
    | some c => ⟨c, k⟩
    | none => r.search n (k - 1)

end Interval

/-- A grid that is too coarse for any number below `2 ^ bits`. -/
def coarsest (bits : Int) : Int :=
  if 0 ≤ bits then bits / 3 + 1 else 1 - (-bits) / 4

/-- The decimal with the fewest digits that reads back as `mantissa · 2 ^ exponent`. Seventeen
digits always suffice, and `coarsest` starts at most 72 grids too early. -/
def shortest (mantissa : Nat) (exponent : Int) : Scaled :=
  (Interval.around mantissa exponent).search 100 (coarsest (exponent + mantissa.log2 + 1))

end TagFlow.Decimal
