import CombatTrials.Numeric.Decimal
import CombatTrials.Numeric.Dyadic

/-!
# The fewest digits that read back

`shortest x` is the decimal with the fewest digits among those that round to the double `x`, and of
several such the nearest to `x`. All decimals on a grid `10 ^ k` that round to `x` lie in an
interval around `x`, which ends half way to the neighbouring doubles; if a point of the grid lies in
it, then one of the two grid points next to `x` does. So the search looks at two candidates for each
`k`, from the coarsest grid down, and seventeen digits always suffice.

Ends belong to the interval when the significand is even, because a tie is read as the even
neighbour. Of two candidates that are equally near the larger is taken.
-/

namespace CombatTrials
namespace Numeric

/-- The decimals that round to one positive double, measured on a scale on which the interval's
ends, the value and the grid step are integers. -/
structure Rounding where
  lower : Nat
  value : Nat
  upper : Nat
  step : Nat
  inclusive : Bool

namespace Rounding

/-- The interval of the double `m * 2 ^ e` measured against the grid `10 ^ k`. A power of two has a
nearer neighbour below, unless it is the least one. -/
def onGrid (m : Nat) (e k : Int) : Rounding :=
  let scale := Nat.pow 2 (e - 2).toNat * Nat.pow 10 (-k).toNat
  let below := if m = hiddenBit ∧ -1074 < e then 1 else 2
  { lower := (4 * m - below) * scale
    value := 4 * m * scale
    upper := (4 * m + 2) * scale
    step := Nat.pow 2 (2 - e).toNat * Nat.pow 10 k.toNat
    inclusive := m % 2 = 0 }

/-- Whether a point of the scale rounds to the value. -/
def contains (r : Rounding) (point : Nat) : Bool :=
  if r.inclusive then r.lower ≤ point && point ≤ r.upper else r.lower < point && point < r.upper

/-- The multiple of the grid step that rounds to the value and is nearest to it, if there is one; of
two equally near the larger. -/
def nearest? (r : Rounding) : Option Nat :=
  let d := r.value / r.step
  let below := r.contains (d * r.step)
  let above := r.contains ((d + 1) * r.step)
  if above && (!below || (d + 1) * r.step - r.value ≤ r.value - d * r.step) then some (d + 1)
  else if below then some d
  else none

end Rounding

/-- The first grid from `10 ^ k` downwards with a point that rounds to `m * 2 ^ e`. -/
def shortestFrom (m : Nat) (e : Int) : Nat → Int → Nat × Int
  | 0, k => (0, k)
  | n + 1, k =>
    match (Rounding.onGrid m e k).nearest? with
    | some d => (d, k)
    | none => shortestFrom m e n (k - 1)

/-- A power of ten above `m * 2 ^ e`, at most two places above its leading digit. -/
def topPlace (m : Nat) (e : Int) : Int := ((m.log2 : Int) + 1 + e) * 30103 / 100000 + 1

/-- The decimal of fewest digits that reads back as the finite double `x`. -/
def shortest (x : Float) : Decimal :=
  let d := Dyadic.ofFloat x
  if d.significand = 0 then ⟨d.negative, 0, 0⟩
  else
    let (digits, exponent) :=
      shortestFrom d.significand d.exponent 24 (topPlace d.significand d.exponent)
    ⟨d.negative, digits, exponent⟩

end Numeric
end CombatTrials
