import CombatTrials.Numeric.Dyadic

/-!
# The remainder of a division of doubles

`remainder x y` is `x - n * y`, where `n` is the quotient cut to an integer toward zero. No rounding
takes part: over a common power of two the remainder of the significands is the significand of the
answer, and it is below one of the two significands, so it fits a double again.

The answer has the sign of `x`, also when it is zero. There is none for an infinite `x`, for `y = 0`
and for NaN; an infinite `y` leaves `x` as it is.
-/

namespace CombatTrials
namespace Numeric

/-- The remainder of two values over the smaller of their exponents, with the sign of the first. -/
def Dyadic.remainder (a b : Dyadic) : Dyadic :=
  let e := min a.exponent b.exponent
  let m := a.significand <<< (a.exponent - e).toNat
  let n := b.significand <<< (b.exponent - e).toNat
  ⟨a.negative, m % n, e⟩

/-- The remainder of the division of `x` by `y`, exact, with the sign of `x`. -/
def remainder (x y : Float) : Float :=
  if x.isNaN || y.isNaN || x.isInf || y == 0 then 0 / 0
  else if y.isInf || x == 0 then x
  else ((Dyadic.ofFloat x).remainder (Dyadic.ofFloat y)).toFloat

end Numeric
end CombatTrials
