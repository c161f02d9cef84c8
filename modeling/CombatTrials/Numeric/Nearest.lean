import CombatTrials.Numeric.Dyadic

/-!
# The integer nearest to a double

`nearestInt x` is the integer nearest to `x`, and of two equally near the one farther from zero. It
is a number of sixty-four bits with a sign: what lies beyond those is cut to the greatest or the
least of them, and NaN counts as zero. Over the fields of a double this is integer arithmetic, so
nothing is rounded twice.
-/

namespace CombatTrials
namespace Numeric

/-- The magnitude rounded to an integer, a half upwards: half of the number of halves and one
more. -/
def Dyadic.nearestMagnitude (d : Dyadic) : Nat :=
  match d.exponent with
  | .ofNat e => d.significand <<< e
  | .negSucc e => (d.significand >>> e + 1) / 2

/-- The nearest integer, a half away from zero. -/
def Dyadic.nearest (d : Dyadic) : Int :=
  if d.negative then -(d.nearestMagnitude : Int) else d.nearestMagnitude

/-- The greatest number of sixty-four bits with a sign. -/
def greatestInt64 : Int := 0x7FFFFFFFFFFFFFFF

/-- The nearest integer of sixty-four bits with a sign, a half away from zero. -/
def nearestInt (x : Float) : Int :=
  if x.isNaN then 0 else max (-greatestInt64 - 1) (min greatestInt64 (Dyadic.ofFloat x).nearest)

/-- A number without a sign is not rounded to one with it. -/
theorem nearestInt_nonneg {x : Float} (h : signBit x = false) : 0 ≤ nearestInt x := by
  have hd : 0 ≤ (Dyadic.ofFloat x).nearest := by
    have hn : (Dyadic.ofFloat x).negative = false := by
      unfold Dyadic.ofFloat
      split <;> exact h
    simp [Dyadic.nearest, hn]
  unfold nearestInt greatestInt64
  split <;> omega

end Numeric
end CombatTrials
