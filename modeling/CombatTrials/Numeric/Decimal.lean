/-!
# Decimal numbers

A decimal literal denotes `± digits * 10 ^ exponent`, and `Decimal.toFloat` is the double nearest to
that value. Literals come with exponents of any size, so a value that lies far outside the doubles
is decided from the place of its leading digit before a power of ten is formed.
-/

namespace CombatTrials
namespace Numeric

/-- The value `± digits * 10 ^ exponent`. -/
structure Decimal where
  negative : Bool
  digits : Nat
  exponent : Int
  deriving DecidableEq, Repr, Inhabited

/-- How many decimal digits a number has; zero has one. -/
def digitCount (n : Nat) : Nat := (Nat.toDigits 10 n).length

/-- The number that a run of decimal digits denotes. -/
def ofDigits (cs : List Char) : Nat :=
  cs.foldl (fun n c => 10 * n + (c.toNat - '0'.toNat)) 0

namespace Decimal

/-- The double nearest to the magnitude. From `10 ^ 310` on it is infinite and below `10 ^ -330` it
is zero. -/
def magnitude (d : Decimal) : Float :=
  let place := d.exponent + digitCount d.digits
  if d.digits = 0 ∨ place < -330 then 0
  else if 310 < place then 1 / 0
  else match d.exponent with
    | .ofNat e => Float.ofScientific d.digits false e
    | .negSucc e => Float.ofScientific d.digits true (e + 1)

/-- The double nearest to the value; a negative zero keeps its sign. -/
def toFloat (d : Decimal) : Float :=
  if d.negative then -d.magnitude else d.magnitude

end Decimal
end Numeric
end CombatTrials
