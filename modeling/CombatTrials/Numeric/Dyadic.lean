/-!
# Doubles as integers times powers of two

A finite double is `± m · 2 ^ e` with `m < 2 ^ 53` and `-1074 ≤ e`. `Dyadic.ofFloat` reads those
three fields off the sixty-four bits and `Dyadic.toFloat` packs them back, so whatever has to be
exact (`Remainder`, `Shortest`) is integer arithmetic on the fields and rounds nothing.

`orderKey` is the total order of all doubles, in which `-0` comes before `0`: it compares the bits
as a sign and a magnitude.
-/

namespace CombatTrials
namespace Numeric

/-- The value `± significand * 2 ^ exponent`. -/
structure Dyadic where
  negative : Bool
  significand : Nat
  exponent : Int
  deriving DecidableEq, Repr

/-- The leading one that the fields of a normal double leave out: two to the power fifty-two. -/
def hiddenBit : Nat := 0x10000000000000

/-- Whether the sign bit is set; true of `-0` as well. -/
def signBit (x : Float) : Bool := x.toBits >>> 63 != 0

/-- The eleven bits of the biased exponent. -/
def exponentField (x : Float) : Nat := ((x.toBits >>> 52) &&& 0x7FF).toNat

/-- The low fifty-two bits of the significand. -/
def fractionField (x : Float) : Nat := (x.toBits &&& 0xFFFFFFFFFFFFF).toNat

namespace Dyadic

/-- The fields of a finite double. A zero exponent field marks the subnormal numbers, which have no
leading one to restore. -/
def ofFloat (x : Float) : Dyadic :=
  if exponentField x = 0 then ⟨signBit x, fractionField x, -1074⟩
  else ⟨signBit x, hiddenBit + fractionField x, exponentField x - 1075⟩

/-- The double with these fields. Exact whenever the value is representable with a significand below
`2 ^ 53`: the significand is shifted left until it is normal or the exponent is least. -/
def toFloat (d : Dyadic) : Float :=
  let sign : Nat := if d.negative then 0x8000000000000000 else 0
  let shift := min (52 - d.significand.log2) (d.exponent + 1074).toNat
  let m := d.significand <<< shift
  let e := d.exponent - shift
  let magnitude := if m < hiddenBit then m else (e + 1075).toNat * hiddenBit + (m - hiddenBit)
  Float.ofBits (UInt64.ofNat (sign + magnitude))

end Dyadic

/-- The place of a double in the total order: a negative number lies below zero by one more than its
magnitude bits, so that `-0` precedes `0`. -/
def orderKey (x : Float) : Int :=
  let magnitude : Nat := (x.toBits &&& 0x7FFFFFFFFFFFFFFF).toNat
  if signBit x then -(magnitude : Int) - 1 else magnitude

end Numeric
end CombatTrials
