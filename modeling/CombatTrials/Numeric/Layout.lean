import CombatTrials.Numeric.Shortest

/-!
# Writing doubles

Which digits a number has is settled by `shortest`; a `Layout` settles how they are written: how
many places stand after the point at least, and for which leading exponents the number is written
positionally rather than with an exponent.
-/

namespace CombatTrials
namespace Numeric

/-- The decisions of one written form of doubles. The leading exponent of a number is the power of
ten of its first digit. -/
structure Layout where
  /-- Places written after the point at least; with none, an integer has no point. -/
  leastPlaces : Nat
  /-- Whether a leading exponent is written positionally. -/
  positional : Int → Bool

namespace Layout

/-- The digits with a point put before the last `places` of them, at least one digit before it. -/
def pointed (digits : List Char) (places : Nat) : String :=
  let padded := List.replicate (places + 1 - digits.length) '0' ++ digits
  let whole := padded.take (padded.length - places)
  let rest := padded.drop (padded.length - places)
  if places = 0 then String.ofList whole else String.ofList (whole ++ '.' :: rest)

/-- The positional form of `digits * 10 ^ exponent`. -/
def fixed (layout : Layout) (digits : List Char) (exponent : Int) : String :=
  let places := (-exponent).toNat
  let more := layout.leastPlaces - places
  pointed (digits ++ List.replicate (exponent.toNat + more) '0') (places + more)

/-- The form with one digit before the point and the leading exponent after an `e`. -/
def scientific (digits : List Char) (exponent : Int) : String :=
  pointed digits (digits.length - 1) ++ "e" ++ toString (exponent + (digits.length - 1 : Nat))

/-- The text of a decimal. -/
def decimal (layout : Layout) (d : Decimal) : String :=
  let digits := Nat.toDigits 10 d.digits
  let sign := if d.negative then "-" else ""
  let leading := d.exponent + (digits.length - 1 : Nat)
  sign ++ if d.digits = 0 || layout.positional leading then layout.fixed digits d.exponent
    else scientific digits d.exponent

/-- The text of a double: `NaN`, `inf`, `-inf`, or its shortest decimal. -/
def write (layout : Layout) (x : Float) : String :=
  if x.isNaN then "NaN"
  else if x.isInf then (if x < 0 then "-inf" else "inf")
  else layout.decimal (shortest x)

/-- Numbers shown to users: never an exponent, and no point where there is no fraction. -/
def plain : Layout where
  leastPlaces := 0
  positional _ := true

/-- Numbers shown for inspection: always a fraction or an exponent, positional from `10 ^ -4` up to
`10 ^ 16`. -/
def inspected : Layout where
  leastPlaces := 1
  positional leading := -4 ≤ leading && leading < 16

end Layout

/-- The sixteen hexadecimal digits of a double's bits; every NaN is `nan`. -/
def bitsText (x : Float) : String :=
  if x.isNaN then "nan"
  else
    let digits := Nat.toDigits 16 x.toBits.toNat
    String.ofList (List.replicate (16 - digits.length) '0' ++ digits)

end Numeric
end CombatTrials
