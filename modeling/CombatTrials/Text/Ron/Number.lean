import CombatTrials.Numeric.Decimal
import CombatTrials.Text.Json.Reader

/-!
# The numbers of object notation

Which letters are a number depends on what is read. An integer has no sign; it may be hexadecimal,
binary or octal, and underscores may stand anywhere but in front. A real has a sign, a point and an
exponent as it likes, so long as there is a digit before or after the point, and no underscores.

Where nothing says what is read, a number is a real or an integer of sixty-four bits, which then can
have a sign.
-/

namespace CombatTrials
namespace Text
namespace Ron

/-- The value of digits of a base with underscores among them. -/
def digitsValue (base : Nat) (n : Nat) : List Char → Option Nat
  | [] => some n
  | c :: rest =>
    if c = '_' then digitsValue base n rest
    else match Json.hexDigit? c with
      | some d => if d < base then digitsValue base (base * n + d) rest else none
      | none => none

/-- Digits of a base, the first of which is no underscore. -/
def digits? (base : Nat) : List Char → Option Nat
  | [] => none
  | c :: rest => if c = '_' then none else digitsValue base 0 (c :: rest)

/-- An integer without a sign. -/
def natural? : List Char → Option Nat
  | '0' :: 'x' :: rest => digits? 16 rest
  | '0' :: 'b' :: rest => digits? 2 rest
  | '0' :: 'o' :: rest => digits? 8 rest
  | cs => digits? 10 cs

/-- A real without a sign. -/
def magnitude? (cs : List Char) : Option Numeric.Decimal :=
  let whole := cs.takeWhile Char.isDigit
  let rest := cs.drop whole.length
  let (places, rest) := match rest with
    | '.' :: rest =>
      let places := rest.takeWhile Char.isDigit
      (places, rest.drop places.length)
    | rest => ([], rest)
  if whole.isEmpty && places.isEmpty then none
  else do
    let e ← Json.exponent? rest
    return ⟨false, Numeric.ofDigits (whole ++ places), e.getD 0 - places.length⟩

/-- A real by its letters after the sign. -/
def unsignedReal? (cs : List Char) : Option Float :=
  if cs = ['i', 'n', 'f'] then some (1 / 0)
  else if cs = ['N', 'a', 'N'] then some (0 / 0)
  else (magnitude? cs).map Numeric.Decimal.toFloat

/-- A real by its letters. -/
def real? : List Char → Option Float
  | '-' :: rest => (unsignedReal? rest).map (- ·)
  | '+' :: rest => unsignedReal? rest
  | cs => unsignedReal? cs

/-- Whether letters are an integer of sixty-four bits, one with a sign being signed. -/
def isInteger : List Char → Bool
  | '-' :: rest => (natural? rest).any (· ≤ UInt64.size / 2)
  | '+' :: rest => (natural? rest).any (· < UInt64.size / 2)
  | cs => (natural? cs).any (· < UInt64.size)

/-- Whether letters are a number at all. -/
def isNumber (cs : List Char) : Bool := isInteger cs || (real? cs).isSome

end Ron
end Text
end CombatTrials
