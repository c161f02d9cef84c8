import CombatTrials.Chance.ChaCha

/-!
# Dice

A fight asks its source of chance for two things: a factor by which a hit swings around the
attacker's strength, and one of several equally likely targets. `Dice` is that interface, so the
rules of a fight can be stated over any source; `pick n` chooses among `n + 1` things, which makes a
choice among none impossible to ask for.

`Stream` is the source that fights are played with. A factor is a uniform multiple of `2 ^ -52`
scaled onto the interval; a choice multiplies a draw by the number of things and keeps the high
half, and draws again while the low half lies in the last, incomplete zone, so that every thing is
equally likely.
-/

namespace CombatTrials
namespace Chance

/-- A source of chance for fights. -/
class Dice (ρ : Type) where
  /-- A factor near one, for the strength of a hit. -/
  swing : ρ → Float × ρ
  /-- One of `n + 1` things. -/
  pick : (n : Nat) → ρ → Fin (n + 1) × ρ

/-- How far a factor may lie from one. -/
def variance : Float := 0.15

/-- The least factor. -/
def swingLow : Float := 1.0 - variance

/-- The greatest factor. -/
def swingHigh : Float := 1.0 + variance

/-- The greatest multiple of `2 ^ -52` below one. -/
def lastFraction : Float := 1.0 - Float.ofScientific 2220446049250313 true 31

/-- Lowers a scale until the greatest fraction lands at most on `high`. The quotient it starts from
is off by a rounding at most, so a few steps suffice. -/
def fitScale (low high : Float) : Nat → Float → Float
  | 0, scale => scale
  | n + 1, scale =>
    if scale * lastFraction + low > high then fitScale low high n (Float.ofBits (scale.toBits - 1))
    else scale

/-- The width of the interval of factors, such that no factor exceeds `swingHigh`. -/
def swingScale : Float := fitScale swingLow swingHigh 64 ((swingHigh - swingLow) / lastFraction)

/-- The factor that a draw stands for. -/
def swingOf (draw : UInt64) : Float :=
  (draw >>> 12).toFloat / 4503599627370496.0 * swingScale + swingLow

/-- Whether a choice among `n + 1` things accepts a draw: the low half of its product with `n + 1`
lies below the greatest multiple of `n + 1` by a power of two that fits sixty-four bits. -/
def accepts (n : Nat) (draw : UInt64) : Bool :=
  draw.toNat * (n + 1) % UInt64.size < (n + 1) <<< (63 - (n + 1).log2)

/-- What a draw chooses among `n + 1` things. -/
def choiceOf (n : Nat) (draw : UInt64) : Fin (n + 1) :=
  ⟨draw.toNat * (n + 1) / UInt64.size, by
    have h : draw.toNat < UInt64.size := draw.toNat_lt_size
    rw [Nat.div_lt_iff_lt_mul (by decide), Nat.mul_comm]
    exact Nat.mul_lt_mul_of_pos_left h (Nat.succ_pos n)⟩

/-- Draws until one is accepted. At least half of all draws are, so the bound on their number is
never met in practice; the last draw then stands. -/
def pickWithin (n : Nat) : Nat → Stream → Fin (n + 1) × Stream
  | 0, s =>
    let (draw, s) := s.next
    (choiceOf n draw, s)
  | k + 1, s =>
    let (draw, s) := s.next
    if accepts n draw then (choiceOf n draw, s) else pickWithin n k s

instance : Dice Stream where
  swing s :=
    let (draw, s) := s.next
    (swingOf draw, s)
  pick n s := pickWithin n 1024 s

end Chance
end CombatTrials
