import Mathlib.Algebra.Group.Nat.Defs
import CombatTrials.Numeric.Decimal

/-!
# Integers are finite doubles

A reader of texts that keeps a number without knowing what it is for asks one thing of it: that it
is not too large for a double. No count is. An integer below `2 ^ 53` is turned into a double by an
exact conversion and a product with one (`isFinite_toFloat_natural`).

What has to be shown is that no exponent on the way passes the greatest. Rounding raises an exponent
by no more than twice the bits of the significand, which is far from exact but leaves room enough
(`bounded_round`), and packing keeps every exponent up to the greatest (`bounded_unpack_pack`).
-/

namespace CombatTrials
namespace Numeric

open Float.Model (Format UnpackedFloat pack totalExponent)
open Float.Model.UnpackedFloat
  (Sign Accuracy ExtendedMantissa packComponents roundWithAccuracy shiftToTargetExponent)

/-- A number that is zero or finite, with a significand of at most `k` bits and an exponent of at
most `b`. -/
inductive IsBounded (k : Nat) (b : Int) : UnpackedFloat → Prop
  | zero {s : Sign} : IsBounded k b (.zero s)
  | finite {s : Sign} {m : Nat} {e : Int} {hm : 0 < m} (hbits : m < 2 ^ k) (hexponent : e ≤ b) :
      IsBounded k b (.finite s m e hm)

variable {k k' : Nat} {b b' : Int} {u v : UnpackedFloat}

theorem IsBounded.isFinite (h : IsBounded k b u) : u.isFinite = true := by
  cases h <;> rfl

theorem IsBounded.mono (h : IsBounded k b u) (hk : k ≤ k') (hb : b ≤ b') : IsBounded k' b' u := by
  cases h with
  | zero => exact .zero
  | finite hbits hexponent =>
    exact .finite (Nat.lt_of_lt_of_le hbits (Nat.pow_le_pow_right (by decide) hk))
      (Int.le_trans hexponent hb)

/-! ## Packing and unpacking

A double keeps its exponent with a bias, and the greatest value of that is given to infinity and to
what is not a number. Any other is an exponent. -/

/-- A double whose bits do not give the greatest exponent is finite, with the fifty-three bits of a
significand. -/
theorem bounded_unpack {bits : BitVec Format.binary64.numBits}
    (he : (UnpackedFloat.unpackExponent bits).toNat < 2047)
    (hb : ((UnpackedFloat.unpackExponent bits).toNat : Int) - 1075 ≤ b) (hleast : -1074 ≤ b) :
    IsBounded 53 b (UnpackedFloat.unpack Format.binary64 bits) := by
  -- the greatest exponent is what stands for infinity and for what is not a number
  have hne : UnpackedFloat.unpackExponent bits ≠ -1#11 := by
    intro h
    rw [h] at he
    exact absurd he (by decide)
  delta UnpackedFloat.unpack
  dsimp only
  rw [if_neg hne]
  by_cases hzero : UnpackedFloat.unpackExponent bits = 0#11
  · rw [if_pos hzero]
    by_cases hmantissa : UnpackedFloat.unpackMantissa bits = 0#52
    · rw [dif_pos hmantissa]
      exact .zero
    · rw [dif_neg hmantissa]
      refine .finite (Nat.lt_trans (BitVec.isLt _) (by decide)) ?_
      rw [hzero]
      exact hleast
  · rw [if_neg hzero]
    exact .finite (BitVec.isLt _) hb

theorem bounded_unpack_packComponents {s : Sign} {e : BitVec 11} {m : BitVec 52}
    (he : e.toNat < 2047) (hb : (e.toNat : Int) - 1075 ≤ b) (hleast : -1074 ≤ b) :
    IsBounded 53 b
      (UnpackedFloat.unpack Format.binary64 (packComponents Format.binary64 s e m)) := by
  have hexponent : UnpackedFloat.unpackExponent (packComponents Format.binary64 s e m) = e :=
    UnpackedFloat.unpackExponent_packComponents ..
  refine bounded_unpack ?_ ?_ hleast
  · rw [hexponent]
    exact he
  · rw [hexponent]
    exact hb

/-- A double with an exponent up to the greatest is packed without becoming infinite. -/
theorem bounded_unpack_pack (h : IsBounded k b u) (hleast : -1074 ≤ b) (hgreatest : b ≤ 971) :
    IsBounded 53 b (pack u).unpack := by
  show IsBounded 53 b (UnpackedFloat.unpack Format.binary64 (UnpackedFloat.pack Format.binary64 u))
  cases h with
  | zero =>
    exact bounded_unpack_packComponents (by decide) (by show (0 : Int) - 1075 ≤ b; omega) hleast
  | @finite s m e hm _ hexponent =>
    -- the exponent with its bias is below the one that stands for infinity
    have hroom : ¬ 2 ^ Format.binary64.exponentBits ≤
        (e + Format.binary64.exponentBias + Format.binary64.mantissaBitsWithoutImplicit).toNat +
          1 := by
      show ¬ 2048 ≤ (e + 1023 + 52).toNat + 1
      omega
    delta UnpackedFloat.pack
    dsimp only
    rw [if_neg hroom]
    split
    · have htoNat : (BitVec.ofNat Format.binary64.exponentBits (e + Format.binary64.exponentBias +
          Format.binary64.mantissaBitsWithoutImplicit).toNat).toNat = (e + 1023 + 52).toNat := by
        show (e + 1023 + 52).toNat % 2048 = _
        omega
      refine bounded_unpack_packComponents ?_ ?_ hleast
      · rw [htoNat]
        omega
      · rw [htoNat]
        omega
    · exact bounded_unpack_packComponents (by decide) (by show (0 : Int) - 1075 ≤ b; omega) hleast

/-! ## Rounding

The significand is brought to the fifty-three bits of the format. It can be shifted a second time,
when rounding up has carried, and each shift moves the exponent by no more bits than there are. -/

theorem mantissa_shiftRight_le (em : ExtendedMantissa) (n : Nat) :
    (em >>> n).mantissa ≤ em.mantissa := by
  induction n with
  | zero => exact Nat.le_refl _
  | succ n ih => exact Nat.le_trans (Nat.div_le_self _ 2) ih

theorem roundToNearestEven_le (m : Nat) (a : Accuracy) : a.roundToNearestEven m ≤ m + 1 := by
  cases a with
  | exact => exact Nat.le_succ m
  | inexact o =>
    cases o with
    | lt => exact Nat.le_succ m
    | eq =>
      show m + m % 2 ≤ m + 1
      omega
    | gt => exact Nat.le_refl _

theorem mantissa_ofMantissaAndAccuracy (m : Nat) (a : Accuracy) :
    (ExtendedMantissa.ofMantissaAndAccuracy m a).mantissa = m := by
  cases a with
  | exact => rfl
  | inexact o => cases o <;> rfl

theorem log2_le_of_lt {m : Nat} (h : m < 2 ^ k) : m.log2 ≤ k := by
  cases m with
  | zero => exact Nat.zero_le _
  | succ m => exact Nat.le_of_lt ((Nat.log2_lt (Nat.succ_ne_zero m)).mpr h)

theorem shiftToTargetExponent_le {m : Nat} {e : Int} (a : Accuracy) (hm : m < 2 ^ k) :
    (shiftToTargetExponent Format.binary64 m e a).1.mantissa ≤ m ∧
      (shiftToTargetExponent Format.binary64 m e a).2 ≤ max e (-1074) + k := by
  have hlog := log2_le_of_lt hm
  have htarget : Format.binary64.targetExponent (totalExponent m e) =
      max (m.log2 + 1 + e - 53) (-1074) := rfl
  refine ⟨?_, ?_⟩
  · have hshift := mantissa_shiftRight_le (ExtendedMantissa.ofMantissaAndAccuracy m a)
      (Format.binary64.targetExponent (totalExponent m e) - e).toNat
    rwa [mantissa_ofMantissaAndAccuracy] at hshift
  · show e + ((Format.binary64.targetExponent (totalExponent m e) - e).toNat : Int) ≤ _
    rw [htarget]
    omega

/-- Rounding twice raises an exponent by no more than the bits of the significand each time. -/
theorem bounded_round {s : Sign} {m : Nat} {e : Int} (hm : m < 2 ^ k) :
    IsBounded (k + 1) (max e (-1074) + (2 * k + 1))
      (roundWithAccuracy Format.binary64 s m e .exact) := by
  have hfirst := shiftToTargetExponent_le (e := e) .exact hm
  unfold roundWithAccuracy
  generalize shiftToTargetExponent Format.binary64 m e .exact = first at hfirst
  obtain ⟨em, e'⟩ := first
  obtain ⟨hmantissa, hexponent⟩ := hfirst
  dsimp only at hmantissa hexponent ⊢
  -- rounding up can carry into one bit more, so a second shift may be needed
  have hrounded : em.roundedMantissa < 2 ^ (k + 1) := by
    have hle : em.roundedMantissa ≤ em.mantissa + 1 := roundToNearestEven_le _ _
    rw [Nat.pow_succ]
    omega
  have hsecond := shiftToTargetExponent_le (e := e') .exact hrounded
  generalize shiftToTargetExponent Format.binary64 em.roundedMantissa e' .exact = second at hsecond
  obtain ⟨hmantissa', hexponent'⟩ := hsecond
  by_cases hzero : second.1.mantissa = 0
  · rw [dif_pos hzero]
    exact .zero
  · rw [dif_neg hzero]
    refine .finite (Nat.lt_of_le_of_lt hmantissa' hrounded) ?_
    omega

/-- The exponents of a product add up, and so do the bits of its significand before it is rounded.
-/
theorem bounded_mul (hu : IsBounded k b u) (hv : IsBounded k' b' v) (hleast : -1074 ≤ b + b') :
    IsBounded (k + k' + 1) (b + b' + (2 * (k + k') + 1))
      (UnpackedFloat.mul Format.binary64 u v) := by
  cases hu with
  | zero => cases hv <;> exact .zero
  | @finite s m e _ hbits hexponent =>
    cases hv with
    | zero => exact .zero
    | @finite s' m' e' _ hbits' hexponent' =>
      -- as many bits as both together
      have hproduct : m * m' < 2 ^ (k + k') := by
        rw [Nat.pow_add]
        exact Nat.mul_lt_mul'' hbits hbits'
      have hround := bounded_round (s := s * s') (e := e + e') hproduct
      exact hround.mono (Nat.le_refl _) (by omega)

/-! ## Integers

The bounds are generous: two hundred and thirteen where the greatest exponent is nine hundred and
seventy-one. -/

theorem bounded_ofNat {n : Nat} (h : n < 2 ^ 53) :
    IsBounded 107 213 (UnpackedFloat.ofNat Format.binary64 n) := by
  unfold UnpackedFloat.ofNat UnpackedFloat.ofInt UnpackedFloat.normalize
  split
  · next hlt =>
    rw [Int.compare_eq_lt] at hlt
    omega
  · exact .zero
  · -- the integer is shifted up to fifty-three bits first, which lowers its exponent
    have htarget : Format.binary64.targetExponent (totalExponent n 0) =
        max ((n.log2 : Int) + 1 + 0 - 53) (-1074) := rfl
    have hshifted :
        n <<< (0 - Format.binary64.targetExponent (totalExponent n 0)).toNat < 2 ^ 106 := by
      have hamount : (0 - Format.binary64.targetExponent (totalExponent n 0)).toNat ≤ 53 := by
        rw [htarget]
        omega
      rw [Nat.shiftLeft_eq, show (106 : Nat) = 53 + 53 from rfl, Nat.pow_add]
      exact Nat.mul_lt_mul_of_lt_of_le h (Nat.pow_le_pow_right (by decide) hamount)
        (Nat.two_pow_pos _)
    have hround := bounded_round (s := .positive)
      (e := (0 : Int) - ((0 - Format.binary64.targetExponent (totalExponent n 0)).toNat : Nat))
        hshifted
    show IsBounded 107 213 (roundWithAccuracy Format.binary64 .positive _ _ .exact)
    simp only [Int.toNat_natCast]
    exact hround.mono (Nat.le_refl _) (by omega)

theorem bounded_one :
    IsBounded 53 (-52) (Float.exactlyRepresentablePowersOfTen[0]).toModel.unpack := by
  have hone : (Float.exactlyRepresentablePowersOfTen[0]).toModel.unpack =
      .finite .positive (2 ^ 52) (-52) (by decide) := by
    rfl
  rw [hone]
  exact .finite (by decide) (Int.le_refl _)

/-- A small enough integer is a finite double. -/
theorem isFinite_toFloat_natural {n : Nat} (h : n < 2 ^ 53) :
    (Decimal.toFloat ⟨false, n, 0⟩).isFinite = true := by
  -- with so few digits it is not taken for infinity
  have hdigits : digitCount n ≤ 310 := by
    refine (Nat.length_toDigits_le_iff (by decide) (by decide)).mpr (Nat.lt_trans h ?_)
    decide +kernel
  unfold Decimal.toFloat Decimal.magnitude
  simp only [Bool.false_eq_true, if_false]
  split
  · decide +kernel
  · rw [if_neg (by omega)]
    show (Float.ofScientific n false 0).isFinite = true
    unfold Float.ofScientific
    rw [dif_pos ⟨h, by decide⟩]
    dsimp only
    rw [if_neg Bool.false_ne_true]
    -- the conversion is exact up to the bound, and then there is a product with one
    have hnat : IsBounded 53 213 n.toUInt64.toFloat.toModel.unpack := by
      have htoNat : n.toUInt64.toNat = n := UInt64.toNat_ofNat_of_lt' (Nat.lt_trans h (by decide))
      show IsBounded 53 213 (pack (UnpackedFloat.ofNat Format.binary64 n.toUInt64.toNat)).unpack
      rw [htoNat]
      exact bounded_unpack_pack (bounded_ofNat h) (by decide) (by decide)
    exact (bounded_unpack_pack (bounded_mul hnat bounded_one (by decide)) (by decide)
      (by decide)).isFinite

end Numeric
end CombatTrials
