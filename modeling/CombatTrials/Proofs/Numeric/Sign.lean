import CombatTrials.Numeric.Nearest

/-!
# Products without a sign

The hit points that a heal gives back are a product of doubles, rounded. That a heal never hurts
rests on the sign of that product: a product of two doubles whose sign bit is not set has none
either, whatever is rounded, overflows or is lost on the way (`signBit_mul`). An integer turned into
a double has no sign to begin with (`signBit_ofNat`).

The model of doubles multiplies in unpacked form and packs the result. So `IsUnsigned` says the same
of unpacked doubles, and `isUnsigned_unpack` and `signBit_pack` go there and back. NaN is packed
without a sign.
-/

namespace CombatTrials
namespace Numeric

open Float.Model (Format UnpackedFloat pack)
open Float.Model.UnpackedFloat (unpackSign packComponents roundWithAccuracy)

/-- A double without a sign: not a number, or one whose sign is positive, zero included. -/
inductive IsUnsigned : UnpackedFloat → Prop
  | notANumber : IsUnsigned .notANumber
  | infinity : IsUnsigned (.infinity .positive)
  | zero : IsUnsigned (.zero .positive)
  | finite {m : Nat} {e : Int} {hm : 0 < m} : IsUnsigned (.finite .positive m e hm)

/-! ## Packing and unpacking

The first bit of a double is its sign. What the other bits say decides only which kind of number it
is. -/

theorem signBit_eq_msb (x : Float) : signBit x = x.toBits.toBitVec.msb := by
  have hlt : x.toBits.toNat < UInt64.size := x.toBits.toNat_lt_size
  rw [BitVec.msb_eq_decide, signBit, Bool.eq_iff_iff]
  simp only [bne_iff_ne, ne_eq, ← UInt64.toNat_inj, UInt64.toNat_shiftRight, decide_eq_true_eq,
    UInt64.toNat_toBitVec]
  show ¬ x.toBits.toNat >>> 63 = 0 ↔ 9223372036854775808 ≤ x.toBits.toNat
  rw [Nat.shiftRight_eq_div_pow]
  simp only [UInt64.size] at hlt
  omega

theorem unpackSign_eq_zero {b : BitVec Format.binary64.numBits} (h : b.msb = false) :
    unpackSign b = 0#1 := by
  apply BitVec.eq_of_getLsbD_eq
  intro i hi
  obtain rfl : i = 0 := by omega
  rw [BitVec.msb_eq_getLsbD_last] at h
  show (BitVec.extractLsb 63 63 b).getLsbD 0 = false
  rw [BitVec.getLsbD_extractLsb]
  exact h

theorem msb_packComponents (e : BitVec Format.binary64.exponentBits)
    (m : BitVec Format.binary64.mantissaBitsWithoutImplicit) :
    (packComponents Format.binary64 .positive e m).msb = false := by
  show BitVec.msb (BitVec.append (BitVec.append 0#1 e) m) = false
  rw [BitVec.append_eq, BitVec.append_eq, BitVec.msb_append, BitVec.msb_append]
  rfl

theorem isUnsigned_dite {c : Prop} [Decidable c] {u : c → UnpackedFloat} {v : ¬ c → UnpackedFloat}
    (hu : ∀ h, IsUnsigned (u h)) (hv : ∀ h, IsUnsigned (v h)) : IsUnsigned (dite c u v) := by
  by_cases h : c
  · rw [dif_pos h]
    exact hu h
  · rw [dif_neg h]
    exact hv h

/-- A double whose sign bit is not set is unpacked without a sign. The three fields of its bits
decide which of the four it is. -/
theorem isUnsigned_unpack {x : Float} (h : signBit x = false) : IsUnsigned x.toModel.unpack := by
  have hs : @unpackSign Format.binary64 x.toModel.toBits.toBitVec = 0#1 :=
    unpackSign_eq_zero (signBit_eq_msb x ▸ h)
  unfold Float.Model.unpack UnpackedFloat.unpack
  dsimp only
  rw [hs]
  refine iteInduction (fun _ => ?_) fun _ => ?_
  · exact iteInduction (fun _ => .infinity) fun _ => .notANumber
  · refine iteInduction (fun _ => ?_) fun _ => .finite
    exact isUnsigned_dite (fun _ => .zero) fun _ => .finite

/-- What has no sign is packed without one, also where it is too large and becomes infinite. -/
theorem signBit_pack {u : UnpackedFloat} (h : IsUnsigned u) : signBit ⟨pack u⟩ = false := by
  rw [signBit_eq_msb]
  show (UnpackedFloat.pack Format.binary64 u).msb = false
  cases h with
  | notANumber | infinity | zero => exact msb_packComponents _ _
  | finite =>
    delta UnpackedFloat.pack
    dsimp only
    split
    · exact msb_packComponents _ _
    · split <;> exact msb_packComponents _ _

/-! ## Rounding and multiplying

A product of two finite doubles is rounded with the sign of the product. Everything else that can
come of a product is zero, infinity or no number. -/

/-- Rounding keeps the sign it is given, and what is rounded to zero keeps it too. -/
theorem isUnsigned_round (m : Nat) (e : Int) (a : UnpackedFloat.Accuracy) :
    IsUnsigned (roundWithAccuracy Format.binary64 .positive m e a) := by
  unfold roundWithAccuracy
  exact isUnsigned_dite (fun _ => .zero) fun _ => .finite

/-- The sign of a product is that of its factors. The special cases give zero, infinity or no
number, and only two finite factors are rounded. -/
theorem isUnsigned_mul {u v : UnpackedFloat} (hu : IsUnsigned u) (hv : IsUnsigned v) :
    IsUnsigned (UnpackedFloat.mul Format.binary64 u v) := by
  cases hu <;> cases hv
  case finite.finite => exact isUnsigned_round _ _ _
  all_goals constructor

theorem signBit_mul {x y : Float} (hx : signBit x = false) (hy : signBit y = false) :
    signBit (x * y) = false :=
  signBit_pack (isUnsigned_mul (isUnsigned_unpack hx) (isUnsigned_unpack hy))

/-! ## Integers

An integer is turned into a double without ever having a sign. -/

theorem isUnsigned_ofNat (n : Nat) : IsUnsigned (UnpackedFloat.ofNat Format.binary64 n) := by
  unfold UnpackedFloat.ofNat UnpackedFloat.ofInt UnpackedFloat.normalize
  split
  · next h =>
    rw [Int.compare_eq_lt] at h
    omega
  · exact .zero
  · exact isUnsigned_round _ _ _

theorem isUnsigned_ofScientific (n : Nat) :
    IsUnsigned (UnpackedFloat.ofScientific Format.binary64 n 0) := by
  unfold UnpackedFloat.ofScientific
  refine isUnsigned_dite (fun _ => .zero) fun _ => ?_
  refine iteInduction (fun _ => .infinity) fun _ => ?_
  refine iteInduction (fun _ => .zero) fun _ => ?_
  rw [if_pos (Int.le_refl 0)]
  exact isUnsigned_mul .finite .finite

/-- Integers go two ways, the small ones by an exact conversion and the others through their decimal
digits, and neither way has a sign. -/
theorem signBit_ofNat (n : Nat) : signBit (Float.ofNat n) = false := by
  have hone : signBit Float.exactlyRepresentablePowersOfTen[0] = false := by decide +kernel
  show signBit (Float.ofScientific n false 0) = false
  unfold Float.ofScientific
  dsimp only
  split
  · rw [if_neg Bool.false_ne_true]
    exact signBit_mul (signBit_pack (isUnsigned_ofNat _)) hone
  · rw [if_neg Bool.false_ne_true]
    exact signBit_pack (isUnsigned_ofScientific n)

end Numeric
end CombatTrials
