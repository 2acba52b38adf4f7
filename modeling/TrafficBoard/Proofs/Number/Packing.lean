import Mathlib
import TrafficBoard.Proofs.Number.Values

namespace TrafficBoard.Number.Double

open Float.Model
open Float.Model.UnpackedFloat (Sign unpackMantissa unpackExponent unpackSign packComponents)

/-!
# Packing — the bits of a finite number and its parts for the machine

* `toNat_packComponents` lays out a sign, an exponent and a fraction in the bits of a number;
* `toNat_pack` says that a significand with an exponent is packed into the code of its magnitude,
  `unpack_of_toNat` that it is found there again;
* `unpack_toFloat` reads a number of the machine as the significand and the exponent of its double.

Only numbers with a full significand are looked at: all that is divided here is at least one.
-/

/-- The sign of a number as the machine has it. -/
def signOf (x : Double) : Sign :=
  if x.isNegative then .negative else .positive

/-- The number of a sign bit. -/
def signNumber (s : Sign) : Nat :=
  s.toBitVec.toNat

/-! ### Layout -/

section Layout

variable (s : Sign) (exponent : BitVec 11) (fraction : BitVec 52) (b : BitVec 64)

/-- **A number is laid out** as a sign, an exponent and a fraction. -/
theorem toNat_packComponents :
    (packComponents Format.binary64 s exponent fraction).toNat =
      signNumber s * signBit + (exponent.toNat * fractionLimit + fraction.toNat) := by
  unfold packComponents
  rw [BitVec.toNat_append, BitVec.toNat_append, ← Nat.shiftLeft_add_eq_or_of_lt fraction.isLt,
    ← Nat.shiftLeft_add_eq_or_of_lt exponent.isLt, Nat.shiftLeft_eq, Nat.shiftLeft_eq]
  simp only [signNumber, signBit, fractionLimit]
  omega

/-- The fraction of a number. -/
theorem toNat_unpackMantissa :
    (@unpackMantissa Format.binary64 b).toNat = b.toNat % fractionLimit := by
  unfold unpackMantissa
  rw [BitVec.toNat_cast, BitVec.extractLsb_toNat]
  rfl

/-- The exponent of a number. -/
theorem toNat_unpackExponent :
    (@unpackExponent Format.binary64 b).toNat = b.toNat / fractionLimit % 2048 := by
  unfold unpackExponent
  rw [BitVec.toNat_cast, BitVec.extractLsb_toNat, Nat.shiftRight_eq_div_pow]
  rfl

/-- The sign of a number. -/
theorem toNat_unpackSign :
    (@unpackSign Format.binary64 b).toNat = b.toNat / signBit % 2 := by
  unfold unpackSign
  rw [BitVec.toNat_cast, BitVec.extractLsb_toNat, Nat.shiftRight_eq_div_pow]
  rfl

/-- The sign of a number is negative where its bit is set. -/
theorem ofBitVec_unpackSign : Sign.ofBitVec (@unpackSign Format.binary64 b) =
    if signBit ≤ b.toNat then .negative else .positive := by
  have hbound := b.isLt
  have hbit := toNat_unpackSign b
  unfold Sign.ofBitVec
  by_cases hset : signBit ≤ b.toNat
  · have hone : (@unpackSign Format.binary64 b).toNat = 1 := by
      simp only [signBit] at hbit hset
      omega
    rw [if_pos hset, if_neg]
    intro hzero
    rw [hzero] at hone
    exact absurd hone (by decide)
  · have hzero : (@unpackSign Format.binary64 b).toNat = 0 := by
      simp only [signBit] at hbit hset
      omega
    rw [if_neg hset, if_pos (BitVec.eq_of_toNat_eq hzero)]

/-- The bits of a double are its sign and its magnitude. -/
theorem toNat_bits (x : Double) : x.bits.toNat = signNumber x.signOf * signBit + x.magnitude := by
  have hbound := x.bits.toNat_lt
  have hnumber : signNumber .negative = 1 ∧ signNumber .positive = 0 := by decide
  unfold signOf isNegative magnitude
  by_cases hset : signBit ≤ x.bits.toNat
  · rw [decide_eq_true hset, if_pos rfl, hnumber.1]
    simp only [signBit] at hset ⊢
    omega
  · rw [decide_eq_false hset, if_neg Bool.false_ne_true, hnumber.2]
    simp only [signBit] at hset ⊢
    omega

/-- A sign and a magnitude are found in the bits that they make up. -/
theorem magnitude_of_toNat_bits {x z : Double} {code : Nat}
    (h : z.bits.toNat = signNumber x.signOf * signBit + code) (hcode : code < infiniteMagnitude) :
    z.magnitude = code ∧ z.isNegative = x.isNegative := by
  have hnumber : signNumber .negative = 1 ∧ signNumber .positive = 0 := by decide
  have hlt : code < signBit := hcode.trans (by decide)
  unfold signOf at h
  unfold magnitude
  cases hx : x.isNegative
  · rw [hx, if_neg Bool.false_ne_true, hnumber.2, Nat.zero_mul, Nat.zero_add] at h
    rw [isNegative, h]
    exact ⟨Nat.mod_eq_of_lt hlt, decide_eq_false (Nat.not_le.mpr hlt)⟩
  · rw [hx, if_pos rfl, hnumber.1, Nat.one_mul] at h
    rw [isNegative, h, Nat.add_mod_left]
    exact ⟨Nat.mod_eq_of_lt hlt, decide_eq_true (Nat.le_add_right _ _)⟩

end Layout

/-! ### Numbers with a full significand -/

section Normal

variable {m e : Nat}

/-- **A significand with an exponent is packed** into its sign and its code. -/
theorem toNat_pack (s : Sign) (hpos : 0 < m) (hlow : fractionLimit ≤ m)
    (hhigh : m < 2 * fractionLimit) (hfinite : e * fractionLimit + m < infiniteMagnitude) :
    (UnpackedFloat.pack Format.binary64 (.finite s m ((e : Int) - 1074) hpos)).toNat =
      signNumber s * signBit + (e * fractionLimit + m) := by
  have hlog : m.log2 = 52 := (Nat.log2_eq_iff hpos.ne').mpr ⟨hlow, hhigh⟩
  have hexponent : ((e : Int) - 1074 + (Format.binary64.exponentBias : Nat) +
      (Format.binary64.mantissaBitsWithoutImplicit : Nat)).toNat = e + 1 := by
    simp [Format.exponentBias]
    omega
  simp only [fractionLimit, infiniteMagnitude] at hlow hhigh hfinite
  have hroom : ¬2 ^ Format.binary64.exponentBits ≤ e + 1 + 1 := by
    show ¬2048 ≤ e + 1 + 1
    omega
  unfold UnpackedFloat.pack
  dsimp only
  rw [hexponent, if_neg hroom, hlog, if_pos (show 52 + 1 = Format.binary64.mantissaBits from rfl)]
  refine (toNat_packComponents s _ _).trans ?_
  rw [BitVec.toNat_ofNat, BitVec.toNat_ofNat]
  simp only [fractionLimit]
  omega

/-- **A code is unpacked** into its significand and its exponent. -/
theorem unpack_of_toNat {b : BitVec 64} (hpos : 0 < m) (hlow : fractionLimit ≤ m)
    (hhigh : m < 2 * fractionLimit) (hfinite : e * fractionLimit + m < infiniteMagnitude)
    (hb : b.toNat % signBit = e * fractionLimit + m) :
    UnpackedFloat.unpack Format.binary64 b =
      .finite (if signBit ≤ b.toNat then .negative else .positive) m ((e : Int) - 1074) hpos := by
  have hbound := b.isLt
  have hexponent := toNat_unpackExponent b
  have hfraction := toNat_unpackMantissa b
  simp only [signBit, fractionLimit, infiniteMagnitude] at hlow hhigh hfinite hb hexponent hfraction
  have hexponent' : (@unpackExponent Format.binary64 b).toNat = e + 1 := by omega
  have hnotAll : @unpackExponent Format.binary64 b ≠ -1#11 := fun h => by
    rw [h] at hexponent'
    simp at hexponent'
    omega
  have hnotZero : @unpackExponent Format.binary64 b ≠ 0#11 := fun h => by
    rw [h] at hexponent'
    simp at hexponent'
  have hsignificand : (1#1 ++ @unpackMantissa Format.binary64 b).toNat = m := by
    rw [BitVec.toNat_append, ← Nat.shiftLeft_add_eq_or_of_lt (BitVec.isLt _), Nat.shiftLeft_eq,
      hfraction]
    simp
    omega
  unfold UnpackedFloat.unpack
  dsimp only
  rw [if_neg hnotAll, if_neg hnotZero, ofBitVec_unpackSign]
  congr 1
  rw [hexponent']
  simp [Format.exponentBias]
  omega

/-- **A double is the same number for the machine.** -/
theorem unpack_toFloat {x : Double} (hpos : 0 < m) (hlow : fractionLimit ≤ m)
    (hhigh : m < 2 * fractionLimit) (hfinite : e * fractionLimit + m < infiniteMagnitude)
    (hx : x.magnitude = e * fractionLimit + m) :
    x.toFloat.toModel.unpack = .finite x.signOf m ((e : Int) - 1074) hpos := by
  have hunpacked : UnpackedFloat.unpack Format.binary64 x.bits.toBitVec =
      .finite x.signOf m ((e : Int) - 1074) hpos := by
    rw [unpack_of_toNat hpos hlow hhigh hfinite hx]
    simp only [signOf, isNegative, decide_eq_true_eq]
    rfl
  show UnpackedFloat.unpack Format.binary64 (UnpackedFloat.pack Format.binary64
    (UnpackedFloat.unpack Format.binary64 x.bits.toBitVec)) = _
  -- What has been unpacked is packed into the same bits again.
  have hsame : UnpackedFloat.pack Format.binary64
      (UnpackedFloat.unpack Format.binary64 x.bits.toBitVec) = x.bits.toBitVec := by
    refine BitVec.eq_of_toNat_eq ?_
    rw [hunpacked, toNat_pack _ hpos hlow hhigh hfinite, ← hx]
    exact x.toNat_bits.symm
  rw [hsame, hunpacked]

end Normal

end TrafficBoard.Number.Double
