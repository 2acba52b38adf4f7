import Mathlib
import TrafficBoard.Number.Double

namespace TrafficBoard.Number.Double

/-!
# Values of doubles — the rational number that a finite one denotes

* `size` is the magnitude of a finite number as a rational number, `value` has its sign as well;
* `unitsOf` counts a magnitude in the least one above zero, and `size_eq` says that it is the size;
* `strictMono_codeSize` says that sizes are ordered as the bits of the magnitudes are, and
  `le_iff_value_le` that the order of values is the one of the rational numbers;
* `value_ofInt` says that whole numbers below `2 ^ 53` are denoted exactly.

A magnitude is `m · 2 ^ e` in units of the least one, where `m` has at most fifty-three bits and
exactly fifty-three unless `e` is zero. Its bits are then `e · 2 ^ 52 + m`: the leading bit of `m`
counts the exponent up by one. That holds for `m = 2 ^ 53` as well, which is the next binade.
-/

/-! ### Magnitudes in units of the least one -/

/-- The magnitude with a code, in units of the least one above zero. -/
def unitsOf (code : Nat) : Nat :=
  if code < fractionLimit then code
  else (fractionLimit + code % fractionLimit) * 2 ^ (code / fractionLimit - 1)

/-- **A significand with an exponent is denoted by their sum in place.** -/
theorem unitsOf_mul_add {m e : Nat} (hm : m ≤ 2 * fractionLimit)
    (hnormal : fractionLimit ≤ m ∨ e = 0) : unitsOf (e * fractionLimit + m) = m * 2 ^ e := by
  have hpos : 0 < fractionLimit := by decide
  unfold unitsOf
  rcases Nat.lt_or_ge m fractionLimit with hlow | hlow
  · obtain rfl : e = 0 := hnormal.resolve_left (Nat.not_le.mpr hlow)
    rw [Nat.zero_mul, Nat.zero_add, if_pos hlow, pow_zero, Nat.mul_one]
  · rw [if_neg (by omega)]
    rcases hm.lt_or_eq with hhigh | rfl
    · have hdiv : (e * fractionLimit + m) / fractionLimit = e + 1 := by
        rw [Nat.add_comm, Nat.add_mul_div_right _ _ hpos, Nat.div_eq_of_lt_le (k := 1)]
        all_goals omega
      have hmod : (e * fractionLimit + m) % fractionLimit = m - fractionLimit := by
        rw [Nat.add_comm, Nat.add_mul_mod_self_right, Nat.mod_eq_sub_mod hlow,
          Nat.mod_eq_of_lt (by omega)]
      rw [hdiv, hmod, Nat.add_sub_cancel' hlow, Nat.add_sub_cancel]
    · -- The significand has run over into the next binade.
      rw [← Nat.add_mul, Nat.mul_mod_left, Nat.mul_div_cancel _ hpos, Nat.add_zero,
        show e + 2 - 1 = e + 1 from rfl, pow_succ]
      ring

/-- Every code is a significand with an exponent in place. -/
theorem exists_significand (code : Nat) :
    ∃ m e, code = e * fractionLimit + m ∧ m < 2 * fractionLimit ∧ (fractionLimit ≤ m ∨ e = 0) := by
  have hsplit := Nat.div_add_mod' code fractionLimit
  have hmod : code % fractionLimit < fractionLimit := Nat.mod_lt _ (by decide)
  rcases Nat.eq_zero_or_pos (code / fractionLimit) with hzero | hpos
  · rw [hzero] at hsplit
    exact ⟨code, 0, by omega, by omega, Or.inr rfl⟩
  · obtain ⟨e, he⟩ := Nat.exists_eq_add_of_le' hpos
    rw [he, Nat.add_mul] at hsplit
    exact ⟨fractionLimit + code % fractionLimit, e, by omega, by omega, Or.inl (by omega)⟩

/-- The next magnitude is one unit of the last place away. -/
theorem unitsOf_succ {m e : Nat} (hm : m < 2 * fractionLimit)
    (hnormal : fractionLimit ≤ m ∨ e = 0) :
    unitsOf (e * fractionLimit + m + 1) = (m + 1) * 2 ^ e := by
  rw [Nat.add_assoc]
  exact unitsOf_mul_add hm (hnormal.imp_left fun h => h.trans (Nat.le_succ m))

/-- Magnitudes are ordered as their codes are. -/
theorem strictMono_unitsOf : StrictMono unitsOf := by
  refine strictMono_nat_of_lt_succ fun code => ?_
  obtain ⟨m, e, rfl, hm, hnormal⟩ := exists_significand code
  rw [unitsOf_succ hm hnormal, unitsOf_mul_add hm.le hnormal]
  exact Nat.mul_lt_mul_of_pos_right (Nat.lt_succ_self m) (by positivity)

/-! ### Sizes -/

/-- How many of the least unit make up one. -/
def unitsPerOne : ℚ :=
  2 ^ 1074

/-- A unit is not nothing. -/
theorem unitsPerOne_pos : 0 < unitsPerOne := by
  unfold unitsPerOne
  positivity

/-- One, as a product of two powers of two. -/
theorem pow_mul_pow {a b : Nat} (h : a + b = 1074) : (2 : ℚ) ^ a * 2 ^ b = unitsPerOne := by
  rw [← pow_add, h, unitsPerOne]

/-- A power of two that makes up one with the units left over. -/
theorem pow_eq_mul {a b : Nat} (h : a = b + 1074) : (2 : ℚ) ^ a = 2 ^ b * unitsPerOne := by
  rw [h, pow_add, unitsPerOne]

/-- The size of the magnitude with a code. -/
def codeSize (code : Nat) : ℚ :=
  unitsOf code / unitsPerOne

/-- Zero has the code zero. -/
@[simp] theorem codeSize_zero : codeSize 0 = 0 := by
  simp [codeSize, unitsOf, fractionLimit]

/-- **Sizes are ordered as the codes are.** -/
theorem strictMono_codeSize : StrictMono codeSize := fun _ _ h =>
  div_lt_div_of_pos_right (Nat.cast_lt.mpr (strictMono_unitsOf h)) unitsPerOne_pos

/-- No size is negative. -/
theorem codeSize_nonneg (code : Nat) : 0 ≤ codeSize code :=
  div_nonneg (Nat.cast_nonneg _) unitsPerOne_pos.le

/-- The fraction of a number has a denominator. -/
theorem den_pos (x : Double) : 0 < x.ratio.2 := by
  unfold ratio
  dsimp only
  split
  · exact Nat.one_pos
  · rw [Nat.pow_eq]
    positivity

/-- The size of a finite number: its magnitude as a rational number. -/
def size (x : Double) : ℚ :=
  x.ratio.1 / x.ratio.2

/-- A number is read as the significand and the exponent of its code. -/
theorem parts_eq {x : Double} {m e : Nat} (hcode : x.magnitude = e * fractionLimit + m)
    (hm : m < 2 * fractionLimit) (hnormal : fractionLimit ≤ m ∨ e = 0) :
    x.parts = (m, (e : Int) - 1074) := by
  have hpos : 0 < fractionLimit := by decide
  unfold parts
  dsimp only
  rw [hcode]
  rcases Nat.lt_or_ge m fractionLimit with hlow | hlow
  · obtain rfl : e = 0 := hnormal.resolve_left (Nat.not_le.mpr hlow)
    rw [Nat.zero_mul, Nat.zero_add, Nat.div_eq_of_lt hlow, if_pos rfl, Nat.mod_eq_of_lt hlow]
    rfl
  · have hdiv : (e * fractionLimit + m) / fractionLimit = e + 1 := by
      rw [Nat.add_comm, Nat.add_mul_div_right _ _ hpos, Nat.div_eq_of_lt_le (k := 1)]
      all_goals omega
    have hmod : (e * fractionLimit + m) % fractionLimit = m - fractionLimit := by
      rw [Nat.add_comm, Nat.add_mul_mod_self_right, Nat.mod_eq_sub_mod hlow,
        Nat.mod_eq_of_lt (by omega)]
    rw [hdiv, hmod, if_neg (Nat.succ_ne_zero e), Nat.add_sub_cancel' hlow]
    congr 1
    omega

/-- **The size of a number is that of its code.** -/
theorem size_eq (x : Double) : x.size = codeSize x.magnitude := by
  obtain ⟨m, e, hcode, hm, hnormal⟩ := exists_significand x.magnitude
  have hparts := parts_eq hcode hm hnormal
  unfold size ratio codeSize
  rw [hparts, hcode, unitsOf_mul_add hm.le hnormal, eq_div_iff unitsPerOne_pos.ne']
  dsimp only
  split_ifs with hexponent
  · -- In units of the least magnitude, the exponent is 1074 above that of the number.
    have hsum : e = ((e : Int) - 1074).toNat + 1074 := by omega
    have hpow := pow_eq_mul hsum
    rw [Nat.pow_eq]
    push_cast
    rw [hpow]
    ring
  · have hsum : e + (-((e : Int) - 1074)).toNat = 1074 := by omega
    generalize (-((e : Int) - 1074)).toNat = d at hsum
    rw [← pow_mul_pow hsum, Nat.pow_eq]
    push_cast
    field_simp

/-- No number has a negative size. -/
theorem size_nonneg (x : Double) : 0 ≤ x.size :=
  x.size_eq ▸ codeSize_nonneg _

/-- The rational number that a finite double denotes. -/
def value (x : Double) : ℚ :=
  if x.isNegative then -x.size else x.size

/-- The size is the value without its sign. -/
theorem abs_value (x : Double) : |x.value| = x.size := by
  unfold value
  split
  · rw [abs_neg, abs_of_nonneg x.size_nonneg]
  · exact abs_of_nonneg x.size_nonneg

/-- A number without a minus sign is its size. -/
theorem value_of_not_isNegative {x : Double} (h : x.isNegative = false) : x.value = x.size := by
  rw [value, h, if_neg Bool.false_ne_true]

/-- A finite number is a number. -/
theorem isNaN_of_isFinite {x : Double} (h : x.isFinite) : x.isNaN = false := by
  simp only [isFinite, isNaN, decide_eq_true_eq, decide_eq_false_iff_not] at h ⊢
  omega

/-- **The order of values** is that of the rational numbers. -/
theorem valueKey_lt_iff (x y : Double) : x.valueKey < y.valueKey ↔ x.value < y.value := by
  have hmono {a b : Nat} : codeSize a < codeSize b ↔ a < b := strictMono_codeSize.lt_iff_lt
  have hx := codeSize_nonneg x.magnitude
  have hy := codeSize_nonneg y.magnitude
  unfold valueKey value
  rw [size_eq, size_eq]
  split_ifs
  · rw [neg_lt_neg_iff, neg_lt_neg_iff, hmono, Nat.cast_lt]
  · -- A negative number is below another just if one of the two is not zero.
    have hzero : codeSize x.magnitude = 0 ∧ codeSize y.magnitude = 0 ↔
        x.magnitude = 0 ∧ y.magnitude = 0 := by
      rw [← codeSize_zero, strictMono_codeSize.injective.eq_iff,
        strictMono_codeSize.injective.eq_iff]
    constructor
    · intro h
      by_contra hle
      have := hzero.1 ⟨by linarith, by linarith⟩
      omega
    · intro h
      by_contra hle
      have := hzero.2 ⟨by omega, by omega⟩
      rw [this.1, this.2, neg_zero] at h
      exact lt_irrefl _ h
  · exact ⟨fun h => by omega, fun h => by linarith⟩
  · rw [hmono, Nat.cast_lt]

section Order

variable {x y : Double}

/-- A finite number is below another if its value is. -/
theorem lt_iff_value_lt (hx : x.isFinite) (hy : y.isFinite) : x.lt y ↔ x.value < y.value := by
  simp [lt, isNaN_of_isFinite hx, isNaN_of_isFinite hy, valueKey_lt_iff]

/-- A finite number is at most another if its value is. -/
theorem le_iff_value_le (hx : x.isFinite) (hy : y.isFinite) : x.le y ↔ x.value ≤ y.value := by
  rw [← not_lt, ← valueKey_lt_iff, not_lt]
  simp [le, isNaN_of_isFinite hx, isNaN_of_isFinite hy]

end Order

/-! ### Whole numbers -/

/-- The exponent of the last place of a whole number below `2 ^ 53`. -/
theorem lastPlace_one {n : Nat} (hpos : n ≠ 0) (hn : n < 2 ^ 53) :
    lastPlace n 1 = (n.log2 : Int) - 52 := by
  have hlog : n.log2 < 53 := (Nat.log2_lt hpos).mpr hn
  have hone : Nat.log2 1 = 0 := by decide
  have hestimate : max (-1074) ((n.log2 : Int) - (Nat.log2 1 : Nat) - 53) = n.log2 - 53 := by
    rw [hone]
    omega
  have hunits : inUnits n 1 ((n.log2 : Int) - 53) = (n * Nat.pow 2 (53 - n.log2), 1) := by
    have hexponent : (-((n.log2 : Int) - 53)).toNat = 53 - n.log2 := by omega
    rw [inUnits, powers, if_neg (by omega), hexponent]
  have hlow : 2 ^ 53 ≤ n * Nat.pow 2 (53 - n.log2) := by
    rw [Nat.pow_eq]
    calc 2 ^ 53 = 2 ^ n.log2 * 2 ^ (53 - n.log2) := by rw [← pow_add]; congr 1; omega
      _ ≤ n * 2 ^ (53 - n.log2) := Nat.mul_le_mul_right _ (Nat.log2_self_le hpos)
  unfold lastPlace
  dsimp only
  rw [hestimate, hunits, if_pos]
  · omega
  · rw [Nat.div_one]
    exact hlow

/-- A whole quotient is not rounded. -/
theorem roundDiv_one (n : Nat) : roundDiv n 1 = n := by
  simp [roundDiv, Nat.mod_one]

/-- **A whole number below `2 ^ 53` has a code of its own size.** -/
theorem bits_ofNat {n : Nat} (hn : n < 2 ^ 53) :
    (ofNat n).bits.toNat < infiniteMagnitude ∧ codeSize (ofNat n).bits.toNat = n := by
  rcases Nat.eq_zero_or_pos n with rfl | hpos
  · exact ⟨by decide, codeSize_zero.trans Nat.cast_zero.symm⟩
  have hne : n ≠ 0 := hpos.ne'
  have hlog : n.log2 < 53 := (Nat.log2_lt hne).mpr hn
  -- The significand is the number moved up to its fifty-three bits.
  let m := n * 2 ^ (52 - n.log2)
  have hlow : fractionLimit ≤ m := by
    calc fractionLimit = 2 ^ n.log2 * 2 ^ (52 - n.log2) := by
          rw [← pow_add, show n.log2 + (52 - n.log2) = 52 by omega]; rfl
      _ ≤ m := Nat.mul_le_mul_right _ (Nat.log2_self_le hne)
  have hhigh : m < 2 * fractionLimit := by
    calc m < 2 ^ (n.log2 + 1) * 2 ^ (52 - n.log2) :=
          Nat.mul_lt_mul_of_pos_right Nat.lt_log2_self (by positivity)
      _ = 2 * fractionLimit := by
          rw [← pow_add, show n.log2 + 1 + (52 - n.log2) = 53 by omega]; rfl
  have hunits : inUnits n 1 ((n.log2 : Int) - 52) = (m, 1) := by
    unfold inUnits powers
    split_ifs with h
    · have hlast : n.log2 = 52 := by omega
      simp [m, hlast]
    · have hexponent : (-((n.log2 : Int) - 52)).toNat = 52 - n.log2 := by omega
      rw [hexponent]
      rfl
  have hcode : (ofNat n).bits.toNat = (n.log2 + 1022) * fractionLimit + m := by
    have hexponent : ((n.log2 : Int) - 52 + 1074).toNat = n.log2 + 1022 := by omega
    unfold ofNat ofRatio
    rw [if_neg hne]
    dsimp only
    rw [lastPlace_one hne hn, hunits, roundDiv_one, hexponent, UInt64.toNat_ofNat']
    simp only [fractionLimit, infiniteMagnitude] at hhigh ⊢
    omega
  rw [hcode]
  constructor
  · simp only [fractionLimit, infiniteMagnitude] at hhigh ⊢
    omega
  · have hsum : 52 - n.log2 + (n.log2 + 1022) = 1074 := by omega
    rw [codeSize, unitsOf_mul_add hhigh.le (Or.inl hlow), div_eq_iff unitsPerOne_pos.ne',
      ← pow_mul_pow hsum]
    push_cast [m]
    exact mul_assoc _ _ _

section Signs

variable {x : Double}

/-- Bits below the sign bit are a magnitude without a sign. -/
theorem magnitude_of_lt (h : x.bits.toNat < signBit) :
    x.magnitude = x.bits.toNat ∧ x.isNegative = false :=
  ⟨Nat.mod_eq_of_lt h, by simpa [isNegative] using h⟩

/-- Another sign leaves the magnitude alone. -/
theorem magnitude_neg (x : Double) : x.neg.magnitude = x.magnitude := by
  unfold magnitude neg signBit
  rw [UInt64.toNat_xor]
  have hsign : (0x8000000000000000 : UInt64).toNat = 2 ^ 63 := by decide
  rw [hsign, show (0x8000000000000000 : Nat) = 2 ^ 63 by decide, Nat.xor_mod_two_pow, Nat.mod_self,
    Nat.xor_zero]

/-- Another sign is the other one. -/
theorem isNegative_neg (x : Double) : x.neg.isNegative = !x.isNegative := by
  have hbound := x.bits.toNat_lt
  have hneg := x.neg.bits.toNat_lt
  have htest (y : Double) : y.isNegative = y.bits.toNat.testBit 63 := by
    unfold isNegative signBit
    have := y.bits.toNat_lt
    rw [Nat.testBit_eq_decide_div_mod_eq]
    congr 1
    rw [eq_iff_iff]
    omega
  rw [htest, htest, neg, UInt64.toNat_xor, Nat.testBit_xor]
  have hsign : (0x8000000000000000 : UInt64).toNat.testBit 63 = true := by decide
  rw [hsign, Bool.xor_true]

/-- Without its sign, a number has the same magnitude. -/
theorem magnitude_abs (x : Double) : x.abs.magnitude = x.magnitude ∧ x.abs.isNegative = false := by
  have hbits : x.abs.bits.toNat = x.magnitude := by
    unfold abs magnitude signBit
    rw [UInt64.toNat_and, show (0x7fffffffffffffff : UInt64).toNat = 2 ^ 63 - 1 by decide,
      Nat.and_two_pow_sub_one_eq_mod]
  have hlt : x.abs.bits.toNat < signBit := hbits ▸ Nat.mod_lt _ (by decide)
  exact ⟨(magnitude_of_lt hlt).1.trans hbits, (magnitude_of_lt hlt).2⟩

/-- Without its sign, a finite number is finite. -/
theorem isFinite_abs (x : Double) : x.abs.isFinite = x.isFinite := by
  rw [isFinite, isFinite, (magnitude_abs x).1]

/-- Without its sign, a number denotes the absolute value. -/
theorem value_abs (x : Double) : x.abs.value = |x.value| := by
  obtain ⟨hmagnitude, hsign⟩ := magnitude_abs x
  rw [value_of_not_isNegative hsign, size_eq, hmagnitude, ← size_eq, abs_value]

end Signs

/-- **Whole numbers below `2 ^ 53` are denoted exactly.** -/
theorem value_ofNat {n : Nat} (hn : n < 2 ^ 53) :
    (ofNat n).isFinite ∧ (ofNat n).isNegative = false ∧ (ofNat n).value = n := by
  obtain ⟨hfinite, hsize⟩ := bits_ofNat hn
  obtain ⟨hmagnitude, hsign⟩ := magnitude_of_lt (hfinite.trans (by decide))
  refine ⟨?_, hsign, ?_⟩
  · rw [isFinite, hmagnitude]
    exact decide_eq_true hfinite
  · rw [value_of_not_isNegative hsign, size_eq, hmagnitude, hsize]

/-- So are whole numbers of either sign. -/
theorem value_ofInt {n : Int} (hn : n.natAbs < 2 ^ 53) :
    (ofInt n).isFinite ∧ (ofInt n).value = n := by
  obtain ⟨hfinite, hsign, hvalue⟩ := value_ofNat hn
  unfold ofInt
  split_ifs with hneg
  · have hsize : (ofNat n.natAbs).size = n.natAbs := by
      rw [← hvalue, ← abs_value, hvalue, abs_of_nonneg (Nat.cast_nonneg _)]
    constructor
    · rw [isFinite, magnitude_neg]
      exact hfinite
    · rw [value, isNegative_neg, hsign, if_pos (by decide), size_eq, magnitude_neg, ← size_eq,
        hsize, Nat.cast_natAbs, abs_of_neg hneg]
      push_cast
      ring
  · refine ⟨hfinite, hvalue.trans ?_⟩
    rw [Nat.cast_natAbs, abs_of_nonneg (not_lt.mp hneg)]

/-- The whole part of a whole number is the number. -/
theorem truncate_of_value {x : Double} {n : Int} (h : x.value = n) : x.truncate = n := by
  have hden : (0 : ℚ) < x.ratio.2 := Nat.cast_pos.mpr x.den_pos
  have hsize : x.size = n.natAbs := by
    rw [← abs_value, h, Nat.cast_natAbs, Int.cast_abs]
  have hwhole : x.ratio.1 / x.ratio.2 = n.natAbs := by
    refine Nat.div_eq_of_eq_mul_left x.den_pos ?_
    rw [size, div_eq_iff hden.ne'] at hsize
    exact_mod_cast hsize
  unfold truncate
  show (if x.isNegative then -((x.ratio.1 / x.ratio.2 : Nat) : Int)
    else (x.ratio.1 / x.ratio.2 : Nat)) = n
  rw [hwhole, Int.natCast_natAbs]
  rw [value, hsize, Nat.cast_natAbs] at h
  split_ifs at h ⊢
  · exact_mod_cast h
  · exact_mod_cast h

end TrafficBoard.Number.Double
