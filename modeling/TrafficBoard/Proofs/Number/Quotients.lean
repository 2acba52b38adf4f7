import Mathlib
import TrafficBoard.Number.Rounding
import TrafficBoard.Proofs.Number.Packing

namespace TrafficBoard.Number.Double

open Float.Model
open Float.Model.UnpackedFloat (Accuracy ExtendedMantissa Sign accuracyOfFraction roundWithAccuracy
  shiftToTargetExponent)

/-!
# Quotients — a quotient of doubles is the double nearest to the exact one

* `Nearest` says that a rational number lies between the midpoints around the magnitude with a code;
* `nearest_of_roundDiv` says that a significand rounded to the nearest whole number gives such a
  magnitude;
* `Holds` says what the bits after a significand of the machine tell of a fraction, and
  `Holds.roundedMantissa` that rounding by them is rounding the fraction;
* `div_nearest` puts this together: the quotient of a number by one that is at least one and no
  greater is the nearest number, with the sign of the dividend;
* `size_div_two_pow` says that a quotient by a power of two is exact, and `le_size_div_iff` where a
  quotient reaches a bound just if the exact one does.
-/

/-! ### The nearest magnitude -/

/-- A code whose magnitude is nearest to a number: whichever midpoint between two magnitudes the
number is off, the code is on the same side of it. -/
structure Nearest (q : ℚ) (code : Nat) : Prop where
  le_of_lt : ∀ other, 2 * q < codeSize other + codeSize (other + 1) → code ≤ other
  lt_of_lt : ∀ other, codeSize other + codeSize (other + 1) < 2 * q → other < code

/-- A number that is at least a magnitude is rounded to that at least. -/
theorem Nearest.le_of_codeSize_le {q : ℚ} {code other : Nat} (h : Nearest q code)
    (hq : codeSize other ≤ q) : other ≤ code := by
  rcases Nat.eq_zero_or_pos other with rfl | hpos
  · exact Nat.zero_le code
  · obtain ⟨before, rfl⟩ := Nat.exists_eq_add_of_le' hpos
    have hprevious : codeSize before < codeSize (before + 1) :=
      strictMono_codeSize (Nat.lt_succ_self before)
    exact h.lt_of_lt before (by linarith)

/-- A number that is a magnitude is the nearest one. -/
theorem Nearest.eq_of_codeSize {q : ℚ} {code other : Nat} (h : Nearest q code)
    (hq : q = codeSize other) : code = other := by
  have hnext : codeSize other < codeSize (other + 1) := strictMono_codeSize (Nat.lt_succ_self other)
  exact le_antisymm (h.le_of_lt other (by linarith)) (h.le_of_codeSize_le hq.ge)

/-- A rounded quotient that is at most a whole number is rounded to that at most. -/
theorem roundDiv_le {num den k : Nat} (hden : 0 < den) (h : num ≤ k * den) :
    roundDiv num den ≤ k := by
  have hbound := roundDiv_two_mul_le num den
  by_contra hlt
  have : den * (k + 1) ≤ den * roundDiv num den := Nat.mul_le_mul_left _ (by omega)
  have : den * (k + 1) = k * den + den := by ring
  omega

/-- A rounded quotient that is at least a whole number is rounded to that at least. -/
theorem le_roundDiv {num den k : Nat} (hden : 0 < den) (h : k * den ≤ num) :
    k ≤ roundDiv num den := by
  have hbound := two_mul_le_roundDiv num den hden
  by_contra hlt
  have : den * (roundDiv num den + 1) ≤ den * k := Nat.mul_le_mul_left _ (by omega)
  have : den * (roundDiv num den + 1) = den * roundDiv num den + den := by ring
  have : den * k = k * den := Nat.mul_comm _ _
  omega

/-- The size of the last place of a significand with an exponent. -/
def lastPlaceSize (e : Nat) : ℚ :=
  2 ^ e / unitsPerOne

/-- A last place has a size. -/
theorem lastPlaceSize_pos (e : Nat) : 0 < lastPlaceSize e :=
  div_pos (by positivity) unitsPerOne_pos

section Significand

variable {m e : Nat} (hlow : fractionLimit ≤ m) (hhigh : m ≤ 2 * fractionLimit)

include hlow hhigh

/-- A significand is counted in its last places. -/
theorem codeSize_mul_add : codeSize (e * fractionLimit + m) = m * lastPlaceSize e := by
  rw [codeSize, unitsOf_mul_add hhigh (Or.inl hlow), lastPlaceSize]
  push_cast
  ring

/-- The next magnitude is a last place away at least. -/
theorem le_codeSize_succ : (m + 1) * lastPlaceSize e ≤ codeSize (e * fractionLimit + m + 1) := by
  rcases hhigh.lt_or_eq with hlt | rfl
  · rw [Nat.add_assoc, codeSize_mul_add (hlow.trans (Nat.le_succ m)) hlt]
    push_cast
    exact le_rfl
  · -- The significand has run over, so the next one counts in places of twice the size.
    have hcode : e * fractionLimit + 2 * fractionLimit + 1 =
        (e + 1) * fractionLimit + (fractionLimit + 1) := by ring
    have htwice : lastPlaceSize (e + 1) = 2 * lastPlaceSize e := by
      unfold lastPlaceSize
      rw [pow_succ]
      ring
    have := lastPlaceSize_pos e
    rw [hcode, codeSize_mul_add (Nat.le_succ _) (by decide), htwice]
    push_cast
    linarith

end Significand

/-- **A rounded significand gives the nearest magnitude,** as long as it has all of its bits. -/
theorem nearest_of_roundDiv {num den e : Nat} (hden : 0 < den) (hlow : fractionLimit * den ≤ num)
    (hhigh : num ≤ 2 * fractionLimit * den) {q : ℚ} (hq : q = num / den * lastPlaceSize e) :
    Nearest q (e * fractionLimit + roundDiv num den) := by
  have hm : fractionLimit ≤ roundDiv num den := le_roundDiv hden hlow
  have hm' : roundDiv num den ≤ 2 * fractionLimit := roundDiv_le hden hhigh
  have hden' : (0 : ℚ) < den := Nat.cast_pos.mpr hden
  have hplace := lastPlaceSize_pos e
  have hnearest : 2 * (den * roundDiv num den : ℚ) ≤ 2 * num + den ∧
      (2 * num : ℚ) ≤ 2 * (den * roundDiv num den) + den :=
    ⟨by exact_mod_cast roundDiv_two_mul_le num den,
      by exact_mod_cast two_mul_le_roundDiv num den hden⟩
  have hnum : (num : ℚ) = den * (num / den) := (mul_div_cancel₀ _ hden'.ne').symm
  have hleast : (fractionLimit : ℚ) ≤ num / den := by
    rw [le_div_iff₀ hden']
    exact_mod_cast hlow
  generalize (num : ℚ) / den = t at hq hnum hleast
  generalize roundDiv num den = m at hm hm' hnearest
  -- The exact significand is within half of one of the rounded one.
  obtain ⟨hbelow, habove⟩ : 2 * (m : ℚ) ≤ 2 * t + 1 ∧ 2 * t ≤ 2 * (m : ℚ) + 1 := by
    rw [hnum] at hnearest
    exact ⟨le_of_mul_le_mul_left (by linarith) hden', le_of_mul_le_mul_left (by linarith) hden'⟩
  subst hq
  have hcode := codeSize_mul_add (e := e) hm hm'
  have hmono {a b : Nat} (h : a ≤ b) : codeSize a ≤ codeSize b := strictMono_codeSize.monotone h
  constructor
  · intro other h
    by_contra hlt
    have hlast := hmono (show other + 1 ≤ e * fractionLimit + m by omega)
    rcases hm.lt_or_eq with hmore | rfl
    · -- Both magnitudes are at least half a place below the significand.
      obtain ⟨k, rfl⟩ := Nat.exists_eq_add_of_le' (Nat.zero_lt_of_lt hmore)
      have hprevious := codeSize_mul_add (e := e) (Nat.le_of_lt_succ hmore) (Nat.le_of_succ_le hm')
      have hfirst := hmono (show other ≤ e * fractionLimit + k by omega)
      have : 2 * t * lastPlaceSize e < (2 * k + 1) * lastPlaceSize e := by
        push_cast at hcode
        linarith
      have := lt_of_mul_lt_mul_right this hplace.le
      push_cast at hbelow
      linarith
    · -- Below the least significand the places are smaller, but nothing is rounded down to it.
      have hfirst := hmono (show other ≤ e * fractionLimit + fractionLimit by omega)
      have : 2 * t * lastPlaceSize e < 2 * fractionLimit * lastPlaceSize e := by linarith
      have := lt_of_mul_lt_mul_right this hplace.le
      linarith
  · intro other h
    by_contra hle
    have hfirst := hmono (show e * fractionLimit + m ≤ other by omega)
    have hnext := (le_codeSize_succ (e := e) hm hm').trans
      (hmono (show e * fractionLimit + m + 1 ≤ other + 1 by omega))
    have : (2 * m + 1) * lastPlaceSize e < 2 * t * lastPlaceSize e := by linarith
    have := lt_of_mul_lt_mul_right this hplace.le
    linarith

/-! ### Rounding by the bits after a significand -/

/-- A significand of the machine with two bits holds a fraction: its whole part, whether the rest is
at least a half, and whether there is more than that half or more than nothing. -/
structure Holds (em : ExtendedMantissa) (num den : Nat) : Prop where
  mantissa : em.mantissa = num / den
  roundBit : em.roundBit = decide (den ≤ 2 * (num % den))
  stickyBit : em.stickyBit = decide (2 * (num % den) ≠ 0 ∧ 2 * (num % den) ≠ den)

section Holds

variable {em : ExtendedMantissa} {num den : Nat}

/-- The whole part of a fraction is held with what is left of it. -/
theorem holds_ofFraction (hden : 0 < den) :
    Holds (.ofMantissaAndAccuracy (num / den) (accuracyOfFraction (num % den) den)) num den := by
  unfold accuracyOfFraction
  split_ifs with hzero
  · exact ⟨rfl, by simp [ExtendedMantissa.ofMantissaAndAccuracy, hzero]; omega,
      by simp [ExtendedMantissa.ofMantissaAndAccuracy, hzero]⟩
  · rcases lt_trichotomy (2 * (num % den)) den with hlt | heq | hgt
    · rw [compare_lt_iff_lt.mpr hlt]
      exact ⟨rfl, by simp [ExtendedMantissa.ofMantissaAndAccuracy]; omega,
        by simp [ExtendedMantissa.ofMantissaAndAccuracy]; omega⟩
    · rw [compare_eq_iff_eq.mpr heq]
      exact ⟨rfl, by simp [ExtendedMantissa.ofMantissaAndAccuracy]; omega,
        by simp [ExtendedMantissa.ofMantissaAndAccuracy]; omega⟩
    · rw [compare_gt_iff_gt.mpr hgt]
      exact ⟨rfl, by simp [ExtendedMantissa.ofMantissaAndAccuracy]; omega,
        by simp [ExtendedMantissa.ofMantissaAndAccuracy]; omega⟩

/-- A whole number is held without a rest. -/
theorem holds_exact (n : Nat) : Holds (.ofMantissaAndAccuracy n .exact) n 1 :=
  ⟨(Nat.div_one n).symm, by simp [ExtendedMantissa.ofMantissaAndAccuracy, Nat.mod_one],
    by simp [ExtendedMantissa.ofMantissaAndAccuracy, Nat.mod_one]⟩

/-- One bit to the right is half the fraction. -/
theorem Holds.shiftRightOne (h : Holds em num den) (hden : 0 < den) :
    Holds em.shiftRightOne num (2 * den) := by
  obtain ⟨mantissa, roundBit, stickyBit⟩ := em
  obtain ⟨hmantissa, hround, hsticky⟩ := h
  dsimp only at hmantissa hround hsticky
  have hrest := Nat.mod_lt num hden
  have hhalf : num / (2 * den) = num / den / 2 := by
    rw [Nat.mul_comm, Nat.div_div_eq_div_mul]
  -- What is left of half the fraction is the last bit of its whole part and what was left before.
  have hmod : num % (2 * den) = den * (num / den % 2) + num % den := by
    rw [Nat.mul_comm, Nat.mod_mul]
    omega
  subst hmantissa hround hsticky
  unfold ExtendedMantissa.shiftRightOne
  refine ⟨hhalf.symm, ?_, ?_⟩
  · rcases Nat.mod_two_eq_zero_or_one (num / den) with hbit | hbit
    · simpa [hmod, hbit] using hrest
    · simp [hmod, hbit]
  · rcases Nat.mod_two_eq_zero_or_one (num / den) with hbit | hbit
    · simp only [hmod, hbit]
      grind
    · simp only [hmod, hbit]
      grind

/-- So are any number of bits. -/
theorem Holds.shiftRight (h : Holds em num den) (hden : 0 < den) (k : Nat) :
    Holds (em >>> k) num (2 ^ k * den) := by
  show Holds (Nat.repeat ExtendedMantissa.shiftRightOne k em) num (2 ^ k * den)
  induction k with
  | zero => simpa [Nat.repeat] using h
  | succ k ih =>
    have hnext := ih.shiftRightOne (by positivity)
    rwa [← Nat.mul_assoc, ← pow_succ'] at hnext

/-- **Rounding by the bits is rounding the fraction.** -/
theorem Holds.roundedMantissa (h : Holds em num den) (hden : 0 < den) :
    em.roundedMantissa = roundDiv num den := by
  obtain ⟨mantissa, roundBit, stickyBit⟩ := em
  obtain ⟨hmantissa, hround, hsticky⟩ := h
  dsimp only at hmantissa hround hsticky
  have hrest := Nat.mod_lt num hden
  unfold ExtendedMantissa.roundedMantissa roundDiv
  dsimp only
  rcases lt_trichotomy (2 * (num % den)) den with hlt | heq | hgt
  · rw [decide_eq_false (by omega)] at hround
    rw [if_pos hlt, ← hmantissa]
    subst hround
    cases stickyBit
    all_goals rfl
  · rw [decide_eq_true (by omega)] at hround
    rw [decide_eq_false (by omega)] at hsticky
    rw [if_neg (by omega), if_neg (by omega), ← hmantissa]
    subst hround hsticky
    rfl
  · rw [decide_eq_true (by omega)] at hround
    rw [decide_eq_true (by omega)] at hsticky
    rw [if_neg (by omega), if_pos hgt, ← hmantissa]
    subst hround hsticky
    rfl

end Holds

/-! ### Significands in place -/

section Significands

variable {f num den : Nat} {e : Int}

/-- The exponent that a significand has when it is cut to its fifty-three bits. -/
theorem targetExponent_eq {k : Nat} (hlog : f.log2 = 52 + k) (he : -1074 ≤ e) :
    Format.binary64.targetExponent (totalExponent f e) = e + k := by
  simp [Format.targetExponent, totalExponent, Format.mantissaBits, Format.minExponent, hlog]
  omega

/-- A significand is shifted by the bits that it has too many. -/
theorem shiftToTargetExponent_eq {k : Nat} (hlog : f.log2 = 52 + k) (he : -1074 ≤ e)
    (accuracy : Accuracy) : shiftToTargetExponent Format.binary64 f e accuracy =
      (ExtendedMantissa.ofMantissaAndAccuracy f accuracy >>> k, e + k) := by
  have hshift : (e + k - e).toNat = k := by omega
  unfold shiftToTargetExponent UnpackedFloat.shiftToExponent
  dsimp only
  rw [targetExponent_eq hlog he, hshift]

/-- A rounded significand is put in place once more, if it has run over. -/
theorem exists_inPlace {r e : Nat} (hlow : fractionLimit ≤ r) (hhigh : r ≤ 2 * fractionLimit) :
    ∃ em e', shiftToTargetExponent Format.binary64 r ((e : Int) - 1074) .exact =
        (em, ((e' : Nat) : Int) - 1074) ∧
      (fractionLimit ≤ em.mantissa ∧ em.mantissa < 2 * fractionLimit) ∧
      e' * fractionLimit + em.mantissa = e * fractionLimit + r := by
  have hshifted {k : Nat} (hlog : r.log2 = 52 + k) :
      shiftToTargetExponent Format.binary64 r ((e : Int) - 1074) .exact =
          (ExtendedMantissa.ofMantissaAndAccuracy r .exact >>> k, ((e + k : Nat) : Int) - 1074) ∧
        (ExtendedMantissa.ofMantissaAndAccuracy r .exact >>> k).mantissa = r / 2 ^ k := by
    have hmantissa := ((holds_exact r).shiftRight Nat.one_pos k).mantissa
    rw [Nat.mul_one] at hmantissa
    refine ⟨(shiftToTargetExponent_eq hlog (by omega) .exact).trans ?_, hmantissa⟩
    congr 1
    push_cast
    ring
  rcases hhigh.lt_or_eq with hlt | rfl
  · have hne : r ≠ 0 := (Nat.lt_of_lt_of_le (by decide) hlow).ne'
    obtain ⟨hshift, hmantissa⟩ := hshifted (k := 0) ((Nat.log2_eq_iff hne).mpr ⟨hlow, hlt⟩)
    rw [pow_zero, Nat.div_one] at hmantissa
    exact ⟨_, e, hshift, by rw [hmantissa]; exact ⟨hlow, hlt⟩, by rw [hmantissa]⟩
  · obtain ⟨hshift, hmantissa⟩ := hshifted (k := 1) (by decide)
    rw [show 2 * fractionLimit / 2 ^ 1 = fractionLimit by decide] at hmantissa
    exact ⟨_, e + 1, hshift, by rw [hmantissa]; exact ⟨le_rfl, by decide⟩,
      by rw [hmantissa]; ring⟩

/-- A fraction of a binade lies between the first significands of two. -/
theorem bounds_of_log2 (hden : 0 < den) {k : Nat} (hlog : (num / den).log2 = 52 + k) :
    fractionLimit * (2 ^ k * den) ≤ num ∧ num ≤ 2 * fractionLimit * (2 ^ k * den) := by
  have hlimit : fractionLimit = 2 ^ 52 := rfl
  have hne : num / den ≠ 0 := fun h => by
    rw [h, Nat.log2_zero] at hlog
    omega
  obtain ⟨hleast, hgreatest⟩ := (Nat.log2_eq_iff hne).mp hlog
  constructor
  · calc fractionLimit * (2 ^ k * den) = 2 ^ (52 + k) * den := by rw [hlimit, pow_add]; ring
      _ ≤ num := (Nat.le_div_iff_mul_le hden).mp hleast
  · calc num ≤ 2 ^ (52 + k + 1) * den := ((Nat.div_lt_iff_lt_mul hden).mp hgreatest).le
      _ = 2 * fractionLimit * (2 ^ k * den) := by rw [hlimit, pow_succ, pow_add]; ring

/-- **A fraction is rounded to a significand in place.** -/
theorem exists_roundWithAccuracy (s : Sign) (hden : 0 < den) {e k : Nat}
    (hlog : (num / den).log2 = 52 + k) : ∃ m e' hpos,
      roundWithAccuracy Format.binary64 s (num / den) ((e : Int) - 1074)
          (accuracyOfFraction (num % den) den) = .finite s m (((e' : Nat) : Int) - 1074) hpos ∧
      (fractionLimit ≤ m ∧ m < 2 * fractionLimit) ∧
      e' * fractionLimit + m = (e + k) * fractionLimit + roundDiv num (2 ^ k * den) := by
  have hden' : 0 < 2 ^ k * den := by positivity
  obtain ⟨hlow, hhigh⟩ := bounds_of_log2 hden hlog
  have hfirst := shiftToTargetExponent_eq (e := (e : Int) - 1074) hlog (by omega)
    (accuracyOfFraction (num % den) den)
  have hheld : Holds (.ofMantissaAndAccuracy (num / den) (accuracyOfFraction (num % den) den)) num
    den := holds_ofFraction hden
  have hrounded := (hheld.shiftRight hden k).roundedMantissa hden'
  obtain ⟨em, e', hsecond, hem, hcode⟩ :=
    exists_inPlace (e := e + k) (le_roundDiv hden' hlow) (roundDiv_le hden' hhigh)
  have hexponent : (e : Int) - 1074 + k = ((e + k : Nat) : Int) - 1074 := by
    push_cast
    ring
  have hpos : em.mantissa ≠ 0 := (Nat.lt_of_lt_of_le (by decide) hem.1).ne'
  refine ⟨em.mantissa, e', Nat.pos_of_ne_zero hpos, ?_, hem, hcode⟩
  unfold roundWithAccuracy
  rw [hfirst]
  dsimp only
  rw [hrounded, hexponent, hsecond]
  dsimp only
  rw [dif_neg hpos]

end Significands

/-! ### Division -/

section Division

variable {m n e d : Nat}

/-- The machine divides two full significands with fifty-three bits more in the first. -/
theorem divCore_eq (hm : fractionLimit ≤ m ∧ m < 2 * fractionLimit)
    (hn : fractionLimit ≤ n ∧ n < 2 * fractionLimit) (h : d ≤ e) :
    UnpackedFloat.divCore Format.binary64 m ((e : Int) - 1074) n ((d : Int) - 1074) =
      (m * 2 ^ 53 / n, ((e - d + 1021 : Nat) : Int) - 1074,
        accuracyOfFraction (m * 2 ^ 53 % n) n) := by
  have hlog {m : Nat} (hm : fractionLimit ≤ m ∧ m < 2 * fractionLimit) : m.log2 = 52 :=
    (Nat.log2_eq_iff (Nat.lt_of_lt_of_le (by decide) hm.1).ne').mpr hm
  have htotal : totalExponent m ((e : Int) - 1074) - totalExponent n ((d : Int) - 1074) =
      e - d := by
    unfold totalExponent
    rw [hlog hm, hlog hn]
    ring
  have htarget : min ((e : Int) - 1074 - (d - 1074)) (Format.binary64.targetExponent (e - d)) =
      ((e - d + 1021 : Nat) : Int) - 1074 := by
    simp [Format.targetExponent, Format.mantissaBits, Format.minExponent]
    omega
  unfold UnpackedFloat.divCore
  dsimp only
  rw [htotal, htarget]
  have hshift : ((e : Int) - 1074 - (d - 1074) - (((e - d + 1021 : Nat) : Int) - 1074)).toNat =
      53 := by omega
  rw [hshift, Nat.shiftLeft_eq]

/-- A quotient of two full significands has fifty-three bits or one more. -/
theorem exists_log2_quotient (hm : fractionLimit ≤ m ∧ m < 2 * fractionLimit)
    (hn : fractionLimit ≤ n ∧ n < 2 * fractionLimit) :
    ∃ k, (m * 2 ^ 53 / n).log2 = 52 + k := by
  have hpos : 0 < n := Nat.lt_of_lt_of_le (by decide) hn.1
  have hlow : 2 ^ 52 ≤ m * 2 ^ 53 / n := by
    rw [Nat.le_div_iff_mul_le hpos]
    simp only [fractionLimit] at hm hn
    omega
  have := (Nat.le_log2 (Nat.lt_of_lt_of_le (by positivity) hlow).ne').mpr hlow
  exact Nat.exists_eq_add_of_le this

end Division

/-- A code above the smallest ones has a full significand. -/
theorem exists_full {code : Nat} (h : fractionLimit ≤ code) :
    ∃ m e, code = e * fractionLimit + m ∧ fractionLimit ≤ m ∧ m < 2 * fractionLimit := by
  obtain ⟨m, e, rfl, hhigh, hlow | rfl⟩ := exists_significand code
  · exact ⟨m, e, rfl, hlow, hhigh⟩
  · exact ⟨m, 0, rfl, by simpa using h, hhigh⟩

/-- Full significands have exponents in the order of their codes. -/
theorem exponent_le_of_code_le {m n d e : Nat} (hm : m < 2 * fractionLimit)
    (hn : fractionLimit ≤ n) (h : d * fractionLimit + n ≤ e * fractionLimit + m) : d ≤ e := by
  by_contra hlt
  have : (e + 1) * fractionLimit ≤ d * fractionLimit := Nat.mul_le_mul_right _ (by omega)
  rw [Nat.succ_mul] at this
  omega

/-- One is the first number of its binade. -/
theorem codeSize_one : codeSize (1022 * fractionLimit + fractionLimit) = 1 := by
  rw [codeSize_mul_add le_rfl (by decide), lastPlaceSize, ← pow_mul_pow (a := 52) (b := 1022) rfl]
  rw [show (fractionLimit : ℚ) = 2 ^ 52 by norm_num [fractionLimit]]
  field_simp

/-- The exact quotient of two full significands, counted in the last places of the rounded one. -/
theorem quotient_eq {m n d e : Nat} (hm : fractionLimit ≤ m ∧ m < 2 * fractionLimit)
    (hn : fractionLimit ≤ n ∧ n < 2 * fractionLimit) (h : d ≤ e) (k : Nat) :
    codeSize (e * fractionLimit + m) / codeSize (d * fractionLimit + n) =
      (m * 2 ^ 53 : Nat) / (2 ^ k * n : Nat) * lastPlaceSize (e - d + 1021 + k) := by
  obtain ⟨t, rfl⟩ := Nat.exists_eq_add_of_le h
  have hn' : (n : ℚ) ≠ 0 := Nat.cast_ne_zero.mpr (Nat.lt_of_lt_of_le (by decide) hn.1).ne'
  have hone : (2 : ℚ) ^ 53 * 2 ^ 1021 = unitsPerOne := pow_mul_pow rfl
  have hunits := unitsPerOne_pos.ne'
  rw [codeSize_mul_add hm.1 hm.2.le, codeSize_mul_add hn.1 hn.2.le, Nat.add_sub_cancel_left]
  unfold lastPlaceSize
  rw [pow_add, pow_add, pow_add, Nat.cast_mul, Nat.cast_mul, Nat.cast_pow, Nat.cast_pow,
    Nat.cast_ofNat]
  -- The fifty-three bits more and the exponent of the least magnitude make up one.
  generalize (2 : ℚ) ^ 1021 = p at hone
  generalize (2 : ℚ) ^ 53 = w at hone
  rw [← hone] at hunits ⊢
  have hw : w ≠ 0 := left_ne_zero_of_mul hunits
  have hp : p ≠ 0 := right_ne_zero_of_mul hunits
  field_simp

/-- What the machine packs for a quotient of two full significands. -/
theorem toNat_bits_div {x y : Double} (hx : x.isFinite) (hnormal : fractionLimit ≤ y.magnitude)
    (hle : y.magnitude ≤ x.magnitude) (hpositive : y.isNegative = false) :
    ∃ code, Nearest (codeSize x.magnitude / codeSize y.magnitude) code ∧
      (code < infiniteMagnitude → (ofFloat (x.toFloat / y.toFloat)).bits.toNat =
        signNumber x.signOf * signBit + code) := by
  have hfinite : x.magnitude < infiniteMagnitude := by simpa [isFinite] using hx
  obtain ⟨m, e, hxcode, hm⟩ := exists_full (hnormal.trans hle)
  obtain ⟨n, d, hycode, hn⟩ := exists_full hnormal
  have hmpos : 0 < m := Nat.lt_of_lt_of_le (by decide) hm.1
  have hnpos : 0 < n := Nat.lt_of_lt_of_le (by decide) hn.1
  have hde : d ≤ e := by
    rw [hxcode, hycode] at hle
    exact exponent_le_of_code_le hm.2 hn.1 hle
  obtain ⟨k, hlog⟩ := exists_log2_quotient hm hn
  obtain ⟨r, c, hrpos, hround, hr, hcode⟩ :=
    exists_roundWithAccuracy (x.signOf / y.signOf) hnpos (e := e - d + 1021) hlog
  obtain ⟨hlow, hhigh⟩ := bounds_of_log2 hnpos hlog
  refine ⟨c * fractionLimit + r, ?_, fun hbound => ?_⟩
  · rw [hcode, hxcode, hycode]
    exact nearest_of_roundDiv (by positivity) hlow hhigh (quotient_eq hm hn hde k)
  · have hsign : x.signOf / y.signOf = x.signOf := by
      unfold signOf
      rw [hpositive]
      cases x.isNegative
      all_goals rfl
    have hquotient : UnpackedFloat.div Format.binary64 x.toFloat.toModel.unpack
        y.toFloat.toModel.unpack = .finite x.signOf r ((c : Int) - 1074) hrpos := by
      rw [unpack_toFloat hmpos hm.1 hm.2 (hxcode ▸ hfinite) hxcode,
        unpack_toFloat hnpos hn.1 hn.2 (hycode ▸ hle.trans_lt hfinite) hycode]
      unfold UnpackedFloat.div
      dsimp only
      rw [divCore_eq hm hn hde]
      dsimp only
      rw [hround, hsign]
    show (UnpackedFloat.pack Format.binary64 (UnpackedFloat.div Format.binary64
      x.toFloat.toModel.unpack y.toFloat.toModel.unpack)).toNat = _
    rw [hquotient, toNat_pack x.signOf hrpos hr.1 hr.2 hbound]

/-- **A quotient is the nearest number to the exact one,** if the divisor is at least one and no
greater than what is divided. -/
theorem div_nearest {x y : Double} (hx : x.isFinite) (hone : 1 ≤ y.value) (hle : y.value ≤ x.size) :
    (x.div y).isFinite ∧ (x.div y).isNegative = x.isNegative ∧
      Nearest (x.size / y.value) (x.div y).magnitude := by
  have hpositive : y.isNegative = false := by
    by_contra hneg
    have := y.size_nonneg
    rw [value, if_pos (by simpa using hneg)] at hone
    linarith
  have hvalue : y.value = codeSize y.magnitude := by
    rw [value_of_not_isNegative hpositive, size_eq]
  rw [hvalue] at hone hle ⊢
  rw [size_eq] at hle ⊢
  have hle' : y.magnitude ≤ x.magnitude := strictMono_codeSize.le_iff_le.mp hle
  have hone' : 1022 * fractionLimit + fractionLimit ≤ y.magnitude :=
    strictMono_codeSize.le_iff_le.mp (codeSize_one.trans_le hone)
  have hfinite : x.magnitude < infiniteMagnitude := by simpa [isFinite] using hx
  obtain ⟨code, hnearest, hbits⟩ :=
    toNat_bits_div hx ((Nat.le_add_left _ _).trans hone') hle' hpositive
  -- The nearest number is no greater than what is divided, since the exact quotient is not.
  have hbound : code ≤ x.magnitude := by
    have hnext : codeSize x.magnitude < codeSize (x.magnitude + 1) :=
      strictMono_codeSize (Nat.lt_succ_self _)
    have hquotient : codeSize x.magnitude / codeSize y.magnitude ≤ codeSize x.magnitude :=
      div_le_self (codeSize_nonneg _) hone
    exact hnearest.le_of_lt _ (by linarith)
  have hcode : code < infiniteMagnitude := hbound.trans_lt hfinite
  obtain ⟨hmagnitude, hsign⟩ := magnitude_of_toNat_bits (hbits hcode) hcode
  have hdiv : x.div y = ofFloat (x.toFloat / y.toFloat) := by
    have hynan : y.isNaN = false := isNaN_of_isFinite (decide_eq_true (hle'.trans_lt hfinite))
    have hnan : (ofFloat (x.toFloat / y.toFloat)).isNaN = false :=
      isNaN_of_isFinite (decide_eq_true (hmagnitude.trans_lt hcode))
    unfold div lift
    dsimp only
    rw [isNaN_of_isFinite hx, hynan, hnan]
    rfl
  rw [hdiv, hmagnitude, hsign]
  exact ⟨decide_eq_true (hmagnitude.trans_lt hcode), rfl, hnearest⟩

/-! ### Exact quotients and bounds -/

/-- The sizes of two neighbouring magnitudes with binary places. -/
theorem codeSize_of_places {m e d : Nat} (hplaces : e + d = 1074) (hlow : fractionLimit ≤ m)
    (hhigh : m < 2 * fractionLimit) : codeSize (e * fractionLimit + m) = m / 2 ^ d ∧
      codeSize (e * fractionLimit + m + 1) = (m + 1) / 2 ^ d := by
  have hplace : lastPlaceSize e = 1 / 2 ^ d := by
    rw [lastPlaceSize, ← pow_mul_pow hplaces]
    field_simp
  constructor
  · rw [codeSize_mul_add hlow hhigh.le, hplace, mul_one_div]
  · rw [Nat.add_assoc, codeSize_mul_add (hlow.trans (Nat.le_succ m)) hhigh, hplace, mul_one_div]
    push_cast
    rfl

section Bounds

variable {x y : Double}

/-- **A quotient by a power of two is exact.** -/
theorem size_div_two_pow (hx : x.isFinite) {k : Nat} (hk : k ≤ 1022) (hy : y.value = 2 ^ k)
    (hle : 2 ^ k ≤ x.size) : (x.div y).size = x.size / 2 ^ k := by
  have hone : (1 : ℚ) ≤ 2 ^ k := one_le_pow₀ (by norm_num)
  obtain ⟨-, -, hnearest⟩ := div_nearest hx (hy ▸ hone) (hy ▸ hle)
  have hcode : 1022 * fractionLimit + fractionLimit ≤ x.magnitude :=
    strictMono_codeSize.le_iff_le.mp (codeSize_one.trans_le (hone.trans (hle.trans_eq x.size_eq)))
  obtain ⟨m, e, hxcode, hm⟩ := exists_full ((Nat.le_add_left _ _).trans hcode)
  have he : 1022 ≤ e := exponent_le_of_code_le hm.2 le_rfl (hcode.trans_eq hxcode)
  obtain ⟨t, rfl⟩ := Nat.exists_eq_add_of_le' (hk.trans he)
  have hexact : x.size / y.value = codeSize (t * fractionLimit + m) := by
    rw [hy, size_eq, hxcode, codeSize_mul_add hm.1 hm.2.le, codeSize_mul_add hm.1 hm.2.le]
    unfold lastPlaceSize
    rw [pow_add]
    field_simp
  rw [size_eq, hnearest.eq_of_codeSize hexact, ← hexact, hy]

/-- A number is at least a bound if its code is above that of the magnitude just below it. -/
theorem le_size_iff {bound : ℚ} {below : Nat} (hbelow : codeSize below < bound)
    (habove : bound ≤ codeSize (below + 1)) : bound ≤ x.size ↔ below < x.magnitude := by
  rw [size_eq]
  constructor
  · exact fun h => strictMono_codeSize.lt_iff_lt.mp (hbelow.trans_le h)
  · exact fun h => habove.trans (strictMono_codeSize.le_iff_le.mpr h)

/-- **A quotient reaches a bound just if the dividend reaches its multiple,** where the bound is
above the midpoint between the magnitudes around it and the next smaller dividend is below that. -/
theorem le_size_div_iff (hx : x.isFinite) (hone : 1 ≤ y.value) (hle : y.value ≤ x.size) {bound : ℚ}
    {below less : Nat}
    (hbelow : codeSize below + codeSize (below + 1) < 2 * bound)
    (habove : bound ≤ codeSize (below + 1)) (hless : codeSize less < bound * y.value)
    (hleast : bound * y.value ≤ codeSize (less + 1))
    (hnext : 2 * (codeSize less / y.value) < codeSize below + codeSize (below + 1)) :
    bound ≤ (x.div y).size ↔ bound * y.value ≤ x.size := by
  have hpos : 0 < y.value := zero_lt_one.trans_le hone
  obtain ⟨-, -, hnearest⟩ := div_nearest hx hone hle
  have hstep : codeSize below < codeSize (below + 1) := strictMono_codeSize (Nat.lt_succ_self below)
  rw [le_size_iff (by linarith) habove, le_size_iff hless hleast]
  constructor
  · intro h
    by_contra hsmall
    have hsize : x.size ≤ codeSize less :=
      x.size_eq.trans_le (strictMono_codeSize.le_iff_le.mpr (Nat.le_of_not_lt hsmall))
    have hquotient : x.size / y.value ≤ codeSize less / y.value :=
      div_le_div_of_nonneg_right hsize hpos.le
    exact absurd (hnearest.le_of_lt below (by linarith)) (Nat.not_le.mpr h)
  · intro h
    have hreached : bound * y.value ≤ x.size := (le_size_iff hless hleast).mpr h
    have hquotient : bound ≤ x.size / y.value := (le_div_iff₀ hpos).mpr hreached
    exact hnearest.lt_of_lt below (by linarith)

end Bounds

end TrafficBoard.Number.Double
