import Mathlib
import TrafficBoard.Number.Fixed
import TrafficBoard.Proofs.Number.Values
import TrafficBoard.Proofs.Text.Digits

namespace TrafficBoard.Number.Double

/-!
# Fixed places — what is printed of a number, and where it turns to the next one

* `le_roundDiv_iff` and `roundDiv_eq_zero_iff` say from where on a rounded quotient is an even
  number, and up to where it is zero;
* `le_scaled_iff` and `scaled_eq_zero_iff` say the same of a number with fixed places;
* `printed` is the number that is printed, and `printed_le` that it is not far above the number;
* `toList_fixed` lays out its text.

A quotient that is half a unit below an even number is a tie, and goes to that number.
-/

/-! ### Where a rounded quotient turns -/

section Rounding

variable {num den : Nat}

/-- **A rounded quotient is at least an even number** from half a unit below it. -/
theorem le_roundDiv_iff (hden : 0 < den) {k : Nat} (heven : k % 2 = 0) :
    k ≤ roundDiv num den ↔ 2 * (den * k) ≤ 2 * num + den := by
  constructor
  · intro h
    exact (Nat.mul_le_mul_left 2 (Nat.mul_le_mul_left den h)).trans (roundDiv_two_mul_le num den)
  · intro h
    by_contra hlt
    obtain ⟨j, rfl⟩ : ∃ j, k = j + 1 := Nat.exists_eq_add_of_le' (by omega)
    have habove := two_mul_le_roundDiv num den hden
    have hbelow : den * roundDiv num den ≤ den * j := Nat.mul_le_mul_left _ (by omega)
    -- The quotient is just the tie below the even number, and a tie goes there.
    rw [Nat.mul_add, Nat.mul_one] at h
    have htie : 2 * num = 2 * (den * j) + den := by omega
    have hrest : 2 * (num - den * j) = den := by omega
    have hquotient : num / den = j := by
      refine Nat.div_eq_of_lt_le ?_ ?_
      · rw [Nat.mul_comm]; omega
      · rw [Nat.succ_mul, Nat.mul_comm]; omega
    have hmod : 2 * (num % den) = den := by
      rw [Nat.mod_eq_sub_mul_div, hquotient]
      exact hrest
    have hround : roundDiv num den = j + j % 2 := by
      unfold roundDiv
      dsimp only
      rw [hmod, if_neg (lt_irrefl den), if_neg (lt_irrefl den), hquotient]
    omega

/-- **A rounded quotient is zero** up to half a unit. -/
theorem roundDiv_eq_zero_iff (hden : 0 < den) : roundDiv num den = 0 ↔ 2 * num ≤ den := by
  constructor
  · intro h
    have := two_mul_le_roundDiv num den hden
    rw [h] at this
    omega
  · intro h
    have hquotient : num / den = 0 := Nat.div_eq_of_lt (by omega)
    have hmod : num % den = num := Nat.mod_eq_of_lt (by omega)
    unfold roundDiv
    dsimp only
    rw [hquotient, hmod]
    split_ifs
    · rfl
    · omega
    · rfl

end Rounding

/-! ### Numbers with fixed places -/

section Places

variable (x : Double) (places : Nat)

/-- The number in units of its last place, exactly. -/
theorem ratio_mul_pow :
    ((x.ratio.1 * 10 ^ places : Nat) : ℚ) = 10 ^ places * x.size * x.ratio.2 := by
  have hden : (x.ratio.2 : ℚ) ≠ 0 := Nat.cast_ne_zero.mpr x.den_pos.ne'
  unfold size
  push_cast
  field_simp

/-- **A printed number is at least an even number of last places** from half a place below it. -/
theorem le_scaled_iff {k : Nat} (heven : k % 2 = 0) :
    k ≤ x.scaled places ↔ 2 * (k : ℚ) ≤ 2 * (10 ^ places * x.size) + 1 := by
  have hden : (0 : ℚ) < x.ratio.2 := Nat.cast_pos.mpr x.den_pos
  have hexact := x.ratio_mul_pow places
  show k ≤ roundDiv (x.ratio.1 * 10 ^ places) x.ratio.2 ↔ _
  rw [le_roundDiv_iff x.den_pos heven, ← mul_le_mul_iff_left₀ hden, ← Nat.cast_le (α := ℚ)]
  push_cast at hexact ⊢
  rw [hexact]
  constructor
  · intro h
    linarith
  · intro h
    linarith

/-- **A printed number is zero** up to half a place. -/
theorem scaled_eq_zero_iff : x.scaled places = 0 ↔ 2 * (10 ^ places * x.size) ≤ 1 := by
  have hden : (0 : ℚ) < x.ratio.2 := Nat.cast_pos.mpr x.den_pos
  have hexact := x.ratio_mul_pow places
  show roundDiv (x.ratio.1 * 10 ^ places) x.ratio.2 = 0 ↔ _
  rw [roundDiv_eq_zero_iff x.den_pos, ← mul_le_mul_iff_left₀ hden, ← Nat.cast_le (α := ℚ)]
  push_cast at hexact ⊢
  rw [hexact]
  constructor
  · intro h
    linarith
  · intro h
    linarith

/-- The number that is printed with fixed places, without its sign. -/
def printed : ℚ :=
  x.scaled places / 10 ^ places

/-- What is printed is at most half a unit above the number. -/
theorem printed_le : x.printed places ≤ x.size + 1 / 2 := by
  have hden : (0 : ℚ) < x.ratio.2 := Nat.cast_pos.mpr x.den_pos
  have hexact := x.ratio_mul_pow places
  have hround : 2 * (x.ratio.2 * x.scaled places : ℚ) ≤
      2 * (x.ratio.1 * 10 ^ places : Nat) + x.ratio.2 := by
    exact_mod_cast roundDiv_two_mul_le (x.ratio.1 * 10 ^ places) x.ratio.2
  rw [hexact] at hround
  have hone : (1 : ℚ) ≤ 10 ^ places := one_le_pow₀ (by norm_num)
  have hscaled : (x.scaled places : ℚ) ≤ 10 ^ places * x.size + 1 / 2 :=
    le_of_mul_le_mul_left (by linarith) hden
  unfold printed
  rw [div_le_iff₀ (by positivity)]
  nlinarith

/-- **The text of a number with fixed places:** a sign, the digits before the point, and the point
with as many digits as there are places. -/
theorem toList_fixed : (x.fixed places).toList =
    (if x.isNegative then ['-'] else []) ++ (Nat.toDigits 10 (x.scaled places / 10 ^ places) ++
      if places = 0 then [] else
        '.' :: (Text.padded places (x.scaled places % 10 ^ places)).toList) := by
  have hwhole : (x.wholePart places).toList = Nat.toDigits 10 (x.scaled places / 10 ^ places) := by
    unfold wholePart
    rw [Nat.toString_eq_repr, Nat.toList_repr]
    rfl
  unfold fixed decimals
  dsimp only
  rw [String.toList_append, String.toList_append, String.toList_append, hwhole, List.append_assoc,
    List.append_assoc]
  congr 1
  · split_ifs
    · rfl
    · rfl
  · split_ifs
    · rfl
    · rfl

end Places

end TrafficBoard.Number.Double
