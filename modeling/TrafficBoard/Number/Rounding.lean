namespace TrafficBoard.Number

/-!
# Rounding a quotient — to the nearest whole number, a tie to the even one

* `roundDiv num den` is the whole number nearest to `num / den`;
* `roundDiv_two_mul_le` and `two_mul_le_roundDiv` say that it is at most half a unit away.
-/

/-- The whole number nearest to `num / den`; of two equally near, the even one. -/
def roundDiv (num den : Nat) : Nat :=
  let quotient := num / den
  let remainder := num % den
  if 2 * remainder < den then quotient
  else if den < 2 * remainder then quotient + 1
  else quotient + quotient % 2

/-- The rounded quotient is at most half a unit above the exact one. -/
theorem roundDiv_two_mul_le (num den : Nat) :
    2 * (den * roundDiv num den) ≤ 2 * num + den := by
  have h := Nat.div_add_mod num den
  unfold roundDiv
  simp only
  split
  · omega
  · split
    · rw [Nat.mul_add]; omega
    · rcases Nat.mod_two_eq_zero_or_one (num / den) with h2 | h2 <;> rw [h2, Nat.mul_add] <;> omega

/-- The rounded quotient is at most half a unit below the exact one. -/
theorem two_mul_le_roundDiv (num den : Nat) (pos : 0 < den) :
    2 * num ≤ 2 * (den * roundDiv num den) + den := by
  have h := Nat.div_add_mod num den
  have hlt := Nat.mod_lt num pos
  unfold roundDiv
  simp only
  split
  · omega
  · split
    · rw [Nat.mul_add]; omega
    · rcases Nat.mod_two_eq_zero_or_one (num / den) with h2 | h2 <;> rw [h2, Nat.mul_add] <;> omega

example : roundDiv 5 2 = 2 ∧ roundDiv 7 2 = 4 ∧ roundDiv 8 3 = 3 ∧ roundDiv 7 3 = 2 := by decide

end TrafficBoard.Number
