import Mathlib
import TrafficBoard.Label
import TrafficBoard.Proofs.Number.Quotients
import TrafficBoard.Proofs.Label.Readings

namespace TrafficBoard.Label

open Number (Double)
open Number.Double (codeSize codeSize_of_places fractionLimit)

/-!
# Scaled labels — which byte counts and compact numbers are printed in their unit

* `InUnit` says which of the powers of a base a size is counted in, and `RoundsOver` that a size is
  so close to the next of them that it is printed as the base itself;
* `exists_scaleBytes` and `exists_bytes` say what a byte count is divided by, `exists_compact` the
  same of a compact number;
* `scaled_labels_iff` says that the labels are in their unit just off the sizes that round over,
  and which of them are a negative zero.

The unit is chosen before the number is rounded. Division by 1024 is exact, so there the rounding to
the places is all that can reach the next unit. A quotient by a power of ten is rounded, but never
across the bound: the doubles next to it are too far from the exact quotients.
-/

/-! ### Units -/

/-- A size is counted in the power of a base with a number up to the last one: it has reached that
unit, and not the next one if there is one. -/
structure InUnit (base : ℚ) (last k : Nat) (size : ℚ) : Prop where
  le_last : k ≤ last
  le_size : 0 < k → base ^ k ≤ size
  size_lt : k < last → size < base ^ (k + 1)

/-- A size is below a unit but within half a place of it, in places of the unit before. -/
def RoundsOver (base place : ℚ) (last : Nat) (size : ℚ) : Prop :=
  ∃ k < last, (base - place / 2) * base ^ k ≤ size ∧ size < base ^ (k + 1)

section Units

variable {base place size : ℚ} {last k : Nat}

/-- A size below the base is counted in ones, and so is any size if there is no other unit. -/
theorem InUnit.ones (h : 0 < last → size < base) : InUnit base last 0 size where
  le_last := Nat.zero_le last
  le_size hpos := absurd hpos (lt_irrefl 0)
  size_lt hpos := (h hpos).trans_eq (by rw [zero_add, pow_one])

/-- The unit after that of the quotient by the base is the unit of a size that has reached it. -/
theorem InUnit.succ (h : InUnit base last k (size / base)) (hpos : 0 < base) (hsize : base ≤ size) :
    InUnit base (last + 1) (k + 1) size where
  le_last := Nat.succ_le_succ h.le_last
  le_size _ := by
    rcases Nat.eq_zero_or_pos k with rfl | hk
    · rwa [zero_add, pow_one]
    · rw [pow_succ]
      exact (le_div_iff₀ hpos).mp (h.le_size hk)
  size_lt hk := by
    rw [pow_succ]
    exact (div_lt_iff₀ hpos).mp (h.size_lt (Nat.lt_of_succ_lt_succ hk))

/-- **Only the unit that a size is counted in can be rounded over.** -/
theorem InUnit.roundsOver_iff (h : InUnit base last k size) (hplace : 0 ≤ place)
    (hbase : 1 + place / 2 ≤ base) :
    RoundsOver base place last size ↔ k < last ∧ (base - place / 2) * base ^ k ≤ size := by
  have hone : 1 ≤ base := by linarith
  have hmono {a b : Nat} (hab : a ≤ b) : base ^ a ≤ base ^ b := pow_le_pow_right₀ hone hab
  constructor
  · rintro ⟨j, hj, hlow, hhigh⟩
    have hpower : base ^ j ≤ size :=
      (le_mul_of_one_le_left (by positivity) (by linarith)).trans hlow
    rcases lt_trichotomy j k with hlt | rfl | hgt
    · have := h.le_size (Nat.zero_lt_of_lt hlt)
      exact absurd ((hmono hlt).trans this) (not_le.mpr hhigh)
    · exact ⟨hj, hlow⟩
    · have := h.size_lt (hgt.trans hj)
      exact absurd (this.trans_le (hmono hgt)) (not_lt.mpr hpower)
  · rintro ⟨hlast, hlow⟩
    exact ⟨k, hlast, hlow, h.size_lt hlast⟩

/-- A size within half a place of a unit is above zero. -/
theorem RoundsOver.pos (h : RoundsOver base place last size) (hplace : 0 ≤ place)
    (hbase : 1 + place / 2 ≤ base) : 0 < size := by
  obtain ⟨k, -, hlow, -⟩ := h
  have hbase' : 0 < base := by linarith
  exact (mul_pos (by linarith) (pow_pos hbase' k)).trans_le hlow

end Units

/-! ### Byte counts -/

section Bytes

variable {x y : Double}

/-- The value of 1024. -/
theorem value_kibi : kibi.isFinite ∧ kibi.value = 1024 := by
  obtain ⟨hfinite, -, hvalue⟩ := Double.value_ofNat (show 1024 < 2 ^ 53 by norm_num)
  exact ⟨hfinite, by rw [kibi, hvalue]; norm_num⟩

/-- A value above zero has no sign. -/
theorem isNegative_of_value_pos (h : 0 < x.value) : x.isNegative = false := by
  by_contra hneg
  have := x.size_nonneg
  rw [Double.value, if_pos (by simpa using hneg)] at h
  linarith

/-- A number that has reached 1024 is divided by it exactly. -/
theorem div_kibi (hx : x.isFinite) (h : 1024 ≤ x.size) : (x.div kibi).isFinite ∧
    (x.div kibi).isNegative = x.isNegative ∧ (x.div kibi).size = x.size / 1024 := by
  have hvalue := value_kibi.2
  obtain ⟨hfinite, hsign, -⟩ :=
    Double.div_nearest hx (hvalue.ge.trans' (by norm_num)) (hvalue.trans_le h)
  have hsize := Double.size_div_two_pow (k := 10) hx (by norm_num) (hvalue.trans (by norm_num))
    (h.trans' (by norm_num))
  exact ⟨hfinite, hsign, hsize.trans (by norm_num)⟩

/-- **A byte count is divided by 1024 until it is in its unit,** and no digit of it is lost. -/
theorem exists_scaleBytes (units : List String) : ∀ {x : Double} (unit : String), x.isFinite →
    x.value = x.size → ∃ k y u, scaleBytes x unit units = (y, u) ∧
      (unit :: units)[k]? = some u ∧ y.isFinite ∧ y.isNegative = x.isNegative ∧
      y.value = y.size ∧ y.size * 1024 ^ k = x.size ∧ InUnit 1024 units.length k x.size := by
  induction units with
  | nil =>
    intro x unit hx hpos
    exact ⟨0, x, unit, rfl, rfl, hx, rfl, hpos, by rw [pow_zero, mul_one],
      .ones fun h => absurd h (lt_irrefl 0)⟩
  | cons larger units ih =>
    intro x unit hx hpos
    obtain ⟨hkibi, hvalue⟩ := value_kibi
    have hle : kibi.le x ↔ 1024 ≤ x.size := by
      rw [Double.le_iff_value_le hkibi hx, hvalue, hpos]
    unfold scaleBytes
    by_cases h : 1024 ≤ x.size
    · -- The quotient is scaled by the units that are left, one place after each of theirs.
      obtain ⟨hfinite, hsign, hsize⟩ := div_kibi hx h
      have hpositive : x.isNegative = false := isNegative_of_value_pos (by linarith)
      obtain ⟨k, y, u, hscaled, hu, hy, hysign, hypos, hysize, hin⟩ :=
        ih larger hfinite (Double.value_of_not_isNegative (hsign.trans hpositive))
      rw [hsize] at hysize hin
      have hyx : y.size * 1024 ^ (k + 1) = x.size := by
        rw [pow_succ, ← mul_assoc, hysize, div_mul_cancel₀ _ (by norm_num)]
      exact ⟨k + 1, y, u, by rw [if_pos (hle.mpr h), hscaled], hu, hy, hysign.trans hsign, hypos,
        hyx, hin.succ (by norm_num) h⟩
    · exact ⟨0, x, unit, by rw [if_neg (mt hle.mp h)], rfl, hx, rfl, hpos,
        by rw [pow_zero, mul_one], .ones fun _ => not_le.mp h⟩

/-- What is below zero counts as zero, and only a negative zero may keep a sign. -/
theorem clamp_spec (hx : x.isFinite) (keepSign : Bool) :
    (clamp keepSign x).isFinite ∧ (clamp keepSign x).value = (clamp keepSign x).size ∧
      (clamp keepSign x).size = max x.value 0 ∧
      ((clamp keepSign x).isNegative ↔ keepSign ∧ x.isNegative ∧ x.value = 0) := by
  have hzero : Double.zero.isFinite ∧ Double.zero.isNegative = false := ⟨by decide, by decide⟩
  have hsize : Double.zero.size = 0 := (Double.size_eq _).trans Double.codeSize_zero
  have hvalue : Double.zero.value = 0 := (Double.value_of_not_isNegative hzero.2).trans hsize
  have hlt := Double.lt_iff_value_lt hzero.1 hx
  have hle := Double.le_iff_value_le hzero.1 hx
  rw [hvalue] at hlt hle
  rcases lt_trichotomy x.value 0 with hneg | hnull | hpos
  · have hclamp : clamp keepSign x = .zero := by
      cases keepSign with
      | false => exact if_neg (mt hlt.mp hneg.not_gt)
      | true => exact if_neg (mt hle.mp hneg.not_ge)
    rw [hclamp]
    refine ⟨hzero.1, hvalue.trans hsize.symm, by rw [max_eq_right hneg.le, hsize], ?_⟩
    rw [hzero.2]
    exact iff_of_false Bool.false_ne_true fun h => hneg.ne h.2.2
  · have hnull' : x.size = 0 := by rw [← x.abs_value, hnull, abs_zero]
    cases keepSign with
    | false =>
      have hclamp : clamp false x = .zero := if_neg (mt hlt.mp hnull.not_gt)
      rw [hclamp]
      refine ⟨hzero.1, hvalue.trans hsize.symm, by rw [hnull, max_self, hsize], ?_⟩
      rw [hzero.2]
      exact iff_of_false Bool.false_ne_true fun h => Bool.false_ne_true h.1
    | true =>
      have hclamp : clamp true x = x := if_pos (hle.mpr hnull.ge)
      rw [hclamp]
      exact ⟨hx, hnull.trans hnull'.symm, by rw [hnull, max_self, hnull'],
        fun h => ⟨rfl, h, hnull⟩, fun h => h.2.1⟩
  · have hclamp : clamp keepSign x = x := by
      cases keepSign with
      | false => exact if_pos (hlt.mpr hpos)
      | true => exact if_pos (hle.mpr hpos.le)
    have hsign := isNegative_of_value_pos hpos
    have hvalue' := Double.value_of_not_isNegative hsign
    rw [hclamp]
    refine ⟨hx, hvalue', by rw [max_eq_left hpos.le, hvalue'], ?_⟩
    rw [hsign]
    exact iff_of_false Bool.false_ne_true fun h => Bool.false_ne_true h.2.1

/-- **A byte count is printed in its unit.** -/
theorem exists_bytes (hx : x.isFinite) (keepSign : Bool) : ∃ (k : Nat) (y : Double) (unit : String),
    bytesWith keepSign x = y.fixed (bytePlaces y unit) ++ String.ofList (' ' :: unit.toList) ∧
      ["B", "KB", "MB", "GB", "TB"][k]? = some unit ∧ y.isFinite ∧
      (y.isNegative ↔ keepSign ∧ x.isNegative ∧ x.value = 0) ∧ y.value = y.size ∧
      y.size * 1024 ^ k = max x.value 0 ∧ InUnit 1024 4 k (max x.value 0) := by
  obtain ⟨hfinite, hpos, hsize, hsign⟩ := clamp_spec hx keepSign
  obtain ⟨k, y, unit, hscaled, hunit, hy, hysign, hypos, hysize, hin⟩ :=
    exists_scaleBytes ["KB", "MB", "GB", "TB"] "B" hfinite hpos
  rw [hsize] at hysize hin
  refine ⟨k, y, unit, ?_, hunit, hy, by rw [hysign]; exact hsign, hypos, hysize, hin⟩
  unfold bytesWith ofFinite
  rw [if_pos hx]
  dsimp only
  rw [hscaled]
  dsimp only
  rw [String.append_assoc]
  congr 1
  exact String.toList_injective (by simp)

/-- **A scaled byte count is printed below 1024** up to half of one. -/
theorem printed_lt_iff (hy : y.isFinite) (hpos : y.value = y.size) (unit : String) :
    y.printed (bytePlaces y unit) < 1024 ↔ y.size < 1024 - 1 / 2 := by
  have hwhole : y.printed 0 < 1024 ↔ y.size < 1024 - 1 / 2 := by
    have hscaled := y.le_scaled_iff 0 (show 1024 % 2 = 0 by norm_num)
    rw [Double.printed, pow_zero, div_one, ← not_le, ← not_le, not_iff_not,
      show (1024 : ℚ) = (1024 : Nat) by norm_num, Nat.cast_le, hscaled]
    push_cast
    constructor
    · intro h
      linarith
    · intro h
      linarith
  -- There are decimals only below 100, and rounding does not take that near 1024.
  have hsmall (places : Nat) (h : y.size < 100) :
      y.printed places < 1024 ↔ y.size < 1024 - 1 / 2 := by
    have := y.printed_le places
    exact ⟨fun _ => by linarith, fun _ => by linarith⟩
  have hlt {n : Nat} (hn : n < 2 ^ 53) : y.lt (.ofNat n) ↔ y.size < n := by
    obtain ⟨hfinite, -, hvalue⟩ := Double.value_ofNat hn
    rw [Double.lt_iff_value_lt hy hfinite, hvalue, hpos]
  unfold bytePlaces
  split_ifs with hunit hten hhundred
  · exact hwhole
  · have := (hlt (by norm_num)).mp hten
    exact hsmall 2 (by push_cast at this; linarith)
  · have := (hlt (by norm_num)).mp hhundred
    exact hsmall 1 (by push_cast at this; linarith)
  · exact hwhole

end Bytes

/-! ### Compact numbers -/

/-- The number that is printed in a compact label: the quotient by a power of a thousand. -/
def quotient (x : Double) (k : Nat) : Double :=
  if k = 0 then x else x.div (.ofNat (1000 ^ k))

section Compact

variable {x : Double} (hx : x.isFinite)

include hx

/-- A compact number is scaled by the power of its unit. -/
theorem exists_compactScale : ∃ (k : Nat) (unit : String), InUnit 1000 3 k |x.value| ∧
    ["", "K", "M", "B"][k]? = some unit ∧
      compactScale x.abs = if k = 0 then none else some (.ofNat (1000 ^ k), unit) := by
  have hle (k : Nat) (hk : 1000 ^ k < 2 ^ 53) :
      Double.le (.ofNat (1000 ^ k)) x.abs ↔ 1000 ^ k ≤ |x.value| := by
    obtain ⟨hscale, -, hvalue⟩ := Double.value_ofNat hk
    rw [Double.le_iff_value_le hscale (x.isFinite_abs.trans hx), hvalue, Double.value_abs]
    push_cast
    rfl
  have hbillion : Double.le (.ofNat 1000000000) x.abs ↔ _ := hle 3 (by norm_num)
  have hmillion : Double.le (.ofNat 1000000) x.abs ↔ _ := hle 2 (by norm_num)
  have hthousand : Double.le (.ofNat 1000) x.abs ↔ _ := hle 1 (by norm_num)
  unfold compactScale
  split_ifs with h3 h2 h1
  · exact ⟨3, "B", ⟨le_rfl, fun _ => hbillion.mp h3, fun h => absurd h (lt_irrefl 3)⟩, rfl, rfl⟩
  · exact ⟨2, "M", ⟨by norm_num, fun _ => hmillion.mp h2, fun _ => not_le.mp (mt hbillion.mpr h3)⟩,
      rfl, rfl⟩
  · exact ⟨1, "K", ⟨by norm_num, fun _ => hthousand.mp h1, fun _ => not_le.mp (mt hmillion.mpr h2)⟩,
      rfl, rfl⟩
  · rw [hthousand, pow_one, not_le] at h1
    exact ⟨0, "", .ones fun _ => h1, rfl, rfl⟩

/-- **A compact number is printed in its unit.** -/
theorem exists_compact : ∃ (k : Nat) (unit : String),
    compact x = shortDecimal (quotient x k) ++ String.ofList unit.toList ∧
      ["", "K", "M", "B"][k]? = some unit ∧ InUnit 1000 3 k |x.value| := by
  obtain ⟨k, unit, hin, hunit, hscale⟩ := exists_compactScale hx
  refine ⟨k, unit, ?_, hunit, hin⟩
  unfold compact ofFinite quotient
  rw [if_pos hx]
  dsimp only
  rw [hscale, String.ofList_toList]
  rcases Nat.eq_zero_or_pos k with rfl | hpos
  · obtain rfl : "" = unit := Option.some.inj hunit
    exact (String.append_empty).symm
  · rw [if_neg hpos.ne', if_neg hpos.ne']

end Compact

section Quotient

variable {x : Double} {k : Nat} (h : InUnit 1000 3 k |x.value|)

include h

/-- A compact number is divided by a number that is at least one and no greater. -/
theorem scale_bounds (hpos : 0 < k) : 1 ≤ (Double.ofNat (1000 ^ k)).value ∧
    (Double.ofNat (1000 ^ k)).value = 1000 ^ k ∧ (Double.ofNat (1000 ^ k)).value ≤ x.size := by
  have hbound : 1000 ^ k < 2 ^ 53 :=
    (Nat.pow_le_pow_right (by norm_num) h.le_last).trans_lt (by norm_num)
  obtain ⟨-, -, hvalue⟩ := Double.value_ofNat hbound
  push_cast at hvalue
  rw [hvalue]
  exact ⟨one_le_pow₀ (by norm_num), rfl, x.abs_value ▸ h.le_size hpos⟩

variable (hx : x.isFinite)

include hx

/-- A quotient has the sign of the number. -/
theorem isNegative_quotient : (quotient x k).isNegative = x.isNegative := by
  unfold quotient
  split_ifs with hk
  · rfl
  · obtain ⟨hone, -, hle⟩ := scale_bounds h (Nat.pos_of_ne_zero hk)
    exact (Double.div_nearest hx hone hle).2.1

/-- **A quotient is as far from zero as the number** where it matters: only a number below any unit
can be as small as half a place. -/
theorem quotient_le_iff : (quotient x k).size ≤ 1 / 20 ↔ |x.value| ≤ 1 / 20 := by
  unfold quotient
  split_ifs with hk
  · rw [x.abs_value]
  · obtain ⟨hone, -, hle⟩ := scale_bounds h (Nat.pos_of_ne_zero hk)
    obtain ⟨-, -, hnearest⟩ := Double.div_nearest hx hone hle
    have hleast := hnearest.le_of_codeSize_le (Double.codeSize_one.trans_le
      ((one_le_div (zero_lt_one.trans_le hone)).mpr hle))
    have hsize : 1 ≤ (x.div (.ofNat (1000 ^ k))).size := by
      rw [Double.size_eq]
      exact Double.codeSize_one.ge.trans (Double.strictMono_codeSize.le_iff_le.mpr hleast)
    have hone' : 1 ≤ |x.value| := x.abs_value ▸ hone.trans hle
    exact ⟨fun _ => by linarith, fun _ => by linarith⟩

/-- **A quotient rounds over just if the number does,** where the next smaller dividend is not close
to that. -/
theorem le_div_scale_iff (hpos : 0 < k) {m e d : Nat} (hplaces : e + d = 1074)
    (hlow : fractionLimit ≤ m) (hhigh : m < 2 * fractionLimit)
    (hless : (m / 2 ^ d : ℚ) < (1000 - 1 / 10 / 2) * 1000 ^ k)
    (hleast : (1000 - 1 / 10 / 2) * 1000 ^ k ≤ ((m + 1) / 2 ^ d : ℚ))
    (hnext : 2 * (m / 2 ^ d / 1000 ^ k : ℚ) < 17591306435113779 / 2 ^ 43) :
    1000 - 1 / 10 / 2 ≤ (x.div (.ofNat (1000 ^ k))).size ↔
      (1000 - 1 / 10 / 2) * 1000 ^ k ≤ |x.value| := by
  obtain ⟨hone, hvalue, hle⟩ := scale_bounds h hpos
  obtain ⟨hsize, hsize'⟩ := codeSize_of_places hplaces hlow hhigh
  -- The bound is between these two doubles, and above the middle of them.
  obtain ⟨hbelow, habove⟩ := codeSize_of_places (m := 8795653217556889) (e := 1031) (d := 43)
    (by norm_num) (by decide) (by decide)
  have hmiddle : codeSize (1031 * fractionLimit + 8795653217556889) +
      codeSize (1031 * fractionLimit + 8795653217556889 + 1) < 2 * (1000 - 1 / 10 / 2) := by
    rw [hbelow, habove]
    norm_num
  have hbound : 1000 - 1 / 10 / 2 ≤ codeSize (1031 * fractionLimit + 8795653217556889 + 1) := by
    rw [habove]
    norm_num
  rw [x.abs_value, ← hvalue]
  rw [← hvalue, ← hsize] at hless hnext
  rw [← hvalue, ← hsize'] at hleast
  refine Double.le_size_div_iff hx hone hle hmiddle hbound hless hleast (hnext.trans_eq ?_)
  rw [hbelow, habove]
  norm_num

/-- **A quotient rounds over just if the number does.** -/
theorem le_quotient_iff (hlast : k < 3) :
    1000 - 1 / 10 / 2 ≤ (quotient x k).size ↔ (1000 - 1 / 10 / 2) * 1000 ^ k ≤ |x.value| := by
  interval_cases k
  · rw [quotient, if_pos rfl, x.abs_value, pow_zero, mul_one]
  -- The greatest doubles below 999950 and below 999950000 have 33 and 23 binary places.
  · exact le_div_scale_iff h hx (by norm_num) (m := 8589505095270399) (e := 1041) (d := 33)
      (by norm_num) (by decide) (by decide) (by norm_num) (by norm_num) (by norm_num)
  · exact le_div_scale_iff h hx (by norm_num) (m := 8388188569599999) (e := 1051) (d := 23)
      (by norm_num) (by decide) (by decide) (by norm_num) (by norm_num) (by norm_num)

end Quotient

/-! ### What the labels say -/

/-- The mantissa of a label stays below the base just off the sizes that round over, if the label is
in the unit of the size and its mantissa reaches the base just where the size does. -/
theorem staysBelow_iff {s unit : String} {units : List String} {negative : Bool}
    {base place mantissa size : ℚ} {last k : Nat} (hread : Reads s negative mantissa unit.toList)
    (hunit : unit ∈ units ↔ k < last) (hin : InUnit base last k size) (hplace : 0 ≤ place)
    (hbase : 1 + place / 2 ≤ base)
    (hreach : k < last → (base ≤ mantissa ↔ (base - place / 2) * base ^ k ≤ size)) :
    (Reading.ofText s).StaysBelow base units ↔ ¬ RoundsOver base place last size := by
  rw [Reading.StaysBelow, hread.unit, hread.mantissa, String.ofList_toList, hunit,
    hin.roundsOver_iff hplace hbase, not_and]
  exact forall_congr' fun hlast => not_le.symm.trans (not_congr (hreach hlast))

section Labels

variable {x : Double} (hx : x.isFinite)

include hx

/-- A byte count is read in its unit. -/
theorem reads_bytes (keepSign : Bool) :
    ∃ (k : Nat) (negative : Bool) (mantissa : ℚ) (unit : String),
    Reads (bytesWith keepSign x) negative mantissa unit.toList ∧
      (unit ∈ ["B", "KB", "MB", "GB"] ↔ k < 4) ∧ InUnit 1024 4 k (max x.value 0) ∧
        (1024 ≤ mantissa ↔ (1024 - 1 / 2) * 1024 ^ k ≤ max x.value 0) ∧
        (negative ↔ keepSign ∧ x.isNegative ∧ x.value = 0) ∧ (x.value = 0 → mantissa = 0) := by
  obtain ⟨k, y, unit, htext, hunit, hy, hsign, hpos, hsize, hin⟩ := exists_bytes hx keepSign
  have hends : EndsNumber (' ' :: unit.toList) := by
    intro c hc
    obtain rfl := Option.some.inj hc
    decide
  have hread := reads_fixed y hends (bytePlaces y unit)
  obtain ⟨hblank, hmem⟩ : Text.dropBlank (' ' :: unit.toList) = unit.toList ∧
      (unit ∈ ["B", "KB", "MB", "GB"] ↔ k < 4) := by
    have hk := hin.le_last
    interval_cases k
    all_goals
      obtain rfl := Option.some.inj hunit
      decide
  rw [← htext, hblank] at hread
  refine ⟨k, _, _, unit, hread, hmem, hin, ?_, hsign, fun hnull => ?_⟩
  · rw [← hsize, mul_le_mul_iff_left₀ (by positivity), ← not_lt, printed_lt_iff hy hpos, not_lt]
  · have hy : y.size = 0 := by
      rw [hnull, max_self] at hsize
      exact (mul_eq_zero.mp hsize).resolve_right (by positivity)
    have hscaled : y.scaled (bytePlaces y unit) = 0 := by
      rw [Double.scaled_eq_zero_iff, hy, mul_zero, mul_zero]
      exact zero_le_one
    rw [Double.printed, hscaled, Nat.cast_zero, zero_div]

/-- A compact number is read in its unit. -/
theorem reads_compact : ∃ (k : Nat) (mantissa : ℚ) (unit : String),
    Reads (compact x) x.isNegative mantissa unit.toList ∧ (unit ∈ ["", "K", "M"] ↔ k < 3) ∧
      InUnit 1000 3 k |x.value| ∧
        (k < 3 → (1000 ≤ mantissa ↔ (1000 - 1 / 10 / 2) * 1000 ^ k ≤ |x.value|)) ∧
          (mantissa = 0 ↔ |x.value| ≤ 1 / 20) := by
  obtain ⟨k, unit, htext, hunit, hin⟩ := exists_compact hx
  obtain ⟨hends, hblank, hmem⟩ : EndsNumber unit.toList ∧
      Text.dropBlank unit.toList = unit.toList ∧ (unit ∈ ["", "K", "M"] ↔ k < 3) := by
    have hk := hin.le_last
    interval_cases k
    all_goals
      obtain rfl := Option.some.inj hunit
      exact ⟨by simp [EndsNumber, Text.isDigit], by decide, by decide⟩
  have hread := reads_shortDecimal (quotient x k) hends
  rw [← htext, hblank, isNegative_quotient hin hx] at hread
  refine ⟨k, _, unit, hread, hmem, hin, fun hlast => ?_, ?_⟩
  · have hscaled := (quotient x k).le_scaled_iff 1 (show 10000 % 2 = 0 by norm_num)
    rw [← le_quotient_iff hin hx hlast, Double.printed, le_div_iff₀ (by norm_num),
      show (1000 * 10 ^ 1 : ℚ) = (10000 : Nat) by norm_num, Nat.cast_le, hscaled]
    push_cast
    constructor
    · intro h
      linarith
    · intro h
      linarith
  · rw [← quotient_le_iff hin hx, Double.printed, div_eq_zero_iff,
      or_iff_left (by norm_num), Nat.cast_eq_zero, Double.scaled_eq_zero_iff]
    constructor
    · intro h
      linarith
    · intro h
      linarith

/-- **Scaled labels are in their unit just off the sizes that round over:** a byte count is printed
as 1024 of a unit from half a place below the next one, and so is a compact number as 1000. A byte
count is a negative zero only if that is what it counts and its sign is kept, and a compact number
is one up to half a place below zero. -/
theorem scaled_labels_iff (keepSign : Bool) :
    ((Reading.ofText (bytesWith keepSign x)).StaysBelow 1024 ["B", "KB", "MB", "GB"] ↔
        ¬ RoundsOver 1024 1 4 x.value) ∧
      ((Reading.ofText (bytesWith keepSign x)).IsNegativeZero ↔
        keepSign ∧ x.isNegative ∧ x.value = 0) ∧
      ((Reading.ofText (compact x)).StaysBelow 1000 ["", "K", "M"] ↔
        ¬ RoundsOver 1000 (1 / 10) 3 |x.value|) ∧
      ((Reading.ofText (compact x)).IsNegativeZero ↔ x.isNegative ∧ |x.value| ≤ 1 / 20) := by
  obtain ⟨k, negative, m, unit, hread, hunit, hin, hreach, hnegative, hnull⟩ :=
    reads_bytes hx keepSign
  obtain ⟨k', m', unit', hread', hunit', hin', hreach', hzero⟩ := reads_compact hx
  refine ⟨?_, ?_, ?_, ?_⟩
  · have hmax : RoundsOver 1024 1 4 (max x.value 0) ↔ RoundsOver 1024 1 4 x.value := by
      -- What is below zero counts as zero, and neither rounds over.
      rcases le_total 0 x.value with hpos | hneg
      · rw [max_eq_left hpos]
      · rw [max_eq_right hneg]
        have hnone {v : ℚ} (hv : v ≤ 0) : ¬ RoundsOver 1024 1 4 v := fun h =>
          absurd (h.pos (by norm_num) (by norm_num)) (not_lt.mpr hv)
        exact iff_of_false (hnone le_rfl) (hnone hneg)
    rw [← hmax]
    exact staysBelow_iff hread hunit hin (by norm_num) (by norm_num) fun _ => hreach
  · rw [Reading.IsNegativeZero, hread.negative, hread.mantissa, hnegative]
    exact ⟨fun h => h.1, fun h => ⟨h, hnull h.2.2⟩⟩
  · exact staysBelow_iff hread' hunit' hin' (by norm_num) (by norm_num) hreach'
  · rw [Reading.IsNegativeZero, hread'.negative, hread'.mantissa, hzero]

end Labels

/-- One byte below a megabyte is printed as 1024 kilobytes, and is a plain compact number. -/
theorem scaled_labels_iff_below_megabyte :
    (Double.ofNat 1048575).isFinite ∧
      ¬ (Reading.ofText (bytesWith true (.ofNat 1048575))).StaysBelow 1024 ["B", "KB", "MB", "GB"] ∧
      ¬ (Reading.ofText (bytesWith true (.ofNat 1048575))).IsNegativeZero ∧
      (Reading.ofText (compact (.ofNat 1048575))).StaysBelow 1000 ["", "K", "M"] ∧
      ¬ (Reading.ofText (compact (.ofNat 1048575))).IsNegativeZero := by
  obtain ⟨hx, hsign, hvalue⟩ := Double.value_ofNat (n := 1048575) (by norm_num)
  obtain ⟨hbytes, hzero, hcompact, hnegative⟩ := scaled_labels_iff hx true
  rw [hvalue] at hbytes hcompact
  push_cast at hbytes hcompact
  refine ⟨hx, fun h => hbytes.mp h ⟨1, by norm_num, by norm_num, by norm_num⟩, fun h => ?_,
    hcompact.mpr ?_, fun h => ?_⟩
  · exact absurd (hsign.symm.trans (hzero.mp h).2.1) Bool.false_ne_true
  · have hin : InUnit 1000 3 2 |(1048575 : ℚ)| := ⟨by norm_num, fun _ => by norm_num,
      fun _ => by norm_num⟩
    rw [hin.roundsOver_iff (by norm_num) (by norm_num)]
    norm_num
  · exact absurd (hsign.symm.trans (hnegative.mp h).1) Bool.false_ne_true

/-- Numbers whose labels belong to the next unit, and one whose label is a negative zero. -/
theorem labels_of_next_unit :
    (Double.ofNat 1048575).isFinite ∧
      (∀ keepSign, bytesWith keepSign (.ofNat 1048575) = "1024 KB") ∧
      (∀ keepSign, ¬ (Reading.ofText (bytesWith keepSign (.ofNat 1048575))).StaysBelow 1024
        ["B", "KB", "MB", "GB"]) ∧
    (Double.ofNat 999950).isFinite ∧ compact (.ofNat 999950) = "1000K" ∧
      ¬ (Reading.ofText (compact (.ofNat 999950))).StaysBelow 1000 ["", "K", "M"] ∧
    (Double.ofDecimal 4 (-2)).neg.isFinite ∧ compact (Double.ofDecimal 4 (-2)).neg = "-0" ∧
      (Reading.ofText (compact (Double.ofDecimal 4 (-2)).neg)).IsNegativeZero := by
  decide +kernel

end TrafficBoard.Label
