import Mathlib
import TrafficBoard.Proofs.Series.Exact
import TrafficBoard.Series.Check

namespace TrafficBoard

/-!
# Checks — what a report says about the series of a chart

* `longest_le_iff`, `pointCount_eq_sum`, `ascends_iff` and `drift?_eq` say what each of the four
  checks finds out;
* `KeepsTo` is what the checks of a category are for, and `allOk_ofCategories_iff` says that they
  all pass exactly when that is so; `allOk_ofCounter_iff` says the same of the checks of a counter.
-/

variable {α : Type}

/-! ### Points -/

/-- The greatest of some numbers is at most a number if they all are. -/
theorem foldl_max_le_iff (sizes : List Nat) (start limit : Nat) :
    sizes.foldl max start ≤ limit ↔ start ≤ limit ∧ ∀ n ∈ sizes, n ≤ limit := by
  induction sizes generalizing start with
  | nil => simp
  | cons n rest ih =>
    rw [List.foldl_cons, ih, Nat.max_le, List.forall_mem_cons, and_assoc]

/-- The longest series is short enough if they all are. -/
theorem longest_le_iff (series : List (Series α)) (limit : Nat) :
    longest series ≤ limit ↔ ∀ s ∈ series, s.size ≤ limit := by
  rw [longest, foldl_max_le_iff, List.forall_mem_map]
  exact and_iff_right (Nat.zero_le _)

/-- The points are counted series by series. -/
theorem pointCount_eq_sum (series : List (Series α)) :
    pointCount series = (series.map Series.size).sum := rfl

/-- Series of one size have as many points as their number and that size make. -/
theorem pointCount_of_size {series : List (Series α)} {n : Nat} (h : ∀ s ∈ series, s.size = n) :
    pointCount series = series.length * n := by
  rw [pointCount_eq_sum, List.map_congr_left h, List.map_const', List.sum_replicate, smul_eq_mul]

/-! ### Instants -/

/-- The instants ascend if each of them is before all the later ones. -/
theorem ascends_iff (points : List (Int × α)) :
    ascends points = true ↔ (points.map Prod.fst).Pairwise (· < ·) := by
  rw [← List.isChain_iff_pairwise]
  induction points with
  | nil => simp [ascends]
  | cons p rest ih =>
    cases rest with
    | nil => simp [ascends]
    | cons q rest =>
      rw [ascends, Bool.and_eq_true, decide_eq_true_iff, ih]
      exact List.isChain_cons_cons.symm

/-! ### Totals -/

section Exact

variable [Count α] [AddCommGroup α] [LinearOrder α] [Count.Exact α]

/-- A series drifts where its total is farther from the raw total than the threshold allows. -/
theorem drift?_eq (chart : String) (rules : CheckRules α) (s : Series α) (raw : α) :
    drift? chart rules s raw =
      if rules.threshold < |s.total - raw| then
        some { chart, series := s.name, rawTotal := raw, outputTotal := s.total,
               delta := s.total - raw }
      else none := by
  simp only [drift?, Count.Exact.sub_eq, Count.Exact.exceeds_iff]

/-- A series has not drifted if its total is as near to the raw total as the threshold asks. -/
theorem drift?_eq_none_iff (chart : String) (rules : CheckRules α) (s : Series α) (raw : α) :
    drift? chart rules s raw = none ↔ |s.total - raw| ≤ rules.threshold := by
  rw [drift?_eq, ← not_lt]
  by_cases hdrift : rules.threshold < |s.total - raw|
  · simp only [hdrift, if_true, reduceCtorEq, not_true]
  · simp only [hdrift, if_false, not_false_eq_true]

omit [Count α] [Count.Exact α] in
/-- A total that has been kept is as near as any threshold asks. -/
theorem abs_sub_le_of_eq {total raw threshold : α} (h : total = raw) (hthreshold : 0 ≤ threshold) :
    |total - raw| ≤ threshold := by
  have hnone : |(0 : α)| = 0 := by rw [abs, neg_zero, sup_idem]
  rw [h, sub_self, hnone]
  exact hthreshold

/-! ### All four checks -/

omit [Count α] [AddCommGroup α] [LinearOrder α] [Count.Exact α] in
/-- The checks of a report pass exactly when every series is short enough, all of them together are,
each of them ascends, and none has drifted. -/
theorem allOk_ofFindings_iff (chart : String) (rules : CheckRules α) (series : List (Series α))
    (drift : List (Drift α)) :
    (Report.ofFindings chart rules series drift).allOk = true ↔
      (∀ s ∈ series, s.size ≤ rules.budget.maxTimelinePoints) ∧
      pointCount series ≤ rules.budget.maxTotalPoints ∧
      (∀ s ∈ series, (s.points.map Prod.fst).Pairwise (· < ·)) ∧ drift = [] := by
  have hlongest := longest_le_iff series rules.budget.maxTimelinePoints
  have hascending : ((series.filter fun s => !ascends s.points).map Series.name).isEmpty = true ↔
      ∀ s ∈ series, (s.points.map Prod.fst).Pairwise (· < ·) := by
    rw [List.isEmpty_iff, List.map_eq_nil_iff, List.filter_eq_nil_iff]
    refine forall₂_congr fun s _ => ?_
    rw [Bool.not_eq_true', Bool.not_eq_false, ascends_iff]
  -- The checks in the order in which they are made.
  have hchecks : (Report.ofFindings chart rules series drift).allOk = true ↔
      longest series ≤ rules.budget.maxTimelinePoints ∧
      pointCount series ≤ rules.budget.maxTotalPoints ∧
      ((series.filter fun s => !ascends s.points).map Series.name).isEmpty = true ∧
      drift.length = 0 := by
    simp [Report.allOk, Report.ofFindings, shapeFindings, Check.ok, Finding.ok]
  rw [hchecks, hlongest, hascending, List.length_eq_zero_iff]

/-- What the checks of a category are for. -/
structure KeepsTo (rules : CheckRules α) (raw : List (Bucket α)) (series : List (Series α)) :
    Prop where
  pointsPerSeries : ∀ s ∈ series, s.size ≤ rules.budget.maxTimelinePoints
  totalPoints : pointCount series ≤ rules.budget.maxTotalPoints
  ascending : ∀ s ∈ series, (s.points.map Prod.fst).Pairwise (· < ·)
  massPreserved : ∀ s ∈ series, |s.total - rawTotal raw s.name| ≤ rules.threshold

/-- The drifts of a report are those of its series. -/
theorem drift_ofCategories_eq_nil_iff (chart : String) (raw : List (Bucket α))
    (series : List (Series α)) (rules : CheckRules α) :
    (Report.ofCategories chart raw series rules).drift = [] ↔
      ∀ s ∈ series, |s.total - rawTotal raw s.name| ≤ rules.threshold := by
  show series.filterMap (fun s => drift? chart rules s (rawTotal raw s.name)) = [] ↔ _
  rw [List.filterMap_eq_nil_iff]
  exact forall₂_congr fun s _ => drift?_eq_none_iff chart rules s _

/-- **The four checks of a category pass exactly when the series keep to what they are for.** -/
theorem allOk_ofCategories_iff (chart : String) (raw : List (Bucket α)) (series : List (Series α))
    (rules : CheckRules α) :
    (Report.ofCategories chart raw series rules).allOk = true ↔ KeepsTo rules raw series := by
  have hdrift := drift_ofCategories_eq_nil_iff chart raw series rules
  rw [Report.ofCategories] at hdrift ⊢
  rw [allOk_ofFindings_iff, show series.filterMap _ = [] ↔ _ from hdrift]
  exact ⟨fun ⟨h₁, h₂, h₃, h₄⟩ => ⟨h₁, h₂, h₃, h₄⟩, fun h => ⟨h.1, h.2, h.3, h.4⟩⟩

/-- The drift of a counter is that of its only series. -/
theorem drift_ofCounter_eq_nil_iff (chart : String) (raw : List (Int × α)) (s : Series α)
    (rules : CheckRules α) :
    (Report.ofCounter chart raw s rules).drift = [] ↔
      |s.total - (raw.map Prod.snd).sum| ≤ rules.threshold := by
  show (drift? chart rules s (Count.sum (raw.map Prod.snd))).toList = [] ↔ _
  rw [Option.toList_eq_nil_iff, drift?_eq_none_iff, Count.sum_eq_sum]

/-- **The four checks of a counter pass exactly when its series** is short enough by either bound,
ascends, and has kept its total. -/
theorem allOk_ofCounter_iff (chart : String) (raw : List (Int × α)) (s : Series α)
    (rules : CheckRules α) :
    (Report.ofCounter chart raw s rules).allOk = true ↔
      s.size ≤ rules.budget.maxTimelinePoints ∧ s.size ≤ rules.budget.maxTotalPoints ∧
      (s.points.map Prod.fst).Pairwise (· < ·) ∧
      |s.total - (raw.map Prod.snd).sum| ≤ rules.threshold := by
  have hdrift := drift_ofCounter_eq_nil_iff chart raw s rules
  have hcount : pointCount [s] = s.size := by simp [pointCount_eq_sum]
  rw [Report.ofCounter] at hdrift ⊢
  rw [allOk_ofFindings_iff, hcount, show (drift? _ _ _ _).toList = [] ↔ _ from hdrift]
  simp

end Exact

end TrafficBoard
