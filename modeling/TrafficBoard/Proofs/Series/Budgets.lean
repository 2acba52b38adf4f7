import Mathlib
import TrafficBoard.Number.Word
import TrafficBoard.Proofs.Series.Checks
import TrafficBoard.Proofs.Series.WindowSums

namespace TrafficBoard

/-!
# Budgets — the series of a chart keep to the points that they are allowed

* `Budget.maxSeriesFor_mul_le` says that the series that a budget has room for fit into it;
* `Legend.size_plan_le` bounds the points of the grid of a chart;
* `Legend.keepsTo_build` says that a chart passes every check of its category.

All series of a chart have one point for each point of the grid, so the number of points is a
product, and the number of series was chosen with the size of the grid in hand.
-/

/-- The series of a length that a budget has room for have no more points than it allows, as long
as one of them has not. -/
theorem Budget.maxSeriesFor_mul_le (b : Budget) {length : Nat} (h : length ≤ b.maxTotalPoints) :
    b.maxSeriesFor length * length ≤ b.maxTotalPoints := by
  unfold maxSeriesFor
  rcases Nat.eq_zero_or_pos length with rfl | hpos
  · rw [Nat.mul_zero]
    exact Nat.zero_le _
  · rw [max_eq_right (show 1 ≤ length from hpos)]
    have hroom : 1 ≤ b.maxTotalPoints / length := (Nat.one_le_div_iff hpos).2 h
    rw [max_eq_right hroom]
    exact Nat.div_mul_le_self _ _

namespace Legend

variable {α : Type}

/-! ### The size of the grid -/

/-- A chart without a step has at most one instant. -/
theorem length_timeline_of_step_eq_none {legend : Legend} {buckets : List (Bucket α)}
    (h : legend.step buckets = none) : (timeline (buckets.map Bucket.time)).length ≤ 1 := by
  rw [step, Option.or_eq_none_iff] at h
  exact length_le_one_of_modalStep_eq_none (timeline_ascends _) h.2

/-- **The grid of a chart has no more points than allowed,** if its buckets have instants that are
words in milliseconds. -/
theorem size_plan_le (legend : Legend) {buckets : List (Bucket α)}
    (hwords : ∀ b ∈ buckets, Number.InWord (b.time * 1000))
    (htwo : 2 ≤ legend.budget.maxTimelinePoints) :
    (legend.plan buckets).size ≤ legend.budget.maxTimelinePoints := by
  have hbounds : ∀ t ∈ timeline (buckets.map Bucket.time), Number.InWord (t * 1000) := by
    intro t ht
    obtain ⟨b, hb, rfl⟩ := List.mem_map.1 (mem_timeline.1 ht)
    exact hwords b hb
  have hlength := Plan.length_points_le (timeline_ascends (buckets.map Bucket.time))
    (legend.step_pos buckets) legend.budget.maxTimelinePoints
    (fun h => length_timeline_of_step_eq_none h) (Plan.sub_lt_wordMax hbounds)
  rw [max_eq_left htwo] at hlength
  exact hlength

variable [Count α]

/-! ### Points and instants -/

/-- The line of a label has the instants of its grid, in milliseconds. -/
theorem map_fst_windowLine (buckets : List (Bucket α)) (label : String) (points : List Int) :
    (windowLine buckets label points).map Prod.fst = points.map (· * 1000) := by
  induction points with
  | nil => rfl
  | cons t rest ih => rw [windowLine, List.map_cons, List.map_cons, ih]

/-- A series of a chart has the instants of the grid. -/
theorem instants_of_mem_build {legend : Legend} {buckets : List (Bucket α)} {s : Series α}
    (hs : s ∈ legend.build buckets) :
    s.points.map Prod.fst = (legend.plan buckets).points.map (· * 1000) := by
  obtain ⟨label, rfl, -⟩ := exists_line_of_mem_build hs
  rw [points_line, map_fst_windowLine]

/-- A series of a chart has a point for each point of the grid. -/
theorem size_of_mem_build {legend : Legend} {buckets : List (Bucket α)} {s : Series α}
    (hs : s ∈ legend.build buckets) : s.size = (legend.plan buckets).size := by
  have hinstants := congrArg List.length (instants_of_mem_build hs)
  rw [List.length_map, List.length_map] at hinstants
  exact hinstants

/-- A series of a chart ascends strictly. -/
theorem ascending_of_mem_build {legend : Legend} {buckets : List (Bucket α)} {s : Series α}
    (hs : s ∈ legend.build buckets) : (s.points.map Prod.fst).Pairwise (· < ·) := by
  rw [instants_of_mem_build hs, List.pairwise_map]
  refine (legend.plan_ascends buckets).imp fun h => ?_
  omega

/-- A chart has no more series than the budget has room for. -/
theorem length_build_le (legend : Legend) (buckets : List (Bucket α)) :
    (legend.build buckets).length ≤ legend.budget.maxSeriesFor (legend.plan buckets).size := by
  calc (legend.build buckets).length
      ≤ ((legend.keys buckets).map (line (legend.plan buckets) buckets)).length :=
        List.length_filter_le _ _
    _ = (legend.keys buckets).length := List.length_map _
    _ ≤ legend.budget.maxSeriesFor (legend.plan buckets).size := List.length_take_le _ _

/-! ### All checks of a chart -/

section Exact

variable [AddCommGroup α] [LinearOrder α] [Count.Exact α]

/-- A series of a chart has the raw total of its label. -/
theorem total_of_mem_build {legend : Legend} {buckets : List (Bucket α)} {s : Series α}
    (hs : s ∈ legend.build buckets) : s.total = rawTotal buckets s.name := by
  obtain ⟨label, rfl, -⟩ := exists_line_of_mem_build hs
  rw [total_line, rawTotal, Count.sum_eq_sum]
  rfl

/-- **A chart keeps to its budget, ascends, and keeps every total,** whatever its labels. -/
theorem keepsTo_build (legend : Legend) {buckets : List (Bucket α)} {rules : CheckRules α}
    (hbudget : rules.budget = legend.budget) (hthreshold : 0 ≤ rules.threshold)
    (htwo : 2 ≤ legend.budget.maxTimelinePoints)
    (htotal : legend.budget.maxTimelinePoints ≤ legend.budget.maxTotalPoints)
    (hwords : ∀ b ∈ buckets, Number.InWord (b.time * 1000)) :
    KeepsTo rules buckets (legend.build buckets) := by
  have hsize := legend.size_plan_le hwords htwo
  refine ⟨fun s hs => ?_, ?_, fun s hs => ascending_of_mem_build hs, fun s hs => ?_⟩
  · rw [size_of_mem_build hs, hbudget]
    exact hsize
  · -- The number of points is a product, and its factors were chosen together.
    rw [pointCount_of_size fun s hs => size_of_mem_build hs, hbudget]
    exact (Nat.mul_le_mul_right _ (legend.length_build_le buckets)).trans
      (legend.budget.maxSeriesFor_mul_le (hsize.trans htotal))
  · exact abs_sub_le_of_eq (total_of_mem_build hs) hthreshold

end Exact

end Legend

end TrafficBoard
