import Mathlib
import TrafficBoard.Proofs.Series.Budgets

namespace TrafficBoard

/-!
# Trimming — a budget takes labels from the end of a legend

* `isActive_iff_total_ne_zero` says that a series without negative values is zero throughout just
  when its total is zero, so that whether a label is drawn does not depend on the windows;
* `Legend.names_build` lists the names of a chart without its grid: of the chosen labels that the
  budget has room for, those whose counts do not add up to zero;
* `Legend.names_build_prefix` compares the charts of two budgets.
-/

variable {α : Type} [Count α] [AddCommGroup α] [LinearOrder α] [Count.Exact α]
  [IsOrderedAddMonoid α]

/-- A series without negative values is zero throughout just when its total is zero. -/
theorem isActive_iff_total_ne_zero {s : Series α} (h : ∀ p ∈ s.points, 0 ≤ p.2) :
    Legend.isActive s ↔ s.total ≠ 0 := by
  have hvalues : ∀ v ∈ s.points.map Prod.snd, 0 ≤ v := List.forall_mem_map.2 h
  have hzero : s.total = 0 ↔ ∀ p ∈ s.points, p.2 = 0 := by
    rw [Series.total, Count.sum_eq_sum]
    constructor
    · intro hsum p hp
      exact List.all_zero_of_le_zero_le_of_sum_eq_zero hvalues hsum (List.mem_map_of_mem hp)
    · intro hall
      exact List.sum_eq_zero (List.forall_mem_map.2 hall)
  rw [ne_eq, hzero, Legend.isActive, List.any_eq_true]
  simp only [Bool.not_eq_true', ← Bool.not_eq_true, Count.Exact.isZero_iff, not_forall, exists_prop]

namespace Legend

variable {buckets : List (Bucket α)}

/-! ### Lines without negative values -/

omit [Count α] [Count.Exact α] [IsOrderedAddMonoid α] in
/-- Buckets without negative counts have none for any label. -/
theorem nonneg_of_mem_countsOf (nonneg : ∀ b ∈ buckets, ∀ e ∈ b.counts.entries, 0 ≤ e.2)
    {label : String} {count : α} (h : count ∈ countsOf label buckets) : 0 ≤ count := by
  obtain ⟨b, hb, hcount⟩ := List.mem_filterMap.1 h
  exact nonneg b hb _ (CountMap.get?_eq_some_iff.1 hcount)

/-- Buckets without negative counts make lines without negative values. -/
theorem nonneg_of_mem_windowLine (nonneg : ∀ b ∈ buckets, ∀ e ∈ b.counts.entries, 0 ≤ e.2)
    {label : String} {points : List Int} {p : Int × α} (h : p ∈ windowLine buckets label points) :
    0 ≤ p.2 := by
  induction points with
  | nil => exact absurd h (by simp [windowLine])
  | cons t rest ih =>
    rcases List.mem_cons.1 h with rfl | hrest
    · rw [windowTotal, Count.total_eq_sum]
      apply List.sum_nonneg
      intro count hcount
      exact nonneg_of_mem_countsOf (fun b hb => nonneg b (List.mem_of_mem_filter hb)) hcount
    · exact ih hrest

/-- **Whether a label is drawn does not depend on the windows:** it is just when its counts do not
add up to zero. -/
theorem isActive_line_iff (legend : Legend)
    (nonneg : ∀ b ∈ buckets, ∀ e ∈ b.counts.entries, 0 ≤ e.2) (label : String) :
    isActive (line (legend.plan buckets) buckets label) ↔ (countsOf label buckets).sum ≠ 0 := by
  rw [isActive_iff_total_ne_zero, total_line]
  intro p hp
  rw [points_line] at hp
  exact nonneg_of_mem_windowLine nonneg hp

/-! ### The names of a chart -/

/-- The names of a chart are the chosen labels that the budget has room for, without those whose
counts add up to zero. -/
theorem names_build (legend : Legend)
    (nonneg : ∀ b ∈ buckets, ∀ e ∈ b.counts.entries, 0 ≤ e.2) :
    (legend.build buckets).map Series.name =
      (legend.keys buckets).filter fun label => (countsOf label buckets).sum ≠ 0 := by
  have hactive : isActive ∘ line (legend.plan buckets) buckets =
      fun label => decide ((countsOf label buckets).sum ≠ 0) := by
    funext label
    rw [Bool.eq_iff_iff, decide_eq_true_iff]
    exact legend.isActive_line_iff nonneg label
  rw [build, List.filter_map, hactive, List.map_map]
  exact List.map_id _

/-- **A budget takes labels from the end of a legend.** Take buckets without negative counts, any
legend and any two budgets. The names of the series under the one budget start the names under the
other one, or the other way round, and a label that is drawn under both has the same total under
both. -/
theorem names_build_prefix (legend : Legend)
    (nonneg : ∀ b ∈ buckets, ∀ e ∈ b.counts.entries, 0 ≤ e.2) (budget other : Budget) :
    let chart (b : Budget) := ({ legend with budget := b } : Legend).build buckets
    ((chart budget).map Series.name <+: (chart other).map Series.name ∨
      (chart other).map Series.name <+: (chart budget).map Series.name) ∧
    ∀ s ∈ chart budget, ∀ u ∈ chart other, s.name = u.name → s.total = u.total := by
  intro chart
  constructor
  · -- Both lists of names are cut from the chosen labels, which do not depend on the budget.
    rw [names_build _ nonneg, names_build _ nonneg]
    rcases le_total (budget.maxSeriesFor (plan { legend with budget := budget } buckets).size)
        (other.maxSeriesFor (plan { legend with budget := other } buckets).size) with hle | hge
    · exact Or.inl ((List.take_prefix_take_left hle).filter _)
    · exact Or.inr ((List.take_prefix_take_left hge).filter _)
  · intro s hs u hu hname
    rw [total_of_mem_build hs, total_of_mem_build hu, hname]

/-- Buckets without negative counts, two of them off the grid, and one label without any count. -/
def steadyBuckets : List (Bucket Int) :=
  [{ time := 0, counts := .ofPairs [("dns", 2), ("ntp", 0)] },
    { time := 60, counts := .ofPairs [("tls", 3)] },
    { time := 130, counts := .ofPairs [("tls", 5), ("ssh", 1)] },
    { time := 150, counts := .ofPairs [("dns", 1)] }]

/-- With room for eight points in all, a grid of four points leaves room for two labels and a grid
of two points for four. The first label leads and is zero, so the shorter grid shows three names and
the longer one the first of them. -/
theorem names_build_prefix_shorter_grid :
    let longer : Legend := { preferred := ["ntp"], budget := ⟨100, 8⟩ }
    let shorter : Legend := { longer with budget := ⟨2, 8⟩ }
    (∀ b ∈ steadyBuckets, ∀ e ∈ b.counts.entries, 0 ≤ e.2) ∧
      (longer.build steadyBuckets).map Series.name = ["tls"] ∧
      (shorter.build steadyBuckets).map Series.name = ["tls", "dns", "ssh"] ∧
      ((longer.build steadyBuckets).map Series.name <+: (shorter.build steadyBuckets).map Series.name ∨
        (shorter.build steadyBuckets).map Series.name <+:
          (longer.build steadyBuckets).map Series.name) := by
  intro longer shorter
  have nonneg : ∀ b ∈ steadyBuckets, ∀ e ∈ b.counts.entries, 0 ≤ e.2 := by decide
  exact ⟨nonneg, by cbv, by cbv, (longer.names_build_prefix nonneg ⟨100, 8⟩ ⟨2, 8⟩).1⟩

end Legend

end TrafficBoard
