import Mathlib
import TrafficBoard.Proofs.Series.WindowSums

namespace TrafficBoard

/-!
# Arrival order — a chart does not depend on the order of its buckets

* `timeline_perm` says that the grid does not, `entries_totals_perm` that with exact counts the
  totals do not, but for the order of mention;
* `rank_eq_of_perm` says that the order of mention does not show in a ranking without equal counts;
* `Legend.line_perm` says that the line of a label does not depend on the order either;
* `Legend.build_perm` puts this together.
-/

variable {α : Type}

/-! ### Instants and counts in another order -/

/-- The distinct instants do not depend on the order of the instants. -/
theorem timeline_perm {times others : List Int} (h : times.Perm others) :
    timeline times = timeline others := by
  refine (timeline_ascends times).eq_of_mem_iff (timeline_ascends others) fun t => ?_
  rw [mem_timeline, mem_timeline, h.mem_iff]

/-- The counts of a label come in the order of the buckets. -/
theorem countsOf_perm {buckets others : List (Bucket α)} (h : buckets.Perm others)
    (label : String) : (countsOf label buckets).Perm (countsOf label others) :=
  h.filterMap _

/-- Legends choose by the ranking of the totals alone. -/
theorem Legend.select_congr [Count α] (legend : Legend) {m other : CountMap α}
    (h : rank m = rank other) : legend.select m = legend.select other := by
  rw [select, select, ranked, ranked, h]

section Exact

variable [Count α] [AddCommGroup α] [LinearOrder α] [Count.Exact α]
  {buckets others : List (Bucket α)}

/-- The total of a label does not depend on the order of the buckets. -/
theorem get?_totals_perm (h : buckets.Perm others) (label : String) :
    (totals buckets).get? label = (totals others).get? label := by
  have hcounts := countsOf_perm h label
  have hempty : countsOf label buckets = [] ↔ countsOf label others = [] := by
    rw [← List.length_eq_zero_iff, hcounts.length_eq, List.length_eq_zero_iff]
  simp only [get?_totals, Count.total_eq_sum, hcounts.sum_eq, List.isEmpty_iff, hempty]

/-- The totals in another order of the buckets have the same entries. -/
theorem entries_totals_perm (h : buckets.Perm others) :
    (totals buckets).entries.Perm (totals others).entries := by
  have hnodup : ∀ m : CountMap α, m.entries.Nodup := fun m => m.nodup.of_map
  rw [List.perm_ext_iff_of_nodup (hnodup _) (hnodup _)]
  rintro ⟨label, total⟩
  rw [← CountMap.get?_eq_some_iff, ← CountMap.get?_eq_some_iff, get?_totals_perm h]

/-- **Without equal counts the order of mention does not show in a ranking.** -/
theorem rank_eq_of_perm {m other : CountMap α} (h : m.entries.Perm other.entries)
    (distinct : (m.entries.map Prod.snd).Nodup) : rank m = rank other := by
  have hranks : (rank m).Perm (rank other) := m.perm_rank.trans (h.trans other.perm_rank.symm)
  refine List.Perm.eq_of_pairwise ?_ m.rank_descends other.rank_descends hranks
  intro e f he hf hfe hef
  rw [Count.Exact.atMost_iff] at hfe hef
  have hmem : f ∈ m.entries := h.mem_iff.2 (CountMap.mem_rank.1 hf)
  exact List.inj_on_of_nodup_map distinct (CountMap.mem_rank.1 he) hmem (le_antisymm hef hfe)

namespace Legend

/-! ### Charts in another order -/

omit [Count α] [AddCommGroup α] [LinearOrder α] [Count.Exact α] in
/-- The grid of a chart does not depend on the order of the buckets. -/
theorem plan_perm (legend : Legend) (h : buckets.Perm others) :
    legend.plan buckets = legend.plan others := by
  rw [plan, plan, timeline_perm (h.map Bucket.time)]

/-- The window sums of a label do not depend on the order of the buckets. -/
theorem windowLine_perm (h : buckets.Perm others) (label : String) (points : List Int) :
    windowLine buckets label points = windowLine others label points := by
  induction points with
  | nil => rfl
  | cons t rest ih =>
    have hwindow := countsOf_perm (h.filter fun b => Plan.inWindow t rest.head? b.time) label
    rw [windowLine, windowLine, ih, windowTotal, windowTotal, Count.total_eq_sum,
      Count.total_eq_sum, hwindow.sum_eq]

/-- The line of a label does not depend on the order of the buckets. -/
theorem line_perm (legend : Legend) (h : buckets.Perm others) (label : String) :
    line (legend.plan buckets) buckets label = line (legend.plan others) others label := by
  have hpoints : (line (legend.plan buckets) buckets label).points =
      (line (legend.plan others) others label).points := by
    rw [points_line, points_line, legend.plan_perm h, windowLine_perm h]
  exact congrArg (Series.mk label) hpoints

/-- **A chart does not depend on the order of its buckets,** unless two labels have the same
total: with exact counts, the same buckets in any other order make the same series in the same
order. -/
theorem build_perm (legend : Legend) (h : buckets.Perm others)
    (distinct : ((totals buckets).entries.map Prod.snd).Nodup) :
    legend.build buckets = legend.build others := by
  have hkeys : legend.keys buckets = legend.keys others := by
    rw [keys, keys, legend.plan_perm h,
      legend.select_congr (rank_eq_of_perm (entries_totals_perm h) distinct)]
  have hlines : line (legend.plan buckets) buckets = line (legend.plan others) others :=
    funext (legend.line_perm h)
  rw [build, build, hkeys, hlines]

end Legend

end Exact

/-- The scattered buckets the other way round mention their labels in another order, and no two
labels have the same total. -/
theorem Legend.build_perm_reversed :
    scatteredBuckets.Perm scatteredBuckets.reverse ∧
      ((totals scatteredBuckets).entries.map Prod.snd).Nodup ∧
      (totals scatteredBuckets).labels = ["tls", "dns", "ntp"] ∧
      (totals scatteredBuckets.reverse).labels = ["dns", "tls", "ntp"] ∧
      narrowLegend.build scatteredBuckets = narrowLegend.build scatteredBuckets.reverse := by
  have hperm : scatteredBuckets.Perm scatteredBuckets.reverse := (List.reverse_perm _).symm
  have hdistinct : ((totals scatteredBuckets).entries.map Prod.snd).Nodup := by decide
  exact ⟨hperm, hdistinct, by decide, by decide, narrowLegend.build_perm hperm hdistinct⟩

end TrafficBoard
