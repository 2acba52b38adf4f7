import Mathlib
import TrafficBoard.Proofs.Series.Selection
import TrafficBoard.Proofs.Series.Totals
import TrafficBoard.Proofs.Series.Windows
import TrafficBoard.Series.Builder

namespace TrafficBoard.Legend

/-!
# Window sums — the lines of a chart are the sums of its windows

* `windowLine` is the line of a label by definition: at each point of a grid the counts of the label
  in the buckets from that point up to the next one;
* `points_line` says that the lines of a chart are such lines, `owner_unique` that every bucket lies
  in one window;
* `total_line` says that with exact counts a line keeps the total of its label;
* `build_eq_windowLines` puts this together for all series of a chart.
-/

variable {α : Type}

/-! ### The grid of a chart -/

/-- The step of a chart, given or found. -/
def step (legend : Legend) (buckets : List (Bucket α)) : Option Int :=
  (usableStep legend.baseStep).or (modalStep (timeline (buckets.map Bucket.time)))

/-- The step of a chart is positive. -/
theorem step_pos (legend : Legend) (buckets : List (Bucket α)) :
    ∀ s ∈ legend.step buckets, 0 < s := by
  intro s hs
  exact pos_of_usableStep_or_modalStep hs

/-- The points of a chart ascend strictly. -/
theorem plan_ascends (legend : Legend) (buckets : List (Bucket α)) :
    (legend.plan buckets).points.Pairwise (· < ·) :=
  Plan.points_ascend (timeline_ascends _) (legend.step_pos buckets) _

/-- No bucket lies before the first point of its chart. -/
theorem head_plan_le (legend : Legend) {buckets : List (Bucket α)} {b : Bucket α}
    (hb : b ∈ buckets) : ∃ t rest, (legend.plan buckets).points = t :: rest ∧ t ≤ b.time := by
  have hsorted := timeline_ascends (buckets.map Bucket.time)
  have hhead : (legend.plan buckets).points.head? = _ :=
    Plan.head?_points hsorted (legend.step_pos buckets) legend.budget.maxTimelinePoints
  have hmem : b.time ∈ timeline (buckets.map Bucket.time) :=
    mem_timeline.2 (List.mem_map_of_mem hb)
  cases htimes : timeline (buckets.map Bucket.time) with
  | nil =>
    rw [htimes] at hmem
    exact absurd hmem (by simp)
  | cons t rest =>
    rw [htimes] at hmem hsorted
    rw [htimes, List.head?_cons, List.head?_eq_some_iff] at hhead
    obtain ⟨points, hpoints⟩ := hhead
    exact ⟨t, points, hpoints, head_le_of_mem hsorted hmem⟩

/-- **Every bucket lies in the window of exactly one point.** -/
theorem owner_unique (legend : Legend) {buckets : List (Bucket α)} {b : Bucket α}
    (hb : b ∈ buckets) : ∃! k, Plan.Owns (legend.plan buckets).points k b.time := by
  obtain ⟨t, rest, hpoints, hle⟩ := legend.head_plan_le hb
  have hasc := legend.plan_ascends buckets
  rw [hpoints] at hasc ⊢
  refine ⟨_, Plan.owns_takeWhile hasc hle, ?_⟩
  intro k hk
  exact hk.unique hasc (Plan.owns_takeWhile hasc hle)

/-! ### The line of a label -/

/-- The samples of a label at some instants are its counts in the buckets of these instants. -/
theorem map_filter_samplesOf (label : String) (buckets : List (Bucket α)) (keep : Int → Bool) :
    (((samplesOf label buckets).filter fun s => keep s.1).map Prod.snd) =
      countsOf label (buckets.filter fun b => keep b.time) := by
  induction buckets with
  | nil => rfl
  | cons b rest ih =>
    rw [samplesOf] at ih ⊢
    rw [List.filterMap_cons]
    cases hcount : b.counts.get? label with
    | none =>
      by_cases hkeep : keep b.time
      · simpa [countsOf, hcount, hkeep] using ih
      · simpa [hkeep] using ih
    | some count =>
      by_cases hkeep : keep b.time
      · simpa [countsOf, hcount, hkeep] using ih
      · simpa [hkeep] using ih

variable [Count α]

/-- The counts of a label in the window from a point up to the next one, added up from zero in the
order of the buckets. -/
def windowTotal (buckets : List (Bucket α)) (label : String) (t : Int) (next : Option Int) : α :=
  Count.total (countsOf label (buckets.filter fun b => Plan.inWindow t next b.time))

/-- The line of a label over a grid by its windows, in milliseconds. -/
def windowLine (buckets : List (Bucket α)) (label : String) : List Int → List (Int × α)
  | [] => []
  | t :: rest =>
    (t * 1000, windowTotal buckets label t rest.head?) :: windowLine buckets label rest

/-- The window sums of the samples of a label make its line. -/
theorem toMillis_windowTotals (buckets : List (Bucket α)) (label : String) (points : List Int) :
    toMillis (Plan.windowTotals (samplesOf label buckets) points) =
      windowLine buckets label points := by
  induction points with
  | nil => rfl
  | cons t rest ih =>
    rw [Plan.windowTotals, windowLine, ← ih, map_filter_samplesOf]
    rfl

/-- **The line of a label has the sums of its windows.** -/
theorem points_line (legend : Legend) (buckets : List (Bucket α)) (label : String) :
    (line (legend.plan buckets) buckets label).points =
      windowLine buckets label (legend.plan buckets).points := by
  -- Both sides are in milliseconds, so it is enough to compare the sums before.
  have hzip := Plan.zip_accumulate (timeline_ascends (buckets.map Bucket.time))
    (legend.step_pos buckets) legend.budget.maxTimelinePoints (samplesOf label buckets)
  rw [← toMillis_windowTotals]
  exact congrArg toMillis hzip

/-- A label without counts has a line of zeros. -/
theorem eq_zero_of_mem_windowLine {buckets : List (Bucket α)} {label : String}
    (h : countsOf label buckets = []) {points : List Int} {p : Int × α}
    (hp : p ∈ windowLine buckets label points) : p.2 = Count.zero := by
  have hnone : ∀ b ∈ buckets, b.counts.get? label = none := List.filterMap_eq_nil_iff.1 h
  induction points with
  | nil => exact absurd hp (by simp [windowLine])
  | cons t rest ih =>
    rcases List.mem_cons.1 hp with rfl | hrest
    · have hwindow : countsOf label
          (buckets.filter fun b => Plan.inWindow t rest.head? b.time) = [] :=
        List.filterMap_eq_nil_iff.2 fun b hb => hnone b (List.mem_of_mem_filter hb)
      simp only [windowTotal, hwindow, Count.total_nil]
    · exact ih hrest

section Exact

variable [AddCommGroup α] [LinearOrder α] [Count.Exact α]

/-- **A line keeps the total of its label.** -/
theorem total_line (legend : Legend) (buckets : List (Bucket α)) (label : String) :
    (line (legend.plan buckets) buckets label).total = (countsOf label buckets).sum := by
  rw [Series.total, points_line, Count.sum_eq_sum, ← toMillis_windowTotals, toMillis, List.map_map,
    Function.comp_def]
  have hcounts := map_filter_samplesOf label buckets fun _ => true
  simp only [List.filter_true] at hcounts
  have hinstants : ∀ s ∈ samplesOf label buckets, s.1 ∈ timeline (buckets.map Bucket.time) := by
    intro s hs
    obtain ⟨b, hb, hs⟩ := List.mem_filterMap.1 hs
    obtain ⟨count, -, rfl⟩ := Option.map_eq_some_iff.1 hs
    exact mem_timeline.2 (List.mem_map_of_mem hb)
  rw [← hcounts]
  exact Plan.sum_windowTotals_points (timeline_ascends _) (legend.step_pos buckets) _ hinstants

/-- A line that is not zero throughout has a label with counts. -/
theorem countsOf_ne_nil_of_isActive {legend : Legend} {buckets : List (Bucket α)} {label : String}
    (h : isActive (line (legend.plan buckets) buckets label)) : countsOf label buckets ≠ [] := by
  intro hnil
  rw [isActive, points_line, List.any_eq_true] at h
  obtain ⟨p, hp, hne⟩ := h
  have hzero : Count.isZero p.2 = true := by
    rw [eq_zero_of_mem_windowLine hnil hp, Count.Exact.isZero_iff, Count.Exact.zero_eq]
  rw [hzero] at hne
  exact absurd hne (by simp)

end Exact

/-! ### The series of a chart -/

/-- A series of a chart is the line of a label, and not zero throughout. -/
theorem exists_line_of_mem_build {legend : Legend} {buckets : List (Bucket α)} {s : Series α}
    (hs : s ∈ legend.build buckets) :
    ∃ label, s = line (legend.plan buckets) buckets label ∧ isActive s := by
  rw [build, List.mem_filter, List.mem_map] at hs
  obtain ⟨⟨label, -, rfl⟩, hactive⟩ := hs
  exact ⟨label, rfl, hactive⟩

/-- The series of a chart have different names. -/
theorem names_build_nodup (legend : Legend) (buckets : List (Bucket α)) :
    ((legend.build buckets).map Series.name).Nodup := by
  -- A line bears the label that it was made for, and dropping lines repeats none.
  have hkeys : (legend.keys buckets).Nodup :=
    (legend.select_nodup _).sublist (List.take_sublist _ _)
  have hnames : ((legend.keys buckets).map (line (legend.plan buckets) buckets)).map Series.name =
      legend.keys buckets := by
    rw [List.map_map]
    exact List.map_id _
  rw [← hnames] at hkeys
  exact hkeys.sublist (List.filter_sublist.map _)

/-- **The series of a chart are the window sums of its labels.** The grid is laid over the distinct
instants of the buckets in order, with the given step or else the most frequent distance; every
bucket lies in one window; the series are, in order, the chosen labels that the budget has room for
and that are not zero throughout, each with the sums of its windows, and none of them occurs twice.
With exact counts each series adds up to the total of its label over all buckets. -/
theorem build_eq_windowLines (legend : Legend) (buckets : List (Bucket α)) :
    let observed := timeline (buckets.map Bucket.time)
    let grid := (Plan.ofObserved observed ((usableStep legend.baseStep).or (modalStep observed))
      legend.budget.maxTimelinePoints).points
    let keys := (legend.select (totals buckets)).take (legend.budget.maxSeriesFor grid.length)
    (observed.Pairwise (· < ·) ∧ ∀ t, t ∈ observed ↔ ∃ b ∈ buckets, b.time = t) ∧
    (grid.Pairwise (· < ·) ∧ ∀ b ∈ buckets, ∃! k, Plan.Owns grid k b.time) ∧
    legend.build buckets =
      (keys.map fun key => ⟨key, windowLine buckets key grid⟩).filter
        (fun s => s.points.any fun p => !Count.isZero p.2) ∧
    ((legend.build buckets).map Series.name).Nodup ∧
    (∀ [AddCommGroup α] [LinearOrder α] [Count.Exact α], ∀ s ∈ legend.build buckets,
      (totals buckets).get? s.name = some s.total ∧ s.total = (countsOf s.name buckets).sum) := by
  intro observed grid keys
  refine ⟨⟨timeline_ascends _, fun t => ?_⟩, ⟨legend.plan_ascends buckets, ?_⟩, ?_,
    legend.names_build_nodup buckets, ?_⟩
  · rw [mem_timeline, List.mem_map]
  · exact fun b hb => legend.owner_unique hb
  · have hlines : (legend.keys buckets).map (line (legend.plan buckets) buckets) =
        keys.map fun key => ⟨key, windowLine buckets key grid⟩ := by
      refine List.map_congr_left fun key _ => ?_
      have hpoints : _ = windowLine buckets key grid := legend.points_line buckets key
      rw [← hpoints]
      rfl
    rw [build, hlines]
    rfl
  · intro _ _ _ s hs
    obtain ⟨key, rfl, hactive⟩ := exists_line_of_mem_build hs
    have hcounts := countsOf_ne_nil_of_isActive hactive
    have hname : (line (legend.plan buckets) buckets key).name = key := rfl
    refine ⟨?_, by rw [total_line, hname]⟩
    rw [get?_totals, total_line, hname, Count.total_eq_sum, List.isEmpty_eq_false_iff.2 hcounts]
    rfl

/-- Buckets out of order, two of one instant, one off the grid, and the last one off it as well. -/
def scatteredBuckets : List (Bucket Int) :=
  [{ time := 150, counts := .ofPairs [("tls", 4), ("dns", 1)] },
    { time := 0, counts := .ofPairs [("dns", 2), ("ntp", 0)] },
    { time := 60, counts := .ofPairs [("tls", 3)] },
    { time := 130, counts := .ofPairs [("tls", 5)] },
    { time := 60, counts := .ofPairs [("dns", -1), ("tls", 1)] }]

/-- Three points at most, so that windows of two steps and the appended point are left. -/
def narrowLegend : Legend where
  preferred := ["dns"]
  budget := { maxTimelinePoints := 3, maxTotalPoints := 9 }
  baseStep := some 60

/-- Whole numbers are exact counts, and two series come out of the scattered buckets. -/
theorem build_eq_windowLines_scattered :
    (narrowLegend.build scatteredBuckets).map (fun s => (s.name, s.points)) =
      [("dns", [(0, 1), (120000, 0), (150000, 1)]), ("tls", [(0, 4), (120000, 5), (150000, 4)])] ∧
    ∀ s ∈ narrowLegend.build scatteredBuckets,
      (totals scatteredBuckets).get? s.name = some s.total ∧
        s.total = (countsOf s.name scatteredBuckets).sum :=
  ⟨by cbv, (build_eq_windowLines narrowLegend scatteredBuckets).2.2.2.2⟩

end TrafficBoard.Legend
