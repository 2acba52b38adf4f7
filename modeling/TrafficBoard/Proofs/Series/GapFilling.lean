import Mathlib
import TrafficBoard.Proofs.Series.FinestGrid
import TrafficBoard.Proofs.Series.Windows
import TrafficBoard.Series.Gaps

namespace TrafficBoard.GapFiller

/-!
# Gap filling — the line of a counter is made of the sums of its windows

* `instants` are the distinct instants of samples, `step` and `plan` the step and the grid that a
  filler takes for them;
* `fill_of_scattered` and `fill_of_single` say what a filler does with two distinct instants or
  more, and with fewer;
* `sum_fill` says that with exact counts nothing is lost either way, and `map_fst_fill_congr` that
  the instants of a line depend on the instants of the samples alone;
* `fill_eq_windowSums` puts this together, for one counter and for the two lines of the traffic.
-/

variable {α : Type}

/-! ### The grid of a counter -/

/-- The distinct instants of samples, in ascending order. -/
def instants (samples : List (Int × α)) : List Int :=
  timeline (samples.map Prod.fst)

/-- The step of samples: the one that is given, or else the most frequent distance. -/
def step (filler : GapFiller) (samples : List (Int × α)) : Option Int :=
  (usableStep filler.baseStep).or (modalStep (instants samples))

/-- The grid for samples. -/
def plan (filler : GapFiller) (samples : List (Int × α)) : Plan :=
  Plan.ofObserved (instants samples) (filler.step samples) filler.budget.maxTimelinePoints

/-- The step of samples is positive. -/
theorem step_pos (filler : GapFiller) (samples : List (Int × α)) :
    ∀ s ∈ filler.step samples, 0 < s := by
  intro s hs
  exact pos_of_usableStep_or_modalStep hs

/-- The instants of samples ascend strictly. -/
theorem instants_ascend (samples : List (Int × α)) : (instants samples).Pairwise (· < ·) :=
  timeline_ascends _

@[simp] theorem mem_instants {samples : List (Int × α)} {t : Int} :
    t ∈ instants samples ↔ ∃ s ∈ samples, s.1 = t := by
  rw [instants, mem_timeline, List.mem_map]

/-- The instant of a sample is one of the instants. -/
theorem fst_mem_instants {samples : List (Int × α)} {s : Int × α} (h : s ∈ samples) :
    s.1 ∈ instants samples := by
  rw [mem_instants]
  exact ⟨s, h, rfl⟩

/-- There are two distinct instants unless all samples bear the same one. -/
theorem one_lt_length_instants_iff {samples : List (Int × α)} :
    1 < (instants samples).length ↔ ∃ s ∈ samples, ∃ u ∈ samples, s.1 ≠ u.1 := by
  rw [← not_le, instants, length_timeline_le_one_iff]
  simp only [List.forall_mem_map]
  push Not
  rfl

/-- With two distinct instants there is a step. -/
theorem exists_step (filler : GapFiller) {samples : List (Int × α)}
    (h : 1 < (instants samples).length) : ∃ s, filler.step samples = some s := by
  cases hstep : filler.step samples with
  | some s => exact ⟨s, rfl⟩
  | none =>
    rw [step, Option.or_eq_none_iff] at hstep
    have hle := length_le_one_of_modalStep_eq_none (instants_ascend samples) hstep.2
    omega

/-! ### Samples in order -/

/-- Sorting keeps all samples. -/
theorem perm_sortSamples (samples : List (Int × α)) : (sortSamples samples).Perm samples :=
  List.mergeSort_perm _ _

/-- Sorted samples have ascending instants. -/
theorem sortSamples_ascend (samples : List (Int × α)) :
    (sortSamples samples).Pairwise fun s u => s.1 ≤ u.1 := by
  have h := @List.pairwise_mergeSort (Int × α) (fun s u => decide (s.1 ≤ u.1))
    (fun a b c hab hbc => by simp only [decide_eq_true_eq] at *; omega)
    (fun a b => by simp only [Bool.or_eq_true, decide_eq_true_eq]; omega) samples
  exact h.imp fun h => of_decide_eq_true h

/-- Samples with ascending instants are sorted already. -/
theorem sortSamples_of_ascend {samples : List (Int × α)}
    (h : samples.Pairwise fun s u => s.1 ≤ u.1) : sortSamples samples = samples :=
  List.mergeSort_of_pairwise (h.imp fun h => decide_eq_true h)

/-- The instants that a filler observes are those of the samples, each once. -/
theorem dedup_sortSamples (samples : List (Int × α)) :
    dedup ((sortSamples samples).map Prod.fst) = instants samples := by
  have hsorted : ((sortSamples samples).map Prod.fst).Pairwise (· ≤ ·) :=
    List.pairwise_map.2 (sortSamples_ascend samples)
  refine (dedup_ascends hsorted).eq_of_mem_iff (instants_ascend samples) fun t => ?_
  rw [mem_dedup, instants, mem_timeline]
  exact ((perm_sortSamples samples).map Prod.fst).mem_iff

/-- The first and the last instant of samples with two distinct ones. -/
theorem exists_bounds {samples : List (Int × α)} (h : 1 < (instants samples).length) :
    ∃ first last, (instants samples).head? = some first ∧
      (instants samples).getLast? = some last ∧ first < last := by
  have hne : instants samples ≠ [] := List.ne_nil_of_length_pos (by omega)
  have hfirst := List.head?_eq_some_head hne
  have hlast := List.getLast?_eq_some_getLast hne
  exact ⟨_, _, hfirst, hlast, Plan.head_lt_getLast (instants_ascend samples) hfirst hlast h⟩

/-- Every instant lies between the first and the last. -/
theorem bounds_of_mem {samples : List (Int × α)} {first last t : Int}
    (hfirst : (instants samples).head? = some first)
    (hlast : (instants samples).getLast? = some last) (h : t ∈ instants samples) :
    first ≤ t ∧ t ≤ last := by
  have hle : (instants samples).Pairwise (· ≤ ·) :=
    (instants_ascend samples).imp fun hlt => le_of_lt hlt
  have hne := List.ne_nil_of_mem h
  rw [List.head?_eq_some_head hne, Option.some.injEq] at hfirst
  rw [List.getLast?_eq_some_getLast hne, Option.some.injEq] at hlast
  rw [← hfirst, ← hlast]
  exact ⟨hle.rel_head h, hle.rel_getLast h⟩

/-- The instants of samples are words in milliseconds if those of each sample are. -/
theorem inWord_instants {samples : List (Int × α)}
    (h : ∀ s ∈ samples, Number.InWord (s.1 * 1000)) :
    ∀ t ∈ instants samples, Number.InWord (t * 1000) := by
  intro t ht
  obtain ⟨s, hs, rfl⟩ := mem_instants.1 ht
  exact h s hs

/-- The points of the grid for samples ascend strictly. -/
theorem plan_ascends (filler : GapFiller) (samples : List (Int × α)) :
    (filler.plan samples).points.Pairwise (· < ·) :=
  Plan.points_ascend (instants_ascend samples) (filler.step_pos samples) _

/-- The grid for samples goes from the first instant to the last, a multiple of the step at a
time. -/
theorem points_plan (filler : GapFiller) {samples : List (Int × α)} {first last step : Int}
    (hfirst : (instants samples).head? = some first)
    (hlast : (instants samples).getLast? = some last) (hlt : first < last)
    (hstep : filler.step samples = some step) (hwords : ∀ s ∈ samples, Number.InWord (s.1 * 1000)) :
    1 ≤ (filler.plan samples).factor ∧
      (filler.plan samples).points =
        Plan.grid first last (step * (filler.plan samples).factor) := by
  have hs := filler.step_pos samples step hstep
  have hword := Plan.sub_lt_wordMax (inWord_instants hwords) first hfirst last hlast
  obtain ⟨hfactor, hpoints⟩ :
      (filler.plan samples).factor = _ ∧ (filler.plan samples).points = _ := by
    rw [plan, hstep]
    exact Plan.ofObserved_of_span hfirst hlast hs hlt hword
  refine ⟨?_, by rw [hpoints, hfactor]⟩
  rw [hfactor]
  exact Plan.factorFor_pos hs (by omega) (by omega)

/-- **The grid for samples with two distinct instants** runs from the first of them to the last, a
multiple of the step at a time. -/
theorem exists_grid (filler : GapFiller) {samples : List (Int × α)}
    (h : 1 < (instants samples).length) (hwords : ∀ s ∈ samples, Number.InWord (s.1 * 1000)) :
    ∃ first last step, (instants samples).head? = some first ∧
      (instants samples).getLast? = some last ∧ first < last ∧ filler.step samples = some step ∧
      0 < step ∧ 1 ≤ (filler.plan samples).factor ∧
      (filler.plan samples).points =
        Plan.grid first last (step * (filler.plan samples).factor) := by
  obtain ⟨first, last, hfirst, hlast, hlt⟩ := exists_bounds h
  obtain ⟨step, hstep⟩ := filler.exists_step h
  exact ⟨first, last, step, hfirst, hlast, hlt, hstep, filler.step_pos samples step hstep,
    filler.points_plan hfirst hlast hlt hstep hwords⟩

variable [Count α]

/-! ### The line of a counter -/

/-- **With two distinct instants a line has the sums of the windows of its grid.** -/
theorem fill_of_scattered (filler : GapFiller) {samples : List (Int × α)}
    (h : 1 < (instants samples).length) :
    filler.fill samples =
      Plan.windowTotals (sortSamples samples) (filler.plan samples).points := by
  obtain ⟨s, hs⟩ := filler.exists_step h
  have hplan := Plan.zip_accumulate (instants_ascend samples) (filler.step_pos samples)
    filler.budget.maxTimelinePoints (sortSamples samples)
  rw [plan, ← hplan, fill]
  rw [step] at hs
  simp only [dedup_sortSamples, hs, h, if_true, step]

/-- **With one distinct instant at most the samples stay as they are.** -/
theorem fill_of_single (filler : GapFiller) {samples : List (Int × α)}
    (h : (instants samples).length ≤ 1) : filler.fill samples = samples := by
  have hsame : samples.Pairwise fun s u => s.1 ≤ u.1 := by
    rw [instants, length_timeline_le_one_iff, List.forall_mem_map] at h
    refine List.pairwise_of_forall_mem_list fun s hs u hu => ?_
    exact le_of_eq (h s hs _ (List.mem_map_of_mem hu))
  have hsorted : sortSamples samples = samples := sortSamples_of_ascend hsame
  rw [fill]
  simp only [dedup_sortSamples, not_lt.2 h, if_false]
  split <;> exact hsorted

/-- The instants of window sums are the points. -/
theorem map_fst_windowTotals (samples : List (Int × α)) (points : List Int) :
    (Plan.windowTotals samples points).map Prod.fst = points := by
  induction points with
  | nil => rfl
  | cons t rest ih => rw [Plan.windowTotals, List.map_cons, ih]

/-- The instants of a line with two distinct instants or more are the points of its grid. -/
theorem map_fst_fill (filler : GapFiller) {samples : List (Int × α)}
    (h : 1 < (instants samples).length) :
    (filler.fill samples).map Prod.fst = (filler.plan samples).points := by
  rw [filler.fill_of_scattered h, map_fst_windowTotals]

/-- A line with two distinct instants or more ascends strictly. -/
theorem fill_ascends (filler : GapFiller) {samples : List (Int × α)}
    (h : 1 < (instants samples).length) :
    ((filler.fill samples).map Prod.fst).Pairwise (· < ·) := by
  rw [filler.map_fst_fill h]
  exact filler.plan_ascends samples

/-- **A line with two distinct instants or more keeps to its budget.** -/
theorem length_fill_le (filler : GapFiller) {samples : List (Int × α)}
    (hwords : ∀ s ∈ samples, Number.InWord (s.1 * 1000)) (h : 1 < (instants samples).length) :
    (filler.fill samples).length ≤ max filler.budget.maxTimelinePoints 2 := by
  rw [← List.length_map Prod.fst, filler.map_fst_fill h]
  refine Plan.length_points_le (instants_ascend samples) (filler.step_pos samples) _ ?_
    (Plan.sub_lt_wordMax (inWord_instants hwords))
  intro hnone
  obtain ⟨s, hs⟩ := filler.exists_step h
  rw [hnone] at hs
  contradiction

/-- **The instants of a line depend on the instants of the samples alone.** -/
theorem map_fst_fill_congr (filler : GapFiller) {samples others : List (Int × α)}
    (h : samples.map Prod.fst = others.map Prod.fst) :
    (filler.fill samples).map Prod.fst = (filler.fill others).map Prod.fst := by
  have hinstants : instants samples = instants others := congrArg timeline h
  rcases lt_or_ge 1 (instants samples).length with hlen | hlen
  · rw [filler.map_fst_fill hlen, filler.map_fst_fill (hinstants ▸ hlen), plan, plan, step, step,
      hinstants]
  · rw [filler.fill_of_single hlen, filler.fill_of_single (hinstants ▸ hlen), h]

/-- The instants of a line of the traffic are those of the counter, in milliseconds. -/
theorem map_fst_counterSeries (filler : GapFiller) (name : String) (samples : List (Int × α)) :
    (filler.counterSeries name samples).points.map Prod.fst =
      ((filler.fill samples).map Prod.fst).map (· * 1000) := by
  simp [counterSeries, toMillis]

/-! ### Nothing is lost -/

section Exact

variable [AddCommGroup α] [LinearOrder α] [Count.Exact α]

/-- With exact counts the order of the samples makes no difference to the sum of a window. -/
theorem total_filter_sortSamples (samples : List (Int × α)) (keep : Int → Bool) :
    Count.total (((sortSamples samples).filter fun s => keep s.1).map Prod.snd) =
      ((samples.filter fun s => keep s.1).map Prod.snd).sum := by
  rw [Count.total_eq_sum]
  exact (((perm_sortSamples samples).filter _).map Prod.snd).sum_eq

/-- **Nothing is lost:** a line adds up to its samples. -/
theorem sum_fill (filler : GapFiller) (samples : List (Int × α)) :
    ((filler.fill samples).map Prod.snd).sum = (samples.map Prod.snd).sum := by
  rcases lt_or_ge 1 (instants samples).length with hlen | hlen
  · have hsum := ((perm_sortSamples samples).map Prod.snd).sum_eq
    rw [filler.fill_of_scattered hlen, plan, ← hsum]
    refine Plan.sum_windowTotals_points (instants_ascend samples) (filler.step_pos samples) _ ?_
    intro s hs
    exact fst_mem_instants ((perm_sortSamples samples).mem_iff.1 hs)
  · rw [filler.fill_of_single hlen]

/-- A line of the traffic adds up to the samples of its counter. -/
theorem total_counterSeries (filler : GapFiller) (name : String) (samples : List (Int × α)) :
    (filler.counterSeries name samples).total = (samples.map Prod.snd).sum := by
  rw [Series.total, Count.sum_eq_sum, ← filler.sum_fill samples]
  simp [counterSeries, toMillis, Function.comp_def]

/-! ### The line and the two lines of the traffic -/

/-- The two lines of the traffic have the same instants, and each of them adds up to its counter. -/
theorem trafficSeries_eq (filler : GapFiller) (buckets : List (CounterBucket α)) :
    ∃ up down, filler.trafficSeries buckets = [up, down] ∧ up.name = "Up" ∧ down.name = "Down" ∧
      up.points.map Prod.fst = down.points.map Prod.fst ∧
      up.total = (buckets.map CounterBucket.up).sum ∧
      down.total = (buckets.map CounterBucket.down).sum := by
  refine ⟨_, _, rfl, rfl, rfl, ?_, ?_, ?_⟩
  · rw [map_fst_counterSeries, map_fst_counterSeries]
    congr 1
    apply filler.map_fst_fill_congr
    simp
  · rw [total_counterSeries]
    simp [Function.comp_def]
  · rw [total_counterSeries]
    simp [Function.comp_def]

/-- **A line has the sums of the windows of its samples.** Take samples with two distinct instants
that are words in milliseconds. There is a step, the one that is given or else the most frequent
distance, and a multiple of it such that the instants of the line are those of the plan: they
ascend, and they are the smallest instant, all those that follow it by a whole number of multiples
up to the largest one, and the largest one itself. The value of each is the sum of the samples from
it up to the next one, and all values together are the sum of all samples. The two lines of the
traffic, for any buckets, have the same instants, and add up to the traffic up and down. -/
theorem fill_eq_windowSums (filler : GapFiller) :
    (∀ samples : List (Int × α), (∀ s ∈ samples, Number.InWord (s.1 * 1000)) →
      (∃ s ∈ samples, ∃ u ∈ samples, s.1 ≠ u.1) →
      ∃ first last step,
        ((∃ s ∈ samples, s.1 = first) ∧ (∃ s ∈ samples, s.1 = last) ∧
          ∀ s ∈ samples, first ≤ s.1 ∧ s.1 ≤ last) ∧
        filler.step samples = some step ∧ 0 < step ∧ 1 ≤ (filler.plan samples).factor ∧
        let filled := filler.fill samples
        let times := filled.map Prod.fst
        times = (filler.plan samples).points ∧ times.Pairwise (· < ·) ∧
        (∀ t, t ∈ times ↔
          (∃ k : Nat, t = first + k * (step * (filler.plan samples).factor) ∧ t ≤ last) ∨ t = last) ∧
        times.getLast? = some last ∧
        (∀ k t v, filled[k]? = some (t, v) →
          v = ((samples.filter fun s => Plan.inWindow t times[k + 1]? s.1).map Prod.snd).sum) ∧
        (filled.map Prod.snd).sum = (samples.map Prod.snd).sum) ∧
    ∀ buckets : List (CounterBucket α), ∃ up down,
      filler.trafficSeries buckets = [up, down] ∧ up.name = "Up" ∧ down.name = "Down" ∧
        up.points.map Prod.fst = down.points.map Prod.fst ∧
        up.total = (buckets.map CounterBucket.up).sum ∧
        down.total = (buckets.map CounterBucket.down).sum := by
  refine ⟨fun samples hwords hdistinct => ?_, filler.trafficSeries_eq⟩
  have hlen := one_lt_length_instants_iff.2 hdistinct
  obtain ⟨first, last, step, hfirst, hlast, hlt, hstep, hs, hfactor, hgrid⟩ :=
    filler.exists_grid hlen hwords
  have hpos : 0 < step * (filler.plan samples).factor := mul_pos hs (by omega)
  have htimes := filler.map_fst_fill hlen
  refine ⟨first, last, step, ⟨?_, ?_, ?_⟩, hstep, hs, hfactor, htimes, ?_, ?_, ?_, ?_,
    filler.sum_fill samples⟩
  · exact mem_instants.1 (List.mem_of_head? hfirst)
  · exact mem_instants.1 (List.mem_of_getLast? hlast)
  · intro s hs
    exact bounds_of_mem hfirst hlast (fst_mem_instants hs)
  · exact filler.fill_ascends hlen
  · intro t
    rw [htimes, hgrid]
    exact Plan.mem_grid_iff hpos (le_of_lt hlt)
  · rw [htimes, hgrid]
    exact Plan.getLast?_grid hpos (le_of_lt hlt)
  · intro k t v hv
    rw [filler.fill_of_scattered hlen, Plan.getElem?_windowTotals, ← htimes] at hv
    obtain ⟨u, -, hu⟩ := Option.map_eq_some_iff.1 hv
    rw [total_filter_sortSamples] at hu
    cases hu
    rfl

/-- Samples out of order, two of one instant, one off the grid, and the last one off it as well. -/
def scatteredSamples : List (Int × Int) :=
  [(150, 4), (0, 2), (60, 3), (130, 5), (60, -1)]

/-- Three points at most, and a step of a minute. -/
def narrowFiller : GapFiller where
  budget := { maxTimelinePoints := 3 }
  baseStep := some 60

/-- With room for three points, windows of two steps and the appended point are left. -/
theorem fill_eq_windowSums_scattered :
    narrowFiller.fill scatteredSamples = [(0, 4), (120, 5), (150, 4)] ∧
      (∀ s ∈ scatteredSamples, Number.InWord (s.1 * 1000)) ∧
      (∃ s ∈ scatteredSamples, ∃ u ∈ scatteredSamples, s.1 ≠ u.1) ∧
      ∃ first last step, narrowFiller.step scatteredSamples = some step ∧
        (∀ t, t ∈ (narrowFiller.fill scatteredSamples).map Prod.fst ↔
          (∃ k : Nat, t = first + k * (step * (narrowFiller.plan scatteredSamples).factor) ∧
            t ≤ last) ∨ t = last) ∧
        ((narrowFiller.fill scatteredSamples).map Prod.snd).sum =
          (scatteredSamples.map Prod.snd).sum := by
  have hwords : ∀ s ∈ scatteredSamples, Number.InWord (s.1 * 1000) := by decide
  have hdistinct : ∃ s ∈ scatteredSamples, ∃ u ∈ scatteredSamples, s.1 ≠ u.1 := by decide
  obtain ⟨first, last, step, -, hstep, -, -, -, -, hmem, -, -, hsum⟩ :=
    (fill_eq_windowSums narrowFiller).1 scatteredSamples hwords hdistinct
  exact ⟨by cbv, hwords, hdistinct, first, last, step, hstep, hmem, hsum⟩

end Exact

end TrafficBoard.GapFiller
