import Mathlib
import TrafficBoard.Proofs.Series.Checks
import TrafficBoard.Proofs.Series.Totals

namespace TrafficBoard

/-!
# Reports — every violation is found, and nothing else

* `driftsOf` lists the series whose totals are too far from what is expected of them;
  `filterMap_drift?` says that looking at the series one by one finds this list;
* `Report.allOk_append` and `Report.allOk_foldl_append` say when a merged report is clean;
* `Report.flags_exactly` says what the reports on a category and on a counter find, and what becomes
  of them in a merge.
-/

variable {α : Type}

/-! ### Drifts -/

section Exact

variable [AddCommGroup α] [LinearOrder α]

/-- The series whose totals are farther from what is expected than the threshold allows, in their
order, each with both totals and the difference. -/
def driftsOf (chart : String) (rules : CheckRules α) (expected : Series α → α)
    (series : List (Series α)) : List (Drift α) :=
  (series.filter fun s => rules.threshold < |(s.points.map Prod.snd).sum - expected s|).map fun s =>
    { chart
      series := s.name
      rawTotal := expected s
      outputTotal := (s.points.map Prod.snd).sum
      delta := (s.points.map Prod.snd).sum - expected s }

variable [Count α] [Count.Exact α]

/-- The total of a series is the sum of its values. -/
theorem Series.total_eq_sum (s : Series α) : s.total = (s.points.map Prod.snd).sum :=
  Count.sum_eq_sum _

/-- The raw total of a label is the sum of its counts. -/
theorem rawTotal_eq_sum (raw : List (Bucket α)) (label : String) :
    rawTotal raw label = (countsOf label raw).sum :=
  Count.sum_eq_sum _

/-- **Looking at the series one by one finds those that drifted.** -/
theorem filterMap_drift? (chart : String) (rules : CheckRules α) (expected : Series α → α)
    (series : List (Series α)) :
    (series.filterMap fun s => drift? chart rules s (expected s)) =
      driftsOf chart rules expected series := by
  rw [driftsOf, ← List.filterMap_eq_map, List.filterMap_filter]
  refine List.filterMap_congr fun s _ => ?_
  rw [drift?_eq, s.total_eq_sum]
  simp only [decide_eq_true_iff, Function.comp_apply]

end Exact

/-! ### Merges -/

namespace Report

/-- Two reports are clean together if each of them is. -/
theorem allOk_append (r s : Report α) :
    (r ++ s).allOk = true ↔ r.allOk = true ∧ s.allOk = true := by
  show (r.checks ++ s.checks).all Check.ok = true ↔ _
  rw [List.all_append, Bool.and_eq_true]
  rfl

/-- Reports merged one after the other are clean together if each of them is. -/
theorem allOk_foldl_append (r : Report α) (others : List (Report α)) :
    (others.foldl (· ++ ·) r).allOk = true ↔
      r.allOk = true ∧ ∀ s ∈ others, s.allOk = true := by
  induction others generalizing r with
  | nil => simp
  | cons s rest ih => rw [List.foldl_cons, ih, allOk_append, List.forall_mem_cons, and_assoc]

/-! ### What a report finds -/

variable [Count α] [AddCommGroup α] [LinearOrder α] [Count.Exact α]

/-- **A report finds every violation, and nothing else.** Take any raw buckets and any series, with
whatever names and points, and any budget and threshold. The report on a category is clean just when
no series has too many points, all of them together have not too many, each of them ascends
strictly, and the total of each differs from the sum of the raw counts of its name by no more than
the threshold. Its drifts are the series for which the last is not so, in their order. The same
holds of the report on a counter, which has one series, against the raw samples. And reports that
are merged, any number of any reports, are clean together just when each of them is. -/
theorem flags_exactly (chart : String) (rules : CheckRules α) :
    (∀ (raw : List (Bucket α)) (series : List (Series α)),
      let expected := fun s : Series α => (countsOf s.name raw).sum
      let report := Report.ofCategories chart raw series rules
      (report.allOk = true ↔
        (∀ s ∈ series, s.points.length ≤ rules.budget.maxTimelinePoints) ∧
        (series.map fun s => s.points.length).sum ≤ rules.budget.maxTotalPoints ∧
        (∀ s ∈ series, (s.points.map Prod.fst).Pairwise (· < ·)) ∧
        ∀ s ∈ series, |(s.points.map Prod.snd).sum - expected s| ≤ rules.threshold) ∧
      report.drift = driftsOf chart rules expected series) ∧
    (∀ (raw : List (Int × α)) (s : Series α),
      let expected := (raw.map Prod.snd).sum
      let report := Report.ofCounter chart raw s rules
      (report.allOk = true ↔
        s.points.length ≤ rules.budget.maxTimelinePoints ∧
        s.points.length ≤ rules.budget.maxTotalPoints ∧
        (s.points.map Prod.fst).Pairwise (· < ·) ∧
        |(s.points.map Prod.snd).sum - expected| ≤ rules.threshold) ∧
      report.drift = driftsOf chart rules (fun _ => expected) [s]) ∧
    ∀ (r : Report α) (others : List (Report α)),
      (others.foldl (· ++ ·) r).allOk = true ↔ r.allOk = true ∧ ∀ s ∈ others, s.allOk = true := by
  refine ⟨fun raw series => ?_, fun raw s => ?_, allOk_foldl_append⟩
  · intro expected report
    have hdrift : report.drift = driftsOf chart rules expected series := by
      rw [← filterMap_drift?]
      refine List.filterMap_congr fun s _ => ?_
      rw [rawTotal_eq_sum]
    refine ⟨?_, hdrift⟩
    rw [allOk_ofCategories_iff]
    constructor
    · intro h
      refine ⟨h.pointsPerSeries, h.totalPoints, h.ascending, fun s hs => ?_⟩
      have hmass := h.massPreserved s hs
      rwa [s.total_eq_sum, rawTotal_eq_sum] at hmass
    · rintro ⟨hpoints, htotal, hascending, hmass⟩
      refine ⟨hpoints, htotal, hascending, fun s hs => ?_⟩
      rw [s.total_eq_sum, rawTotal_eq_sum]
      exact hmass s hs
  · intro expected report
    have hdrift : report.drift = driftsOf chart rules (fun _ => expected) [s] := by
      rw [← filterMap_drift?]
      show (drift? chart rules s (Count.sum (raw.map Prod.snd))).toList = _
      rw [Count.sum_eq_sum]
      cases h : drift? chart rules s expected <;> simp [h, expected]
    refine ⟨?_, hdrift⟩
    rw [allOk_ofCounter_iff, s.total_eq_sum]
    rfl

end Report

/-- Two protocols, each with halves of a request. -/
def halvedBuckets : List (Bucket ℚ) :=
  [⟨0, { entries := [("udp", 1 / 2), ("tcp", 2)] }⟩, ⟨60, { entries := [("udp", 5 / 2)] }⟩]

/-- A series that was tampered with, a second one of the same name that repeats an instant, one of a
label without counts and one that is empty though there are counts: two of them drifted, and the
report says so. -/
theorem Report.flags_exactly_tampered :
    let rules : CheckRules ℚ := { threshold := 1 / 1000000 }
    let tampered : Series ℚ := ⟨"udp", [(0, 1 / 2), (60, 7 / 2)]⟩
    let repeated : Series ℚ := ⟨"udp", [(60, 1 / 2), (60, 5 / 2)]⟩
    let series := [tampered, repeated, ⟨"icmp", []⟩, ⟨"tcp", []⟩]
    (Report.ofCategories "protos" halvedBuckets series rules).allOk = false ∧
    (Report.ofCategories "protos" halvedBuckets series rules).drift =
      [⟨"protos", "udp", 3, 4, 1⟩, ⟨"protos", "tcp", 2, 0, -2⟩] ∧
    (Report.ofCategories "protos" halvedBuckets [⟨"icmp", []⟩] rules).allOk = true := by
  intro rules tampered repeated series
  obtain ⟨hcategory, -, -⟩ := Report.flags_exactly "protos" rules
  refine ⟨?_, (hcategory halvedBuckets series).2.trans (by decide +kernel), ?_⟩
  · rw [← Bool.not_eq_true, (hcategory halvedBuckets series).1]
    rintro ⟨-, -, hascending, -⟩
    exact absurd (hascending repeated (by simp [series])) (by decide)
  · exact (hcategory halvedBuckets [⟨"icmp", []⟩]).1.2 (by decide +kernel)

end TrafficBoard
