import Mathlib
import TrafficBoard.Proofs.Dashboard.CategoryChecks
import TrafficBoard.Proofs.Series.GapFilling

namespace TrafficBoard

/-!
# Traffic checks — the lines of a device pass unless its samples repeat one instant

* `RepeatsOneInstant` is the exception: two instants or more, and all of them the same. A filler
  leaves such samples as they are, and of no others does it make a line that does not ascend;
* `Report.Passes` says that a report finds nothing wrong with a chart;
* `GapFiller.allOk_counterSeries_iff` says when the check of one line passes,
  `passes_checkView_iff` that in the check of a view only the traffic bears on the traffic charts;
* `trafficLines_pass_iff` puts this together, for a filler and for the view of a device.
-/

/-- Two instants or more, and all of them the same. -/
def RepeatsOneInstant (times : List Int) : Prop :=
  1 < times.length ∧ ∀ t ∈ times, ∀ u ∈ times, t = u

instance : DecidablePred RepeatsOneInstant :=
  fun _ => inferInstanceAs (Decidable (_ ∧ _))

namespace GapFiller

variable {α : Type}

/-! ### The shape of a line -/

/-- Without a repetition there is one sample at most, or there are two distinct instants. -/
theorem not_repeatsOneInstant_iff {samples : List (Int × α)} :
    ¬RepeatsOneInstant (samples.map Prod.fst) ↔
      samples.length ≤ 1 ∨ 1 < (instants samples).length := by
  rw [RepeatsOneInstant, List.length_map, ← length_timeline_le_one_iff, not_and_or, not_lt, not_le]
  rfl

variable [Count α]

/-- A filler leaves samples alone that repeat one instant. -/
theorem fill_of_repeats (filler : GapFiller) {samples : List (Int × α)}
    (h : RepeatsOneInstant (samples.map Prod.fst)) : filler.fill samples = samples :=
  filler.fill_of_single (length_timeline_le_one_iff.2 h.2)

/-- A filler leaves a single sample alone. -/
theorem fill_of_length_le_one (filler : GapFiller) {samples : List (Int × α)}
    (h : samples.length ≤ 1) : filler.fill samples = samples := by
  apply filler.fill_of_single
  rw [instants, length_timeline_le_one_iff]
  rw [← List.length_map Prod.fst] at h
  intro t ht u hu
  obtain ⟨i, hi, rfl⟩ := List.getElem_of_mem ht
  obtain ⟨j, hj, rfl⟩ := List.getElem_of_mem hu
  -- There is only one place in the list.
  congr 1
  omega

/-- **A line ascends strictly unless its samples repeat one instant.** -/
theorem fill_ascends_iff (filler : GapFiller) (samples : List (Int × α)) :
    ((filler.fill samples).map Prod.fst).Pairwise (· < ·) ↔
      ¬RepeatsOneInstant (samples.map Prod.fst) := by
  constructor
  · intro hasc hrepeats
    -- All the instants would be one timeline, and there would be two of them.
    rw [filler.fill_of_repeats hrepeats] at hasc
    have hone := length_timeline_le_one_iff.2 hrepeats.2
    rw [timeline_of_ascends hasc] at hone
    exact absurd hrepeats.1 (not_lt.2 hone)
  · intro h
    rcases not_repeatsOneInstant_iff.1 h with hshort | hlen
    · rw [filler.fill_of_length_le_one hshort]
      rw [← List.length_map Prod.fst] at hshort
      exact List.pairwise_iff_getElem.2 fun i j hi hj hij => by omega
    · exact filler.fill_ascends hlen

/-- A line keeps to its budget unless its samples repeat one instant. -/
theorem length_fill_le_of_not_repeats (filler : GapFiller) {samples : List (Int × α)}
    (htwo : 2 ≤ filler.budget.maxTimelinePoints)
    (hwords : ∀ s ∈ samples, Number.InWord (s.1 * 1000))
    (h : ¬RepeatsOneInstant (samples.map Prod.fst)) :
    (filler.fill samples).length ≤ filler.budget.maxTimelinePoints := by
  rcases not_repeatsOneInstant_iff.1 h with hshort | hlen
  · rw [filler.fill_of_length_le_one hshort]
    omega
  · have hle := filler.length_fill_le hwords hlen
    omega

/-! ### The check of a line -/

section Exact

variable [AddCommGroup α] [LinearOrder α] [Count.Exact α]

/-- **The check of a line passes just where its samples do not repeat one instant.** -/
theorem allOk_counterSeries_iff (filler : GapFiller) {samples : List (Int × α)} {threshold : α}
    (htwo : 2 ≤ filler.budget.maxTimelinePoints)
    (htotal : filler.budget.maxTimelinePoints ≤ filler.budget.maxTotalPoints)
    (hthreshold : 0 ≤ threshold) (hwords : ∀ s ∈ samples, Number.InWord (s.1 * 1000))
    (chart name : String) :
    (Report.ofCounter chart samples (filler.counterSeries name samples)
      { budget := filler.budget, threshold }).allOk = true ↔
      ¬RepeatsOneInstant (samples.map Prod.fst) := by
  have hascends : ((filler.counterSeries name samples).points.map Prod.fst).Pairwise (· < ·) ↔
      ¬RepeatsOneInstant (samples.map Prod.fst) := by
    rw [map_fst_counterSeries, List.pairwise_map, ← filler.fill_ascends_iff samples]
    simp
  have hsize : (filler.counterSeries name samples).size = (filler.fill samples).length := by
    simp [counterSeries, toMillis, Series.size]
  have hmass := abs_sub_le_of_eq (filler.total_counterSeries name samples) hthreshold
  rw [allOk_ofCounter_iff, hascends, hsize]
  constructor
  · rintro ⟨-, -, h, -⟩
    exact h
  · intro h
    have hle := filler.length_fill_le_of_not_repeats htwo hwords h
    exact ⟨hle, hle.trans htotal, h, hmass⟩

end Exact

end GapFiller

/-! ### The checks of a chart in a report -/

namespace Report

variable {α : Type}

/-- A report finds nothing wrong with a chart: all checks that it has made of it are passed. -/
def Passes (r : Report α) (chart : String) : Prop :=
  ∀ c ∈ r.checks, c.chart = chart → c.ok = true

/-- Nothing is wrong with a chart in a report of nothing. -/
theorem passes_empty (chart : String) : (empty : Report α).Passes chart :=
  fun _ hc => absurd hc List.not_mem_nil

/-- Two reports find nothing wrong with a chart if neither does. -/
theorem passes_append {r s : Report α} {chart : String} :
    (r ++ s).Passes chart ↔ r.Passes chart ∧ s.Passes chart := by
  show (∀ c ∈ r.checks ++ s.checks, _) ↔ _
  exact List.forall_mem_append

/-- The checks of the series of a chart are checks of that chart. -/
theorem chart_of_mem_ofFindings {chart : String} {rules : CheckRules α} {series : List (Series α)}
    {drift : List (Drift α)} {c : Check} (h : c ∈ (ofFindings chart rules series drift).checks) :
    c.chart = chart := by
  obtain ⟨f, -, rfl⟩ := List.mem_map.1 h
  rfl

/-- A report on one chart finds nothing wrong with it if all its checks are passed. -/
theorem passes_ofFindings_iff {chart : String} {rules : CheckRules α} {series : List (Series α)}
    {drift : List (Drift α)} :
    (ofFindings chart rules series drift).Passes chart ↔
      (ofFindings chart rules series drift).allOk = true := by
  rw [allOk, List.all_eq_true]
  exact forall₂_congr fun c hc => ⟨fun h => h (chart_of_mem_ofFindings hc), fun h _ => h⟩

/-- A report on one chart finds nothing wrong with another one. -/
theorem passes_ofFindings_of_ne {chart other : String} {rules : CheckRules α}
    {series : List (Series α)} {drift : List (Drift α)} (h : chart ≠ other) :
    (ofFindings chart rules series drift).Passes other := by
  intro c hc hother
  exact absurd ((chart_of_mem_ofFindings hc).symm.trans hother) h

end Report

variable {α : Type} [Count α]

/-- The check of a category finds nothing wrong with any other chart. -/
theorem passes_checkCategory_of_ne {β : Type} {chart other : String}
    {item : Option (DeviceItem (List β))} {buckets : List β → List (Bucket α)}
    {series : List (Series α)} {rules : CheckRules α} (h : chart ≠ other) :
    (checkCategory chart item buckets series rules).Passes other := by
  cases item with
  | none => exact Report.passes_empty other
  | some item => exact Report.passes_ofFindings_of_ne h

/-- **In the check of a view only the traffic bears on a chart that is not one of a category.** -/
theorem passes_checkView_iff (charts : Charts α) (mac : String) (views : ChartViews α)
    (rules : CheckRules α) {chart : String}
    (h : chart ∉ ["domains", "countries", "companies", "protos"]) :
    (checkView charts mac views rules).Passes chart ↔
      (checkTraffic charts mac views rules).Passes chart := by
  simp only [List.mem_cons, List.not_mem_nil, or_false, not_or] at h
  obtain ⟨hdomains, hcountries, hcompanies, hprotos⟩ := h
  simp only [checkView, Report.passes_append, passes_checkCategory_of_ne (Ne.symm hdomains),
    passes_checkCategory_of_ne (Ne.symm hcountries),
    passes_checkCategory_of_ne (Ne.symm hcompanies),
    passes_checkCategory_of_ne (Ne.symm hprotos), and_true]

/-- The check of the traffic of a device is that of its two lines. -/
theorem checkTraffic_of_item {charts : Charts α} {mac : String}
    {item : DeviceItem (List (TrafficSample α))} (h : findDevice charts.traffic mac = some item)
    (budget : Budget) (rules : CheckRules α) :
    let filler : GapFiller := { budget }
    let up := (trafficBuckets item.stats).map fun b => (b.time, b.up)
    let down := (trafficBuckets item.stats).map fun b => (b.time, b.down)
    checkTraffic charts mac (.ofCharts charts mac budget) rules =
      Report.ofCounter "traffic.up" up (filler.counterSeries "Up" up) rules ++
        Report.ofCounter "traffic.down" down (filler.counterSeries "Down" down) rules := by
  simp only [checkTraffic, ChartViews.ofCharts, h]
  rfl

section Exact

variable [AddCommGroup α] [LinearOrder α] [Count.Exact α]

/-- The check of either line of the traffic passes just where the buckets do not repeat one
instant. -/
theorem allOk_trafficLine_iff (filler : GapFiller) {buckets : List (CounterBucket α)}
    {threshold : α} (htwo : 2 ≤ filler.budget.maxTimelinePoints)
    (htotal : filler.budget.maxTimelinePoints ≤ filler.budget.maxTotalPoints)
    (hthreshold : 0 ≤ threshold) (hwords : ∀ b ∈ buckets, Number.InWord (b.time * 1000))
    (chart name : String) (value : CounterBucket α → α) :
    let samples := buckets.map fun b => (b.time, value b)
    (Report.ofCounter chart samples (filler.counterSeries name samples)
      { budget := filler.budget, threshold }).allOk = true ↔
      ¬RepeatsOneInstant (buckets.map CounterBucket.time) := by
  intro samples
  have htimes : samples.map Prod.fst = buckets.map CounterBucket.time := by
    rw [List.map_map]
    rfl
  rw [← htimes]
  exact filler.allOk_counterSeries_iff htwo htotal hthreshold (List.forall_mem_map.2 hwords) _ _

/-- **The traffic of a device passes just where its buckets do not repeat one instant.** A device
without an item is not checked. -/
theorem passes_checkTraffic_iff {charts : Charts α} {mac : String} {budget : Budget} {threshold : α}
    (htwo : 2 ≤ budget.maxTimelinePoints) (htotal : budget.maxTimelinePoints ≤ budget.maxTotalPoints)
    (hthreshold : 0 ≤ threshold)
    (hwords : ∀ b ∈ trafficBuckets (statsOf charts.traffic mac), Number.InWord (b.time * 1000)) :
    let report := checkTraffic charts mac (.ofCharts charts mac budget) { budget, threshold }
    (report.Passes "traffic.up" ∧ report.Passes "traffic.down") ↔
      ¬RepeatsOneInstant ((trafficBuckets (statsOf charts.traffic mac)).map CounterBucket.time) := by
  intro report
  unfold statsOf at hwords ⊢
  cases hitem : findDevice charts.traffic mac with
  | none =>
    have hempty : report = .empty := by
      simp only [report, checkTraffic, hitem]
    rw [hempty]
    simp [Report.passes_empty, RepeatsOneInstant, trafficBuckets]
  | some item =>
    rw [hitem] at hwords
    have hline := allOk_trafficLine_iff { budget } htwo htotal hthreshold hwords
    have hreport : report = _ := checkTraffic_of_item hitem budget _
    -- Each of the two reports bears on its own chart only.
    rw [hreport, Report.passes_append, Report.passes_append]
    have hup := Report.passes_ofFindings_iff.trans (hline "traffic.up" "Up" CounterBucket.up)
    have hdown := Report.passes_ofFindings_iff.trans
      (hline "traffic.down" "Down" CounterBucket.down)
    constructor
    · rintro ⟨⟨h, -⟩, -⟩
      exact hup.1 h
    · intro h
      exact ⟨⟨hup.2 h, Report.passes_ofFindings_of_ne (by decide)⟩,
        Report.passes_ofFindings_of_ne (by decide), hdown.2 h⟩

/-- **Every line keeps to the invariants of a series unless its samples repeat one instant.** Take
settings that go together, a step or none, and a threshold that is not negative. A line adds up to
its samples. It ascends strictly and has no more points than allowed, unless the samples are two or
more and all of one instant; such samples stay as they are, and their line does not ascend. So for
any buckets the checks of the two lines of the traffic pass just where the buckets do not repeat one
instant, and so do those of the traffic in the view of a device. -/
theorem trafficLines_pass_iff {config : Config} (hconfig : config.validate = .ok ())
    (baseStep : Option Int) {threshold : α} (hthreshold : 0 ≤ threshold) :
    let filler : GapFiller := { budget := config.budget, baseStep }
    let rules : CheckRules α := { budget := config.budget, threshold }
    (∀ samples : List (Int × α), (∀ s ∈ samples, Number.InWord (s.1 * 1000)) →
      let filled := filler.fill samples
      (filled.map Prod.snd).sum = (samples.map Prod.snd).sum ∧
      ((filled.map Prod.fst).Pairwise (· < ·) ↔ ¬RepeatsOneInstant (samples.map Prod.fst)) ∧
      (¬RepeatsOneInstant (samples.map Prod.fst) →
        filled.length ≤ config.budget.maxTimelinePoints) ∧
      (RepeatsOneInstant (samples.map Prod.fst) → filled = samples)) ∧
    (∀ buckets : List (CounterBucket α), (∀ b ∈ buckets, Number.InWord (b.time * 1000)) →
      ∃ up down, filler.trafficSeries buckets = [up, down] ∧ up.name = "Up" ∧ down.name = "Down" ∧
        ∀ chart,
          ((Report.ofCounter chart (buckets.map fun b => (b.time, b.up)) up rules).allOk = true ↔
            ¬RepeatsOneInstant (buckets.map CounterBucket.time)) ∧
          ((Report.ofCounter chart (buckets.map fun b => (b.time, b.down)) down rules).allOk = true ↔
            ¬RepeatsOneInstant (buckets.map CounterBucket.time))) ∧
    ∀ (charts : Charts α) (mac : String),
      (∀ b ∈ trafficBuckets (statsOf charts.traffic mac), Number.InWord (b.time * 1000)) →
      let report := checkView charts mac (.ofCharts charts mac config.budget) rules
      (report.Passes "traffic.up" ∧ report.Passes "traffic.down") ↔
        ¬RepeatsOneInstant
          ((trafficBuckets (statsOf charts.traffic mac)).map CounterBucket.time) := by
  obtain ⟨-, htwo, htotal⟩ := config.validate_eq_ok_iff.1 hconfig
  intro filler rules
  refine ⟨fun samples hwords => ?_, fun buckets hwords => ?_, fun charts mac hwords => ?_⟩
  · exact ⟨filler.sum_fill samples, filler.fill_ascends_iff samples,
      filler.length_fill_le_of_not_repeats htwo hwords, filler.fill_of_repeats⟩
  · refine ⟨_, _, rfl, rfl, rfl, fun chart => ?_⟩
    have hline := allOk_trafficLine_iff filler htwo htotal hthreshold hwords chart
    exact ⟨hline "Up" CounterBucket.up, hline "Down" CounterBucket.down⟩
  · intro report
    have hup : report.Passes "traffic.up" ↔ _ :=
      passes_checkView_iff charts mac _ rules (by decide)
    have hdown : report.Passes "traffic.down" ↔ _ :=
      passes_checkView_iff charts mac _ rules (by decide)
    rw [hup, hdown]
    exact passes_checkTraffic_iff htwo htotal hthreshold hwords

end Exact

/-- A device that spoke four times, out of order and twice at once, and one that spoke at one
instant only. -/
def busyCharts : Charts Int where
  traffic :=
    [⟨.ofMac "aa", [⟨150, some 4, some 1, none⟩, ⟨0, some 2, none, none⟩,
      ⟨60, some 3, some 7, none⟩, ⟨60, some 5, none, none⟩]⟩,
      ⟨.ofMac "bb", [⟨5, some 2, none, none⟩, ⟨5, some 1, none, none⟩]⟩]
  domains := []
  countries := []
  protos := []

/-- With room for two points the lines of the first device pass their checks, and those of the
second one, with two points as well, do not. -/
theorem trafficLines_pass_iff_tight :
    let rules : CheckRules Int := { budget := tightConfig.budget, threshold := 0 }
    let report (mac : String) :=
      checkView busyCharts mac (.ofCharts busyCharts mac tightConfig.budget) rules
    ((report "aa").Passes "traffic.up" ∧ (report "aa").Passes "traffic.down") ∧
      ¬((report "bb").Passes "traffic.up" ∧ (report "bb").Passes "traffic.down") := by
  intro rules report
  have hconfig : tightConfig.validate = .ok () := by decide
  have hpass := (trafficLines_pass_iff hconfig none (le_refl (0 : Int))).2.2 busyCharts
  constructor
  · exact (hpass "aa" (by decide)).2 (by decide)
  · exact fun h => (hpass "bb" (by decide)).1 h (by decide)

/-- Two samples of one instant stay as they are, and neither the ascent nor the check of the line
survives it. -/
theorem fill_repeated_instant :
    let samples : List (Int × Int) := [(5, 2), (5, 1)]
    let filler : GapFiller := {}
    ({} : Config).validate = .ok () ∧ filler.budget = ({} : Config).budget ∧
      (∀ s ∈ samples, Number.InWord (s.1 * 1000)) ∧
      filler.fill samples = samples ∧ ¬(samples.map Prod.fst).Pairwise (· < ·) ∧
      (Report.ofCounter "traffic.up" samples (filler.counterSeries "Up" samples)
        { budget := filler.budget, threshold := 0 }).allOk = false :=
  ⟨by decide, by decide, by decide, by cbv, by decide, by cbv⟩

end TrafficBoard
