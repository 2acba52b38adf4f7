import Mathlib
import TrafficBoard.Config.Basic
import TrafficBoard.Dashboard.Check
import TrafficBoard.Proofs.Series.Budgets

namespace TrafficBoard

/-!
# Category checks — the charts of categories of a device always pass

* `Config.validate_eq_ok_iff` says which settings go together;
* `CategoryChart` is a chart of categories with the buckets behind it, `categoryCharts` lists those
  of a device;
* `checkView_categories` says that the check of a view finds nothing wrong with any of them.
-/

/-- The settings that go together: some rows, two points at least, and room for one series. -/
theorem Config.validate_eq_ok_iff (config : Config) :
    config.validate = .ok () ↔ config.tableLimit ≠ 0 ∧ 2 ≤ config.budget.maxTimelinePoints ∧
      config.budget.maxTimelinePoints ≤ config.budget.maxTotalPoints := by
  unfold validate fault?
  by_cases hrows : config.tableLimit = 0
  · simp [hrows]
  by_cases hpoints : config.budget.maxTimelinePoints < 2
  · simp [hrows, hpoints]
  by_cases htotal : config.budget.maxTotalPoints < config.budget.maxTimelinePoints
  · simp [hrows, hpoints, htotal]
  · simp only [if_neg hrows, if_neg hpoints, if_neg htotal, true_iff]
    exact ⟨hrows, by omega, by omega⟩

/-! ### Reports -/

namespace Report

variable {α : Type}

/-- A report has passed if nothing in it failed. -/
theorem failed_eq_nil_iff (r : Report α) : r.failed = [] ↔ r.allOk = true := by
  rw [failed, List.filter_eq_nil_iff, allOk, List.all_eq_true]
  refine forall₂_congr fun c _ => ?_
  rw [Bool.not_eq_true', Bool.not_eq_false]

/-- What failed in two reports is what failed in either. -/
theorem failed_append (r s : Report α) : (r ++ s).failed = r.failed ++ s.failed :=
  List.filter_append _ _

/-- The drifts in two reports are those in either. -/
theorem drift_append (r s : Report α) : (r ++ s).drift = r.drift ++ s.drift := rfl

/-- A report that has nothing to say about what is wrong. -/
def Clean (r : Report α) : Prop :=
  r.failed = [] ∧ r.drift = []

/-- A clean report adds no failure and no drift to another one. -/
theorem Clean.append {r s : Report α} (h : s.Clean) :
    (r ++ s).failed = r.failed ∧ (r ++ s).drift = r.drift := by
  rw [failed_append, drift_append, h.1, h.2, List.append_nil, List.append_nil]
  exact ⟨rfl, rfl⟩

end Report

variable {α : Type} [Count α]

/-! ### The charts of categories -/

/-- A chart of categories with the buckets behind it. -/
structure CategoryChart (α : Type) where
  name : String
  raw : List (Bucket α)
  series : List (Series α)

/-- The charts of categories of a device. -/
def categoryCharts (charts : Charts α) (mac : String) (views : ChartViews α) :
    List (CategoryChart α) :=
  [⟨"domains", domainBuckets (statsOf charts.domains mac), views.domains⟩,
    ⟨"countries", countryBuckets (statsOf charts.countries mac), views.countries⟩,
    ⟨"companies", companyBuckets (statsOf charts.countries mac), views.companies⟩,
    ⟨"protos", protoBuckets (statsOf charts.protos mac), views.protos⟩]

/-- Every chart of categories is the timeline of its buckets under some limit. -/
theorem series_categoryCharts (charts : Charts α) (mac : String) (budget : Budget) :
    ∀ c ∈ categoryCharts charts mac (.ofCharts charts mac budget),
      ∃ limit, c.series = categoryTimeline c.raw limit budget := by
  intro c hc
  simp only [categoryCharts, List.mem_cons, List.not_mem_nil, or_false] at hc
  rcases hc with rfl | rfl | rfl | rfl
  · exact ⟨.domains, rfl⟩
  · exact ⟨.countries, rfl⟩
  · exact ⟨.companies, rfl⟩
  · exact ⟨.protos, rfl⟩

section Exact

variable [AddCommGroup α] [LinearOrder α] [Count.Exact α]

/-- The report on a chart that keeps to its budget is clean. -/
theorem clean_ofCategories {rules : CheckRules α} {raw : List (Bucket α)}
    {series : List (Series α)} (h : KeepsTo rules raw series) (name : String) :
    (Report.ofCategories name raw series rules).Clean :=
  ⟨(Report.failed_eq_nil_iff _).2 ((allOk_ofCategories_iff name raw series rules).2 h),
    (drift_ofCategories_eq_nil_iff name raw series rules).2 h.massPreserved⟩

/-- The check of a chart of a device is clean if the chart keeps to its budget. A device without an
item is not checked. -/
theorem clean_checkCategory {β : Type} {items : List (DeviceItem (List β))} {mac : String}
    {buckets : List β → List (Bucket α)} {series : List (Series α)} {rules : CheckRules α}
    (h : KeepsTo rules (buckets (statsOf items mac)) series) (name : String) :
    (checkCategory name (findDevice items mac) buckets series rules).Clean := by
  unfold statsOf at h
  cases hitem : findDevice items mac with
  | none => exact ⟨rfl, rfl⟩
  | some item =>
    rw [hitem] at h
    exact clean_ofCategories h name

/-- **The charts of categories of a device pass all their checks.** Take any settings that go
together, any charts and any device, and a threshold that is not negative. Then the series of each
of its four charts of categories have no more points than allowed, one by one and together, they
ascend strictly, and each of them has the raw total of its label; its report is clean. So whatever
the check of the whole view finds wrong, it finds wrong with the traffic. -/
theorem checkView_categories {config : Config} (hconfig : config.validate = .ok ())
    (charts : Charts α) (mac : String) {threshold : α} (hthreshold : 0 ≤ threshold)
    (hwords : ∀ c ∈ categoryCharts charts mac (.ofCharts charts mac config.budget),
      ∀ b ∈ c.raw, Number.InWord (b.time * 1000)) :
    let views := ChartViews.ofCharts charts mac config.budget
    let rules : CheckRules α := { budget := config.budget, threshold }
    (∀ c ∈ categoryCharts charts mac views,
      (∀ s ∈ c.series, s.size ≤ config.budget.maxTimelinePoints) ∧
      pointCount c.series ≤ config.budget.maxTotalPoints ∧
      (∀ s ∈ c.series, (s.points.map Prod.fst).Pairwise (· < ·)) ∧
      (∀ s ∈ c.series, s.total = rawTotal c.raw s.name) ∧
      (Report.ofCategories c.name c.raw c.series rules).allOk = true ∧
      (Report.ofCategories c.name c.raw c.series rules).drift = []) ∧
    (checkView charts mac views rules).failed = (checkTraffic charts mac views rules).failed ∧
    (checkView charts mac views rules).drift = (checkTraffic charts mac views rules).drift := by
  intro views rules
  obtain ⟨-, htwo, htotal⟩ := config.validate_eq_ok_iff.1 hconfig
  -- Each chart is built from the very buckets that it is checked against.
  have hkeeps : ∀ c ∈ categoryCharts charts mac views, KeepsTo rules c.raw c.series := by
    intro c hc
    obtain ⟨limit, hseries⟩ := series_categoryCharts charts mac config.budget c hc
    rw [hseries]
    exact (timelineLegend c.raw limit config.budget).keepsTo_build rfl hthreshold htwo htotal
      (hwords c hc)
  refine ⟨fun c hc => ?_, ?_⟩
  · obtain ⟨limit, hseries⟩ := series_categoryCharts charts mac config.budget c hc
    have h := hkeeps c hc
    refine ⟨h.pointsPerSeries, h.totalPoints, h.ascending, fun s hs => ?_,
      (allOk_ofCategories_iff _ _ _ _).2 h, (clean_ofCategories h c.name).2⟩
    rw [hseries] at hs
    exact Legend.total_of_mem_build hs
  · simp only [categoryCharts, List.forall_mem_cons] at hkeeps
    obtain ⟨hdomains, hcountries, hcompanies, hprotos, -⟩ := hkeeps
    -- The report is that on the traffic with four clean ones after it.
    obtain ⟨hf₁, hd₁⟩ := (clean_checkCategory hdomains "domains").append
    obtain ⟨hf₂, hd₂⟩ := (clean_checkCategory hcountries "countries").append
    obtain ⟨hf₃, hd₃⟩ := (clean_checkCategory hcompanies "companies").append
    obtain ⟨hf₄, hd₄⟩ := (clean_checkCategory hprotos "protos").append
    exact ⟨(hf₄.trans hf₃).trans (hf₂.trans hf₁), (hd₄.trans hd₃).trans (hd₂.trans hd₁)⟩

end Exact

/-- Two points for each series and three for all of them: room for one series. -/
def tightConfig : Config where
  budget := { maxTimelinePoints := 2, maxTotalPoints := 3 }

/-- A device that asked for two domains and spoke three times, out of order. -/
def chattyCharts : Charts Int where
  traffic := []
  domains :=
    [⟨.ofMac "aa", [⟨150, .counts [("a.example", some 4), ("b.example", some 1)], none⟩,
      ⟨0, .counts [("b.example", some 7)], none⟩, ⟨60, .counts [("a.example", some 2)], none⟩]⟩]
  countries := []
  protos := [⟨.ofMac "aa", [⟨30, .labels ["tcp", "udp", "tcp"], none⟩]⟩]

/-- The three instants of the domains are folded into two points, and one of the two domains is left
out; the checks have nothing against it. -/
theorem checkView_categories_tight :
    let views := ChartViews.ofCharts chattyCharts "aa" tightConfig.budget
    let rules : CheckRules Int := { budget := tightConfig.budget, threshold := 0 }
    views.domains.map (fun s => (s.name, s.points)) = [("a.example", [(0, 2), (150000, 4)])] ∧
    (checkView chattyCharts "aa" views rules).failed =
      (checkTraffic chattyCharts "aa" views rules).failed :=
  ⟨by cbv, (checkView_categories (by decide) chattyCharts "aa" (le_refl 0) (by decide)).2.1⟩

end TrafficBoard
