import Mathlib
import TrafficBoard.Proofs.Series.Refilling

namespace TrafficBoard

/-!
# Resampling — a coarse line can be made from the line of full resolution

* `Plan.inWindow_of_owns` says that a window between two points of a fine grid cuts through none of
  its windows, `Plan.sum_filter_inWindow` that they add up to it, and
  `Plan.windowTotals_windowTotals` that the windows of a grid whose points are points of a finer one
  can be taken of the sums of the finer one;
* `Plan.mem_grid_of_factor` says that the grid of a multiple of a step is part of the grid of the
  step;
* `GapFiller.plan_fill_of_full` says that a filler lays the same grid over a line of full resolution
  as over its samples;
* `GapFiller.fill_fill_of_full` puts this together.
-/

namespace Plan

variable {fine : List Int}

/-! ### Windows within windows -/

/-- A point of a grid does not lie within the window of another one: it is not after an instant just
when it is not after the point that owns the instant. -/
theorem le_iff_of_owns (sorted : fine.Pairwise (· < ·)) {p u time : Int} {k : Nat} (hp : p ∈ fine)
    (hu : fine[k]? = some u) (hwin : inWindow u fine[k + 1]? time) : p ≤ time ↔ p ≤ u := by
  obtain ⟨j, hj, rfl⟩ := List.getElem_of_mem hp
  obtain ⟨hk, rfl⟩ := List.getElem?_eq_some_iff.1 hu
  have hle : fine[k] ≤ time := le_of_inWindow hwin
  constructor
  · intro hbefore
    by_contra hafter
    -- A point at a later place comes no earlier than the end of the window.
    have hkj : k < j := by
      by_contra hjk
      exact hafter (getElem_le_getElem sorted (not_lt.1 hjk) hk)
    rw [List.getElem?_eq_getElem (by omega), inWindow_some] at hwin
    have hend : fine[k + 1] ≤ fine[j] := getElem_le_getElem sorted hkj hj
    omega
  · intro hbefore
    exact hbefore.trans hle

/-- A window between points of a grid cuts through no window of the grid. -/
theorem inWindow_of_owns (sorted : fine.Pairwise (· < ·)) {p u time : Int} {next : Option Int}
    {k : Nat} (hp : p ∈ fine) (hnext : ∀ q ∈ next, q ∈ fine) (hu : fine[k]? = some u)
    (hwin : inWindow u fine[k + 1]? time) : inWindow p next time = inWindow p next u := by
  have hle := le_iff_of_owns sorted hp hu hwin
  rw [Bool.eq_iff_iff]
  cases next with
  | none => rw [inWindow_none, inWindow_none, hle]
  | some q =>
    have hlt := not_congr (le_iff_of_owns sorted (hnext q rfl) hu hwin)
    rw [not_le, not_le] at hlt
    rw [inWindow_some, inWindow_some, hle, hlt]

variable {α : Type} [Count α] [AddCommGroup α] [LinearOrder α] [Count.Exact α]

/-- Selecting windows is selecting samples, where the selection cuts through no window. -/
theorem sum_filter_windowTotals (samples : List (Int × α)) (keep : Int → Bool)
    (whole : ∀ k u time, fine[k]? = some u → inWindow u fine[k + 1]? time → keep time = keep u) :
    (((windowTotals samples fine).filter fun s => keep s.1).map Prod.snd).sum =
      ((windowTotals (samples.filter fun s => keep s.1) fine).map Prod.snd).sum := by
  induction fine with
  | nil => rfl
  | cons t rest ih =>
    have hrest := ih fun k u time hu hwin => whole (k + 1) u time hu hwin
    have hfirst : ∀ time, inWindow t rest.head? time → keep time = keep t := by
      intro time hwin
      rw [List.head?_eq_getElem?] at hwin
      exact whole 0 t time rfl hwin
    rw [windowTotals, windowTotals, List.map_cons, List.sum_cons, ← hrest, List.filter_filter]
    by_cases hkeep : keep t
    · have hwindow : (samples.filter fun s => inWindow t rest.head? s.1 && keep s.1) =
          samples.filter fun s => inWindow t rest.head? s.1 := by
        apply List.filter_congr
        intro s _
        by_cases hwin : inWindow t rest.head? s.1
        · rw [hfirst s.1 hwin, hkeep, Bool.and_true]
        · simp [hwin]
      rw [List.filter_cons, if_pos hkeep, List.map_cons, List.sum_cons, hwindow]
    · have hwindow : (samples.filter fun s => inWindow t rest.head? s.1 && keep s.1) = [] := by
        rw [List.filter_eq_nil_iff]
        intro s _ hs
        rw [Bool.and_eq_true] at hs
        exact hkeep (hfirst s.1 hs.1 ▸ hs.2)
      rw [List.filter_cons, if_neg hkeep, hwindow, Count.total_eq_sum, List.map_nil, List.sum_nil,
        zero_add]

/-- **The windows of a grid add up to a window between two of its points.** -/
theorem sum_filter_inWindow (sorted : fine.Pairwise (· < ·)) (samples : List (Int × α)) {p : Int}
    {next : Option Int} (hp : p ∈ fine) (hnext : ∀ q ∈ next, q ∈ fine) :
    (((windowTotals samples fine).filter fun s => inWindow p next s.1).map Prod.snd).sum =
      ((samples.filter fun s => inWindow p next s.1).map Prod.snd).sum := by
  have hwhole : ∀ k u time, fine[k]? = some u → inWindow u fine[k + 1]? time →
      inWindow p next time = inWindow p next u := by
    intro k u time hu hwin
    exact inWindow_of_owns sorted hp hnext hu hwin
  rw [sum_filter_windowTotals samples (inWindow p next) hwhole]
  cases fine with
  | nil => exact absurd hp (by simp)
  | cons t rest =>
    -- The window starts at a point of the grid, hence not before the first one.
    have hstart := head_le_of_mem sorted hp
    have hafter : ((samples.filter fun s => inWindow p next s.1).filter fun s => t ≤ s.1) =
        samples.filter fun s => inWindow p next s.1 := by
      rw [List.filter_eq_self]
      intro s hs
      exact decide_eq_true (hstart.trans (le_of_inWindow (List.mem_filter.1 hs).2))
    rw [sum_windowTotals _ sorted, hafter]

/-- **Windows can be taken of the sums of finer windows.** -/
theorem windowTotals_windowTotals (sorted : fine.Pairwise (· < ·)) (samples : List (Int × α))
    {coarse : List Int} (hsub : ∀ p ∈ coarse, p ∈ fine) :
    windowTotals (windowTotals samples fine) coarse = windowTotals samples coarse := by
  induction coarse with
  | nil => rfl
  | cons p rest ih =>
    have hrest : ∀ q ∈ rest, q ∈ fine := by
      intro q hq
      exact hsub q (List.mem_cons_of_mem p hq)
    have hnext : ∀ q ∈ rest.head?, q ∈ fine := by
      intro q hq
      exact hrest q (List.mem_of_head? hq)
    have hwindow := sum_filter_inWindow sorted samples (hsub p List.mem_cons_self) hnext
    rw [windowTotals, windowTotals, ih hrest, Count.total_eq_sum, Count.total_eq_sum, hwindow]

/-! ### Grids within grids -/

/-- The grid of a multiple of a step is part of the grid of the step. -/
theorem mem_grid_of_factor {first last step factor : Int} (hs : 0 < step) (hfactor : 1 ≤ factor)
    (h : first ≤ last) {t : Int} (ht : t ∈ grid first last (step * factor)) :
    t ∈ grid first last step := by
  rw [mem_grid_iff (mul_pos hs (by omega)) h] at ht
  rw [mem_grid_iff hs h]
  rcases ht with ⟨k, rfl, hle⟩ | rfl
  · -- A number of long windows is a multiple of it of short ones.
    refine Or.inl ⟨k * factor.toNat, ?_, hle⟩
    rw [Nat.cast_mul, Int.toNat_of_nonneg (by omega)]
    ring
  · exact Or.inr rfl

end Plan

namespace GapFiller

variable {α : Type} {fine coarse : GapFiller} {samples : List (Int × α)}

/-! ### The grid over a line of full resolution -/

/-- The step of evenly spaced points is their window, if the window goes into the way from the first
to the last. -/
theorem step_of_evenly {filler : GapFiller} {first last step : Int} {line : List (Int × α)}
    (heven : Plan.Evenly first last step (line.map Prod.fst)) (hlt : first < last)
    (hle : step ≤ last - first) :
    filler.step line = (usableStep filler.baseStep).or (some step) := by
  have hlen := heven.one_lt_length hlt
  rw [GapFiller.step, instants_of_ascend heven.ascends, heven.modalStep_eq hlen]
  split
  · rename_i htwo
    -- With two points the window reaches from the one to the other, and not farther.
    have hreach := (heven.last_bounds hlen).2
    rw [htwo] at hreach
    simp only [Nat.sub_self, Nat.cast_zero, zero_mul, add_zero] at hreach
    rw [show last - first = step by omega]
  · rfl

variable [Count α]

/-- **A filler lays the same grid over a line of full resolution as over its samples.** -/
theorem plan_fill_of_full (same : fine.baseStep = coarse.baseStep)
    (hwords : ∀ s ∈ samples, Number.InWord (s.1 * 1000)) (h : 1 < (instants samples).length)
    (hfull : (fine.plan samples).factor = 1) :
    (coarse.plan (fine.fill samples)).points = (coarse.plan samples).points := by
  obtain ⟨first, last, step, hfirst, hlast, hlt, hstep, hs, -, hgrid⟩ := fine.exists_grid h hwords
  have htimes := fine.map_fst_fill h
  have heven : Plan.Evenly first last step ((fine.fill samples).map Prod.fst) := by
    rw [htimes, Plan.evenly_iff hs hlt, hgrid, hfull, mul_one]
  have hcoarse : coarse.step samples = some step := by
    rw [← hstep, GapFiller.step, GapFiller.step, same]
  have hagain : coarse.step (fine.fill samples) = some step := by
    cases hgiven : usableStep coarse.baseStep with
    | some given =>
      rw [GapFiller.step, hgiven, Option.some_or] at hcoarse ⊢
      exact hcoarse
    | none =>
      -- A step that was found lies between two instants.
      rw [GapFiller.step, hgiven, Option.none_or] at hcoarse
      have hle := modalStep_le (instants_ascend samples) hfirst hlast hcoarse
      rw [step_of_evenly heven hlt hle, hgiven, Option.none_or]
  rw [plan, plan, hagain, hcoarse, instants_of_ascend heven.ascends]
  exact Plan.points_of_same_bounds hfirst hlast heven.starts heven.ends hs hlt

/-- A line of samples with two distinct instants has two distinct instants. -/
theorem one_lt_length_instants_fill (filler : GapFiller)
    (hwords : ∀ s ∈ samples, Number.InWord (s.1 * 1000)) (h : 1 < (instants samples).length) :
    1 < (instants (filler.fill samples)).length := by
  obtain ⟨first, last, step, -, -, hlt, -, hs, hfactor, hgrid⟩ := filler.exists_grid h hwords
  rw [instants_of_ascend (filler.fill_ascends h), filler.map_fst_fill h, hgrid]
  exact Plan.one_lt_length_grid (mul_pos hs (by omega)) hlt

section Exact

variable [AddCommGroup α] [LinearOrder α] [Count.Exact α]

/-- **A coarse line has the sums of the windows of the line of full resolution.** -/
theorem fill_eq_windowTotals_of_full (same : fine.baseStep = coarse.baseStep)
    (hwords : ∀ s ∈ samples, Number.InWord (s.1 * 1000)) (h : 1 < (instants samples).length)
    (hfull : (fine.plan samples).factor = 1) :
    coarse.fill samples = Plan.windowTotals (fine.fill samples) (coarse.plan samples).points := by
  obtain ⟨first, last, step, hfirst, hlast, hlt, hstep, hs, -, hfine⟩ := fine.exists_grid h hwords
  rw [GapFiller.step, same, ← GapFiller.step] at hstep
  obtain ⟨hfactor, hcoarse⟩ := coarse.points_plan hfirst hlast hlt hstep hwords
  rw [hfull, mul_one] at hfine
  have hsub : ∀ p ∈ (coarse.plan samples).points, p ∈ (fine.plan samples).points := by
    intro p hp
    rw [hcoarse] at hp
    rw [hfine]
    exact Plan.mem_grid_of_factor hs hfactor (le_of_lt hlt) hp
  rw [fine.fill_of_scattered h, coarse.fill_of_scattered h,
    Plan.windowTotals_windowTotals (fine.plan_ascends samples) _ hsub]

/-- **Downsampling the line of full resolution is downsampling the samples.** Take two fillers with
the same step, given or left to be found, and any two budgets, and samples with instants that are
words in milliseconds, such that the first filler does not multiply the step. The second filler
makes the same line of the line of the first one as of the samples. Where there are two distinct
instants, the value of each of its points is the sum of the line of the first filler from it up to
the next one. -/
theorem fill_fill_of_full (same : fine.baseStep = coarse.baseStep)
    (hwords : ∀ s ∈ samples, Number.InWord (s.1 * 1000))
    (hfull : (fine.plan samples).factor = 1) :
    coarse.fill (fine.fill samples) = coarse.fill samples ∧
      ((∃ s ∈ samples, ∃ u ∈ samples, s.1 ≠ u.1) →
        let times := (coarse.fill samples).map Prod.fst
        ∀ k t v, (coarse.fill samples)[k]? = some (t, v) →
          v = (((fine.fill samples).filter fun s => Plan.inWindow t times[k + 1]? s.1).map
            Prod.snd).sum) := by
  rcases lt_or_ge 1 (instants samples).length with hlen | hlen
  · have hwindows := fill_eq_windowTotals_of_full same hwords hlen hfull
    have hline := coarse.fill_of_ascend (fine.fill_ascends hlen)
      (fine.one_lt_length_instants_fill hwords hlen)
    refine ⟨?_, fun _ => ?_⟩
    · rw [hline, plan_fill_of_full same hwords hlen hfull, hwindows]
    · intro times k t v hv
      rw [hwindows, Plan.getElem?_windowTotals, ← coarse.map_fst_fill hlen] at hv
      obtain ⟨u, -, hu⟩ := Option.map_eq_some_iff.1 hv
      rw [Count.total_eq_sum] at hu
      cases hu
      rfl
  · have hsame : fine.fill samples = samples := fine.fill_of_single hlen
    refine ⟨by rw [hsame], fun hdistinct => ?_⟩
    exact absurd (one_lt_length_instants_iff.2 hdistinct) (not_lt.2 hlen)

end Exact

/-- Samples off the grid, and the last one off it as well: with room for all steps their line has
four points, and three points are made of these, the step found anew, as they are made of the
samples. -/
theorem fill_fill_of_full_scattered :
    let fine : GapFiller := {}
    let coarse : GapFiller := { budget := { maxTimelinePoints := 3 } }
    fine.baseStep = coarse.baseStep ∧ (∀ s ∈ scatteredSamples, Number.InWord (s.1 * 1000)) ∧
      (fine.plan scatteredSamples).factor = 1 ∧
      fine.fill scatteredSamples = [(0, 2), (60, 2), (120, 5), (150, 4)] ∧
      coarse.fill scatteredSamples = [(0, 4), (120, 5), (150, 4)] ∧
      coarse.fill (fine.fill scatteredSamples) = coarse.fill scatteredSamples := by
  intro fine coarse
  have same : fine.baseStep = coarse.baseStep := rfl
  have hwords : ∀ s ∈ scatteredSamples, Number.InWord (s.1 * 1000) := by decide
  have hfull : (fine.plan scatteredSamples).factor = 1 := by cbv
  exact ⟨same, hwords, hfull, by cbv, by cbv, (fill_fill_of_full same hwords hfull).1⟩

end GapFiller

end TrafficBoard
