import Mathlib
import TrafficBoard.Proofs.Series.GapFilling

namespace TrafficBoard

/-!
# Refilling — a line that has been filled stays as it is

* `Plan.points_of_same_bounds` and `Plan.points_of_evenly` say when a plan keeps the points that it
  is made for: when its step is the one that they come from, or when it is their own distance;
* `Plan.windowTotals_self` says that with exact counts a line is the line of its own windows;
* `GapFiller.fill_of_settled` says that a filler leaves a line alone whose grid it keeps, and
  `GapFiller.plan_fill` that every line it makes is such a line;
* `GapFiller.fill_fill` puts the two together.
-/

namespace Plan

variable {first last step window : Int} {observed points : List Int} {maxPoints : Nat}

/-! ### Plans for the points of a plan -/

/-- A plan with a given step depends on the first and the last instant only. -/
theorem points_of_same_bounds {others : List Int} (hfirst : observed.head? = some first)
    (hlast : observed.getLast? = some last) (hfirst' : others.head? = some first)
    (hlast' : others.getLast? = some last) (hs : 0 < step) (h : first < last) :
    (ofObserved others (some step) maxPoints).points =
      (ofObserved observed (some step) maxPoints).points := by
  rw [ofObserved_of_step hfirst hlast hs h, ofObserved_of_step hfirst' hlast' hs h]

/-- A step whose own grid fits is not multiplied. -/
theorem factorFor_eq_one {span maxPoints : Int} (hs : 0 < step) (hspan : 0 ≤ span)
    (hword : span < Number.wordMax) (hmax : 2 ≤ maxPoints) (h : gridSize span step ≤ maxPoints) :
    factorFor step span maxPoints = 1 := by
  obtain ⟨⟨hpos, -⟩, hleast⟩ := isLeast_factorFor hs hspan hword hmax
  have hone : factorFor step span maxPoints ≤ 1 := hleast ⟨le_refl _, by rwa [mul_one]⟩
  omega

/-- Evenly spaced points are also as far apart as the step that is found in them. -/
theorem Evenly.of_modalStep (h : Evenly first last window points) (hlen : 1 < points.length)
    (hstep : modalStep points = some step) : Evenly first last step points := by
  rw [h.modalStep_eq hlen, Option.some.injEq] at hstep
  by_cases htwo : points.length = 2
  · rw [if_pos htwo] at hstep
    refine ⟨h.ascends, h.starts, h.ends, fun k t u ht hu => ?_⟩
    -- There is only one distance, the one from the first point to the last.
    obtain ⟨hk, -⟩ := List.getElem?_eq_some_iff.1 hu
    have hstarts := h.starts
    have hends := h.ends
    rw [List.head?_eq_getElem?] at hstarts
    rw [List.getLast?_eq_getElem?, htwo] at hends
    obtain rfl : k = 0 := by omega
    rw [hstarts, Option.some.injEq] at ht
    rw [hends, Option.some.injEq] at hu
    exact ⟨by omega, fun hmore => by omega⟩
  · rw [if_neg htwo] at hstep
    exact hstep ▸ h

/-- **A plan keeps evenly spaced points that fit,** if it takes the step that is found in them. -/
theorem points_of_evenly (h : Evenly first last window points) (hlt : first < last)
    (hword : last - first < Number.wordMax) (hfit : points.length ≤ max maxPoints 2)
    (hstep : modalStep points = some step) :
    (ofObserved points (some step) maxPoints).points = points := by
  have hs := modalStep_pos hstep
  have hown := h.of_modalStep (h.one_lt_length hlt) hstep
  have hgrid := (evenly_iff hs hlt).1 hown
  have hone : factorFor step (last - first) (max maxPoints 2 : Nat) = 1 := by
    refine factorFor_eq_one hs (by omega) hword (by omega) ?_
    rw [← length_grid hs (le_of_lt hlt), ← hgrid]
    exact_mod_cast hfit
  rw [(ofObserved_of_span h.starts h.ends hs hlt hword).2, hone, mul_one, ← hgrid]

/-! ### A line over its own instants -/

section Line

variable {α : Type}

/-- The window of a point in a line holds that point and nothing else. -/
theorem filter_inWindow {before rest : List (Int × α)} {p : Int × α}
    (h : (before ++ p :: rest).Pairwise fun s u => s.1 < u.1) :
    ((before ++ p :: rest).filter fun s => inWindow p.1 (rest.map Prod.fst).head? s.1) = [p] := by
  obtain ⟨-, hcons, hcross⟩ := List.pairwise_append.1 h
  have hbefore : (before.filter fun s => inWindow p.1 (rest.map Prod.fst).head? s.1) = [] := by
    refine List.filter_eq_nil_iff.2 fun s hs => ?_
    have hlt := hcross s hs p (by simp)
    simp [inWindow, not_le.2 hlt]
  rw [List.filter_append, hbefore, List.nil_append]
  cases rest with
  | nil => simp [inWindow]
  | cons q rest =>
    -- The window ends at the next point, which all the later ones follow.
    have hlt : p.1 < q.1 := List.rel_of_pairwise_cons hcons (by simp)
    have hafter : ((q :: rest).filter fun s => inWindow p.1 (some q.1) s.1) = [] := by
      refine List.filter_eq_nil_iff.2 fun s hs => ?_
      have hle : q.1 ≤ s.1 := by
        rcases List.mem_cons.1 hs with rfl | hrest
        · exact le_refl _
        · exact le_of_lt (List.rel_of_pairwise_cons hcons.of_cons hrest)
      simp [inWindow, not_lt.2 hle]
    have hown : inWindow p.1 (some q.1) p.1 = true := by simp [inWindow, hlt]
    rw [List.map_cons, List.head?_cons, List.filter_cons, if_pos hown, hafter]

variable [Count α] [AddCommGroup α] [LinearOrder α] [Count.Exact α]

/-- **A line is the line of its own windows.** -/
theorem windowTotals_self {samples : List (Int × α)}
    (h : (samples.map Prod.fst).Pairwise (· < ·)) :
    windowTotals samples (samples.map Prod.fst) = samples := by
  -- The samples before the point at hand are carried along; no window takes them in again.
  have carried : ∀ before rest : List (Int × α), (before ++ rest).Pairwise (fun s u => s.1 < u.1) →
      windowTotals (before ++ rest) (rest.map Prod.fst) = rest := by
    intro before rest hasc
    induction rest generalizing before with
    | nil => rfl
    | cons p rest ih =>
      have hnext := ih (before ++ [p]) (by simpa using hasc)
      rw [List.append_assoc, List.singleton_append] at hnext
      rw [List.map_cons, windowTotals, filter_inWindow hasc, hnext, Count.total_eq_sum]
      simp
  exact carried [] samples (List.pairwise_map.1 h)

end Line

end Plan

namespace GapFiller

variable {α : Type}

/-! ### The grid of a line -/

/-- Instants that ascend strictly are distinct already. -/
theorem instants_of_ascend {samples : List (Int × α)}
    (h : (samples.map Prod.fst).Pairwise (· < ·)) : instants samples = samples.map Prod.fst :=
  timeline_of_ascends h

variable [Count α]

/-- Samples whose instants ascend strictly are in order already, so that their line has the sums of
the windows of the samples as they are. -/
theorem fill_of_ascend (filler : GapFiller) {samples : List (Int × α)}
    (hasc : (samples.map Prod.fst).Pairwise (· < ·)) (h : 1 < (instants samples).length) :
    filler.fill samples = Plan.windowTotals samples (filler.plan samples).points := by
  rw [List.pairwise_map] at hasc
  rw [filler.fill_of_scattered h, sortSamples_of_ascend (hasc.imp fun hlt => le_of_lt hlt)]

/-- **A filler keeps the grid of every line that it makes.** -/
theorem plan_fill (filler : GapFiller) {samples : List (Int × α)}
    (hwords : ∀ s ∈ samples, Number.InWord (s.1 * 1000)) (h : 1 < (instants samples).length) :
    ((filler.fill samples).map Prod.fst).Pairwise (· < ·) ∧
      (filler.plan (filler.fill samples)).points = (filler.fill samples).map Prod.fst := by
  obtain ⟨first, last, step, hfirst, hlast, hlt, hstep, hs, hfactor, hgrid⟩ :=
    filler.exists_grid h hwords
  have hplan : filler.plan samples =
      Plan.ofObserved (instants samples) (some step) filler.budget.maxTimelinePoints := by
    rw [plan, hstep]
  have htimes := filler.map_fst_fill h
  have heven : Plan.Evenly first last (step * (filler.plan samples).factor)
      ((filler.fill samples).map Prod.fst) := by
    rw [htimes]
    exact (Plan.evenly_iff (mul_pos hs (by omega)) hlt).2 hgrid
  refine ⟨heven.ascends, ?_⟩
  rw [plan, GapFiller.step, instants_of_ascend heven.ascends]
  rw [GapFiller.step] at hstep
  cases hgiven : usableStep filler.baseStep with
  | some given =>
    -- The given step was the step of the samples, and the bounds have not changed.
    rw [hgiven, Option.some_or] at hstep
    rw [Option.some_or, hstep,
      Plan.points_of_same_bounds hfirst hlast heven.starts heven.ends hs hlt, htimes, hplan]
  | none =>
    -- The step is found anew, and it is the distance of the points.
    have hsmall := Plan.sub_lt_wordMax (inWord_instants hwords)
    have hfit : ((filler.fill samples).map Prod.fst).length ≤
        max filler.budget.maxTimelinePoints 2 := by
      rw [List.length_map]
      exact filler.length_fill_le hwords h
    have hfound := heven.modalStep_eq (heven.one_lt_length hlt)
    rw [Option.none_or, hfound]
    exact Plan.points_of_evenly heven hlt (hsmall first hfirst last hlast) hfit hfound

/-! ### Filling twice -/

section Exact

variable [AddCommGroup α] [LinearOrder α] [Count.Exact α]

/-- A filler leaves a line alone whose instants ascend and whose grid it keeps. -/
theorem fill_of_settled (filler : GapFiller) {samples : List (Int × α)}
    (hasc : (samples.map Prod.fst).Pairwise (· < ·))
    (hplan : (filler.plan samples).points = samples.map Prod.fst) :
    filler.fill samples = samples := by
  rcases lt_or_ge 1 (instants samples).length with hlen | hlen
  · rw [filler.fill_of_ascend hasc hlen, hplan]
    exact Plan.windowTotals_self hasc
  · exact filler.fill_of_single hlen

/-- **Filling is idempotent.** A filler with any budget, and with a given step or without one,
leaves every line alone that it has made of samples with instants that are words in milliseconds. -/
theorem fill_fill (filler : GapFiller) {samples : List (Int × α)}
    (hwords : ∀ s ∈ samples, Number.InWord (s.1 * 1000)) :
    filler.fill (filler.fill samples) = filler.fill samples := by
  rcases lt_or_ge 1 (instants samples).length with hlen | hlen
  · obtain ⟨hasc, hplan⟩ := filler.plan_fill hwords hlen
    exact filler.fill_of_settled hasc hplan
  · rw [filler.fill_of_single hlen, filler.fill_of_single hlen]

end Exact

/-- Samples with a step of ten and room for four points: the line advances by thirty, with twenty
left for its last point, and that is what the second filling finds. -/
theorem fill_fill_longer_step :
    let filler : GapFiller := { budget := { maxTimelinePoints := 4 } }
    let samples : List (Int × Int) := [(80, 5), (0, 1), (10, 2), (20, 3), (70, 4)]
    (∀ s ∈ samples, Number.InWord (s.1 * 1000)) ∧
      filler.fill samples = [(0, 6), (30, 0), (60, 4), (80, 5)] ∧
      filler.fill (filler.fill samples) = filler.fill samples := by
  intro filler samples
  have hwords : ∀ s ∈ samples, Number.InWord (s.1 * 1000) := by decide
  exact ⟨hwords, by cbv, filler.fill_fill hwords⟩

end GapFiller

end TrafficBoard
