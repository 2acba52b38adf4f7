import Mathlib
import TrafficBoard.Proofs.Series.Spacing

namespace TrafficBoard.Plan

/-!
# Finest grids — a plan takes the least multiple of its step whose grid fits

* `Search` is the run of the search for a multiple, with no bound on the number of multiples that it
  passes over; `search_factorFor` says that it comes to an end, `Search.least` what it passes over;
* `gridSize_windowOf` says that keeping a window to a word leaves the number of points as it is;
* `lt_gridSize_of_lt_estimate` says that nothing below the estimate fits;
* `ofObserved_finest` puts this together: the points of a plan are those of the finest grid that
  fits.

The estimate counts whole windows only, so the grid that it stands for may be too long by the point
that is appended. What it leaves out has too many points even without that one, and from there on
every multiple is tried.
-/

variable {step span maxPoints factor result : Int}

/-! ### The search -/

/-- The run of the search: a multiple that fits ends it, any other one is passed over. -/
inductive Search (step span maxPoints : Int) : Int → Int → Prop
  | found {factor : Int} (h : fits step span maxPoints factor = true) :
    Search step span maxPoints factor factor
  | passed {factor result : Int} (h : fits step span maxPoints factor = false)
    (rest : Search step span maxPoints (factor + 1) result) :
    Search step span maxPoints factor result

namespace Search

/-- The search ends at a multiple that fits, and every multiple before it from the start on does
not. -/
theorem least (h : Search step span maxPoints factor result) :
    fits step span maxPoints result = true ∧ factor ≤ result ∧
      ∀ f, factor ≤ f → f < result → fits step span maxPoints f = false := by
  induction h with
  | found hfits => exact ⟨hfits, le_refl _, fun f hle hlt => absurd hlt (not_lt.2 hle)⟩
  | @passed factor result hfits _ ih =>
    obtain ⟨hend, hle, hbefore⟩ := ih
    refine ⟨hend, by omega, fun f hfrom hto => ?_⟩
    rcases eq_or_lt_of_le hfrom with rfl | hlt
    · exact hfits
    · exact hbefore f hlt hto

/-- The search has one end only. -/
theorem unique {other : Int} (h : Search step span maxPoints factor result)
    (h' : Search step span maxPoints factor other) : result = other := by
  obtain ⟨hfits, hle, hbefore⟩ := h.least
  obtain ⟨hfits', hle', hbefore'⟩ := h'.least
  rcases lt_trichotomy result other with hlt | heq | hlt
  · rw [hbefore' result hle hlt] at hfits
    exact absurd hfits (by simp)
  · exact heq
  · rw [hbefore other hle' hlt] at hfits'
    exact absurd hfits' (by simp)

end Search

/-- The search ends within the number of passes that it is given, if the multiple at their end
fits. -/
theorem search_firstFitting {fuel : Nat} (h : fits step span maxPoints (factor + fuel)) :
    Search step span maxPoints factor (firstFitting step span maxPoints fuel factor) := by
  induction fuel generalizing factor with
  | zero =>
    rw [firstFitting]
    exact .found (by simpa using h)
  | succ fuel ih =>
    rw [firstFitting]
    split
    · exact .found ‹_›
    · rename_i hno
      refine .passed (by simpa using hno) (ih ?_)
      rw [show factor + 1 + (fuel : Int) = factor + (fuel + 1 : Nat) by push_cast; ring]
      exact h

/-- **The search for a multiple ends.** -/
theorem search_factorFor (hs : 0 < step) (hspan : 0 ≤ span) (hword : span < Number.wordMax)
    (hmax : 2 ≤ maxPoints) :
    Search step span maxPoints (estimate step span maxPoints) (factorFor step span maxPoints) :=
  search_firstFitting (fits_last hs hspan hword hmax)

/-! ### Grids that do not fit -/

/-- Keeping a window to a word makes a difference only where it is longer than the span anyway. -/
theorem windowOf_eq_or (step factor : Int) (hword : span < Number.wordMax) :
    windowOf step factor = step * factor ∨
      span < windowOf step factor ∧ span < step * factor := by
  rw [windowOf]
  rcases le_total (step * factor) Number.wordMax with hle | hge
  · exact .inl (min_eq_left hle)
  · rw [min_eq_right hge]
    exact .inr ⟨hword, lt_of_lt_of_le hword hge⟩

/-- A window that is longer than the span leaves the two ends. -/
theorem gridSize_of_lt {window : Int} (hspan : 0 ≤ span) (h : span < window) :
    gridSize span window = if span = 0 then 1 else 2 := by
  rw [gridSize, Int.ediv_eq_zero_of_lt hspan h, Int.emod_eq_of_lt hspan h]
  split <;> rfl

/-- Keeping a window to a word does not change the number of points. -/
theorem gridSize_windowOf (hspan : 0 ≤ span) (hword : span < Number.wordMax) :
    gridSize span (windowOf step factor) = gridSize span (step * factor) := by
  rcases windowOf_eq_or step factor hword with heq | ⟨hkept, hlong⟩
  · rw [heq]
  · rw [gridSize_of_lt hspan hkept, gridSize_of_lt hspan hlong]

/-- A multiple fits if its grid, the appended point counted, has no more points than allowed. -/
theorem fits_iff (hspan : 0 ≤ span) (hword : span < Number.wordMax) :
    fits step span maxPoints factor = true ↔ gridSize span (step * factor) ≤ maxPoints := by
  rw [fits, decide_eq_true_iff, gridSize_windowOf hspan hword]

/-- **Nothing below the estimate fits:** whole windows alone make too many points. -/
theorem lt_gridSize_of_lt_estimate (hs : 0 < step) (hmax : 2 ≤ maxPoints) (hpos : 1 ≤ factor)
    (h : factor < estimate step span maxPoints) : maxPoints < gridSize span (step * factor) := by
  rw [estimate] at h
  split at h
  · rw [show span / step + 1 + maxPoints - 1 = span / step + maxPoints * 1 by ring,
      Int.add_mul_ediv_left _ _ (by omega)] at h
    -- The multiple goes as often into the steps as there are points, or more often.
    have hmul : factor * maxPoints ≤ span / step :=
      (Int.le_ediv_iff_mul_le (by omega)).1 (by omega)
    have hwindows : maxPoints ≤ span / (step * factor) := by
      rw [← Int.ediv_ediv_of_nonneg (le_of_lt hs), Int.le_ediv_iff_mul_le (by omega), mul_comm]
      exact hmul
    rw [gridSize]
    split <;> omega
  · omega

/-- The multiple of a plan is the least one whose grid fits. -/
theorem isLeast_factorFor (hs : 0 < step) (hspan : 0 ≤ span) (hword : span < Number.wordMax)
    (hmax : 2 ≤ maxPoints) :
    IsLeast {f | 1 ≤ f ∧ gridSize span (step * f) ≤ maxPoints} (factorFor step span maxPoints) := by
  obtain ⟨hfits, -, hbefore⟩ := (search_factorFor hs hspan hword hmax).least
  refine ⟨⟨factorFor_pos hs hspan hmax, (fits_iff hspan hword).1 hfits⟩, fun f hf => ?_⟩
  obtain ⟨hpos, hsize⟩ := hf
  by_contra hlt
  rw [not_le] at hlt
  rcases lt_or_ge f (estimate step span maxPoints) with hbelow | hfrom
  · exact absurd hsize (not_le.2 (lt_gridSize_of_lt_estimate hs hmax hpos hbelow))
  · -- From the estimate on, the search has tried every multiple.
    have hno := hbefore f hfrom hlt
    rw [(fits_iff hspan hword).2 hsize] at hno
    exact absurd hno (by simp)

/-! ### The finest grid -/

/-- The grid of a window that is longer than the span is made of the two ends. -/
theorem grid_of_lt {first last window : Int} (h : first ≤ last) (hlong : last - first < window) :
    grid first last window = if last - first = 0 then [first] else [first, last] := by
  have hspan : 0 ≤ last - first := by omega
  rw [grid, Int.ediv_eq_zero_of_lt hspan hlong, Int.emod_eq_of_lt hspan hlong]
  simp

/-- Keeping a window to a word changes no point of a grid. -/
theorem grid_windowOf {first last : Int} (h : first ≤ last)
    (hword : last - first < Number.wordMax) :
    grid first last (windowOf step factor) = grid first last (step * factor) := by
  rcases windowOf_eq_or step factor hword with heq | ⟨hkept, hlong⟩
  · rw [heq]
  · rw [grid_of_lt h hkept, grid_of_lt h hlong]

section Observed

variable {observed : List Int} {first last : Int} {maxPoints : Nat}

/-- The multiple and the points of a plan for instants that are less than a word apart. -/
theorem ofObserved_of_span (hfirst : observed.head? = some first)
    (hlast : observed.getLast? = some last) (hs : 0 < step) (h : first < last)
    (hword : last - first < Number.wordMax) :
    (ofObserved observed (some step) maxPoints).factor =
        factorFor step (last - first) (max maxPoints 2 : Nat) ∧
      (ofObserved observed (some step) maxPoints).points =
        grid first last (step * factorFor step (last - first) (max maxPoints 2 : Nat)) := by
  rw [ofObserved_of_step hfirst hlast hs h]
  exact ⟨rfl, grid_windowOf (le_of_lt h) hword⟩

/-- **A plan has the finest grid that fits.** Take strictly ascending instants, two at least, a
positive step and a number of points, two at least, such that the span and the number of points
together are a word. The search for a multiple comes to an end, and it has no other end than the
multiple of the plan. The points of the plan ascend from the first instant to the last, that
multiple of the step apart, the last two of them perhaps less, and they are no more than allowed.
The multiple is the least one whose grid has no more points than allowed, where points are counted
right: any points that are so many steps apart are as many. -/
theorem ofObserved_finest (sorted : observed.Pairwise (· < ·)) (two : 2 ≤ observed.length)
    (hfirst : observed.head? = some first) (hlast : observed.getLast? = some last)
    (hs : 0 < step) (hmax : 2 ≤ maxPoints)
    (hword : last - first + maxPoints ≤ Number.wordMax) :
    let p := ofObserved observed (some step) maxPoints
    (∀ f, Search step (last - first) maxPoints (estimate step (last - first) maxPoints) f ↔
      f = p.factor) ∧
    Evenly first last (step * p.factor) p.points ∧
    p.points.length ≤ maxPoints ∧
    (∀ f, 1 ≤ f → ∀ points, Evenly first last (step * f) points →
      (points.length : Int) = gridSize (last - first) (step * f)) ∧
    IsLeast {f | 1 ≤ f ∧ gridSize (last - first) (step * f) ≤ maxPoints} p.factor := by
  intro p
  have hlt := head_lt_getLast sorted hfirst hlast two
  have hspan : 0 ≤ last - first := by omega
  have hwindow : last - first < Number.wordMax := by omega
  have htwo : (2 : Int) ≤ maxPoints := by exact_mod_cast hmax
  obtain ⟨hfactor, hpoints⟩ : p.factor = _ ∧ p.points = _ :=
    ofObserved_of_span hfirst hlast hs hlt hwindow
  rw [max_eq_left hmax] at hfactor hpoints
  rw [← hfactor] at hpoints
  have hleast := isLeast_factorFor hs hspan hwindow htwo
  have hend := search_factorFor hs hspan hwindow htwo
  rw [← hfactor] at hleast hend
  obtain ⟨hpos, hfits⟩ := hleast.1
  have hcount : ∀ f, 1 ≤ f → ∀ points, Evenly first last (step * f) points →
      (points.length : Int) = gridSize (last - first) (step * f) := by
    intro f hf points heven
    have hmul : 0 < step * f := mul_pos hs (by omega)
    rw [(evenly_iff hmul hlt).1 heven, length_grid hmul (le_of_lt hlt)]
  have heven : Evenly first last (step * p.factor) p.points :=
    (evenly_iff (mul_pos hs (by omega)) hlt).2 hpoints
  refine ⟨fun f => ⟨fun h => h.unique hend, fun h => h ▸ hend⟩, heven, ?_, hcount, hleast⟩
  rw [← hcount p.factor hpos p.points heven] at hfits
  exact_mod_cast hfits

end Observed

/-- Four instants with room for three points: three whole steps make a grid of three points, but the
last instant has to be appended, so the search goes on to two steps. -/
theorem ofObserved_finest_appended :
    estimate 60 150 3 = 1 ∧ (ofObserved [0, 60, 120, 150] (some 60) 3).points = [0, 120, 150] ∧
      IsLeast {f | 1 ≤ f ∧ gridSize (150 - 0) (60 * f) ≤ (3 : Nat)}
        (ofObserved [0, 60, 120, 150] (some 60) 3).factor := by
  have sorted : ([0, 60, 120, 150] : List Int).Pairwise (· < ·) := by decide
  have hword : (150 : Int) - 0 + (3 : Nat) ≤ Number.wordMax := by decide
  exact ⟨by decide, by decide,
    (ofObserved_finest sorted (by decide) rfl rfl (by decide) (by decide) hword).2.2.2.2⟩

end TrafficBoard.Plan
