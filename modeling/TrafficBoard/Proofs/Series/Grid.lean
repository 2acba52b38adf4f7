import Mathlib
import TrafficBoard.Proofs.Series.Timeline
import TrafficBoard.Series.Plan

namespace TrafficBoard.Plan

/-!
# Grids — where the points of a plan lie, and how many there are

* `getElem?_grid` and `getElem?_grid_last` read a grid place by place, `grid_ascends` says that its
  points ascend strictly;
* `fits_factorFor` says that the search for a multiple of the step ends at one that fits;
* `grid_or_observed` says that a plan has a grid with its window, or the observed instants without
  one;
* `length_points_le` bounds the points of a plan by those allowed.
-/

variable {first last window : Int}

/-! ### The points of a grid -/

/-- The points of a grid that lie a whole number of windows after the first one. -/
theorem getElem?_grid {k : Nat} (h : (k : Int) ≤ (last - first) / window) :
    (grid first last window)[k]? = some (first + k * window) := by
  have hk : k < ((last - first) / window + 1).toNat := by omega
  have hregular : ((List.range ((last - first) / window + 1).toNat).map
      fun (k : Nat) => first + (k : Int) * window)[k]? = some (first + k * window) := by
    rw [List.getElem?_map, List.getElem?_range hk, Option.map_some]
  rw [grid]
  split
  · exact hregular
  · rw [List.getElem?_append_left (by simpa using hk), hregular]

/-- The number of points of a grid. -/
theorem length_grid (pos : 0 < window) (h : first ≤ last) :
    ((grid first last window).length : Int) = gridSize (last - first) window := by
  have hq : 0 ≤ (last - first) / window := Int.ediv_nonneg (by omega) (by omega)
  rw [grid, gridSize]
  split <;> simp <;> omega

/-- The last sample is appended where it is not a whole number of windows after the first. -/
theorem getElem?_grid_last (pos : 0 < window) (h : first ≤ last)
    (off : (last - first) % window ≠ 0) :
    (grid first last window)[((last - first) / window).toNat + 1]? = some last := by
  have hq : 0 ≤ (last - first) / window := Int.ediv_nonneg (by omega) (by omega)
  rw [grid, if_neg off, List.getElem?_append_right (by simp)]
  simp only [List.length_map, List.length_range]
  rw [show ((last - first) / window).toNat + 1 - ((last - first) / window + 1).toNat = 0 by omega]
  rfl

/-- A grid starts at the first sample. -/
theorem head?_grid (pos : 0 < window) (h : first ≤ last) :
    (grid first last window).head? = some first := by
  have hq : 0 ≤ (last - first) / window := Int.ediv_nonneg (by omega) (by omega)
  rw [List.head?_eq_getElem?, getElem?_grid (by simpa using hq)]
  simp

/-- A grid ends at the last sample. -/
theorem getLast?_grid (pos : 0 < window) (h : first ≤ last) :
    (grid first last window).getLast? = some last := by
  have hq : 0 ≤ (last - first) / window := Int.ediv_nonneg (by omega) (by omega)
  have hlen := length_grid pos h
  rw [gridSize] at hlen
  rw [List.getLast?_eq_getElem?]
  by_cases off : (last - first) % window = 0
  · rw [if_pos off] at hlen
    rw [show (grid first last window).length - 1 = ((last - first) / window).toNat by omega,
      getElem?_grid (by omega)]
    -- The division leaves nothing over, so the last whole window ends at the last sample.
    have hdiv := Int.mul_ediv_add_emod (last - first) window
    rw [off, add_zero, mul_comm] at hdiv
    rw [Int.toNat_of_nonneg hq, hdiv]
    simp
  · rw [if_neg off] at hlen
    rw [show (grid first last window).length - 1 = ((last - first) / window).toNat + 1 by omega]
    exact getElem?_grid_last pos h off

/-- **The points of a grid ascend strictly.** -/
theorem grid_ascends (first last : Int) (pos : 0 < window) :
    (grid first last window).Pairwise (· < ·) := by
  have hregular : ((List.range ((last - first) / window + 1).toNat).map
      fun (k : Nat) => first + (k : Int) * window).Pairwise (· < ·) := by
    rw [List.pairwise_map]
    refine List.pairwise_lt_range.imp ?_
    intro a b hab
    have := mul_lt_mul_of_pos_right (Int.ofNat_lt.2 hab) pos
    omega
  rw [grid]
  split
  · exact hregular
  · rename_i off
    refine List.pairwise_append.2 ⟨hregular, List.pairwise_singleton _ _, ?_⟩
    intro t ht u hu
    obtain ⟨k, hk, rfl⟩ := List.mem_map.1 ht
    rw [List.mem_range] at hk
    rw [List.mem_singleton.1 hu]
    -- The appended point lies beyond the last whole window, since something is left over.
    have hdiv := Int.mul_ediv_add_emod (last - first) window
    have hmod := Int.emod_nonneg (last - first) (by omega : window ≠ 0)
    have hle : (k : Int) * window ≤ (last - first) / window * window :=
      mul_le_mul_of_nonneg_right (by omega) (by omega)
    rw [mul_comm] at hdiv
    omega

/-- A grid over more than one instant has more than one point. -/
theorem one_lt_length_grid (pos : 0 < window) (h : first < last) :
    1 < (grid first last window).length := by
  by_contra hle
  have hhead := head?_grid pos (le_of_lt h)
  have hlast := getLast?_grid pos (le_of_lt h)
  rw [List.head?_eq_getElem?] at hhead
  rw [List.getLast?_eq_getElem?, show (grid first last window).length - 1 = 0 by omega,
    hhead] at hlast
  simp only [Option.some.injEq] at hlast
  omega

/-! ### The multiple of the step -/

/-- A multiple of a step is a window. -/
theorem windowOf_pos {step factor : Int} (hs : 0 < step) (hf : 0 < factor) :
    0 < windowOf step factor := by
  have hmul := mul_pos hs hf
  rw [windowOf, Number.wordMax]
  omega

/-- The search does not go back behind its start. -/
theorem le_firstFitting (step span maxPoints : Int) (fuel : Nat) (factor : Int) :
    factor ≤ firstFitting step span maxPoints fuel factor := by
  induction fuel generalizing factor with
  | zero => rfl
  | succ fuel ih =>
    rw [firstFitting]
    split
    · rfl
    · have := ih (factor + 1)
      omega

/-- The search ends at a multiple that fits, if the one at its end does. -/
theorem fits_firstFitting {step span maxPoints factor : Int} {fuel : Nat}
    (h : fits step span maxPoints (factor + fuel)) :
    fits step span maxPoints (firstFitting step span maxPoints fuel factor) := by
  -- Each multiple that is passed over moves the start up and leaves the end where it is.
  induction fuel generalizing factor with
  | zero =>
    rw [firstFitting]
    simpa using h
  | succ fuel ih =>
    rw [firstFitting]
    split
    · assumption
    · apply ih
      rw [show factor + 1 + (fuel : Int) = factor + (fuel + 1 : Nat) by push_cast; ring]
      exact h

/-- The estimate is a multiple, and no more than the points of the undivided grid. -/
theorem estimate_bounds {step span maxPoints : Int} (hs : 0 < step) (hspan : 0 ≤ span)
    (hmax : 2 ≤ maxPoints) :
    1 ≤ estimate step span maxPoints ∧ estimate step span maxPoints ≤ span / step + 1 := by
  have hq : 0 ≤ span / step := Int.ediv_nonneg hspan (by omega)
  rw [estimate]
  split
  · rename_i hlt
    refine ⟨?_, ?_⟩
    · rw [Int.le_ediv_iff_mul_le (by omega)]
      omega
    · -- Rounding up a quotient by at least two does not exceed the dividend.
      apply Int.ediv_le_of_le_mul (by omega)
      nlinarith
  · omega

/-- The multiple is positive. -/
theorem factorFor_pos {step span maxPoints : Int} (hs : 0 < step) (hspan : 0 ≤ span)
    (hmax : 2 ≤ maxPoints) : 0 < factorFor step span maxPoints := by
  have hstart := (estimate_bounds hs hspan hmax).1
  have hle := le_firstFitting step span maxPoints
    (span / step + 2 - estimate step span maxPoints).toNat (estimate step span maxPoints)
  rw [factorFor]
  omega

/-- A window longer than the span leaves two points. -/
theorem fits_of_lt_windowOf {step span maxPoints factor : Int} (hspan : 0 ≤ span)
    (hmax : 2 ≤ maxPoints) (h : span < windowOf step factor) :
    fits step span maxPoints factor := by
  rw [fits, gridSize, Int.ediv_eq_zero_of_lt hspan h]
  apply decide_eq_true
  split <;> omega

/-- The multiple at which the search ends at the latest fits: it is two more than the steps that the
span holds, so its window is longer than the span. -/
theorem fits_last {step span maxPoints : Int} (hs : 0 < step) (hspan : 0 ≤ span)
    (hword : span < Number.wordMax) (hmax : 2 ≤ maxPoints) :
    fits step span maxPoints (estimate step span maxPoints +
      ((span / step + 2 - estimate step span maxPoints).toNat : Int)) := by
  have hstart := (estimate_bounds hs hspan hmax).2
  apply fits_of_lt_windowOf hspan hmax
  rw [show estimate step span maxPoints +
      ((span / step + 2 - estimate step span maxPoints).toNat : Int) = span / step + 2 by omega]
  have hlt : span < step * (span / step + 2) := by
    have := Int.lt_ediv_add_one_mul_self span hs
    nlinarith
  rw [windowOf]
  omega

/-- **The search for a multiple ends at one whose grid fits the points allowed.** -/
theorem fits_factorFor {step span maxPoints : Int} (hs : 0 < step) (hspan : 0 ≤ span)
    (hword : span < Number.wordMax) (hmax : 2 ≤ maxPoints) :
    fits step span maxPoints (factorFor step span maxPoints) :=
  fits_firstFitting (fits_last hs hspan hword hmax)

/-! ### The points of a plan -/

section Observed

variable {observed : List Int} {baseStep : Option Int} {maxPoints : Nat}

/-- Where there is a step and more than one instant, the points are a grid. -/
theorem ofObserved_of_step {step : Int} (hfirst : observed.head? = some first)
    (hlast : observed.getLast? = some last) (hs : 0 < step) (h : first < last) :
    ofObserved observed (some step) maxPoints =
      { baseStep := some step
        factor := factorFor step (last - first) (max maxPoints 2 : Nat)
        points := grid first last
          (windowOf step (factorFor step (last - first) (max maxPoints 2 : Nat))) } := by
  rw [ofObserved, hfirst, hlast]
  simp only [hs, h, and_self, if_true]

/-- Without a step, or with one instant only, the points are the observed instants. -/
theorem ofObserved_of_not_step
    (h : ∀ step ∈ baseStep, ∀ first ∈ observed.head?, ∀ last ∈ observed.getLast?,
      ¬ (0 < step ∧ first < last)) :
    ofObserved observed baseStep maxPoints = { baseStep, factor := 1, points := observed } := by
  rw [ofObserved]
  cases hfirst : observed.head? with
  | none =>
    rw [List.head?_eq_none_iff] at hfirst
    simp [hfirst]
  | some first =>
    cases hlast : observed.getLast? with
    | none =>
      rw [List.getLast?_eq_none_iff] at hlast
      simp [hlast]
    | some last =>
      cases baseStep with
      | none => rfl
      | some step =>
        have hno := h step rfl first hfirst last hlast
        simp only [hno, if_false]

/-- The first of strictly ascending instants is below the last, if there are two. -/
theorem head_lt_getLast (sorted : observed.Pairwise (· < ·)) (hfirst : observed.head? = some first)
    (hlast : observed.getLast? = some last) (h : 1 < observed.length) : first < last := by
  rw [List.head?_eq_getElem?] at hfirst
  rw [List.getLast?_eq_getElem?] at hlast
  obtain ⟨h0, rfl⟩ := List.getElem?_eq_some_iff.1 hfirst
  obtain ⟨h1, rfl⟩ := List.getElem?_eq_some_iff.1 hlast
  exact List.pairwise_iff_getElem.1 sorted 0 _ h0 h1 (by omega)

/-- Instants that are words in milliseconds are less than a word apart in seconds. -/
theorem sub_lt_wordMax (hwords : ∀ t ∈ observed, Number.InWord (t * 1000)) :
    ∀ first ∈ observed.head?, ∀ last ∈ observed.getLast?, last - first < Number.wordMax := by
  intro first hfirst last hlast
  -- A word in milliseconds is a thousand times as far, which leaves room for a difference.
  have hf := hwords first (List.mem_of_head? hfirst)
  have hl := hwords last (List.mem_of_getLast? hlast)
  simp only [Number.InWord, Number.wordMin, Number.wordMax] at hf hl ⊢
  omega

/-- **A plan has a grid and its window, or the observed instants and none.** -/
theorem grid_or_observed (sorted : observed.Pairwise (· < ·)) (usable : ∀ step ∈ baseStep, 0 < step)
    (maxPoints : Nat) :
    (∃ step first last window, baseStep = some step ∧ observed.head? = some first ∧
      observed.getLast? = some last ∧ first < last ∧
      window = windowOf step (factorFor step (last - first) (max maxPoints 2 : Nat)) ∧ 0 < window ∧
      (ofObserved observed baseStep maxPoints).points = grid first last window ∧
      (ofObserved observed baseStep maxPoints).window = some window) ∨
    ((baseStep = none ∨ observed.length ≤ 1) ∧
      (ofObserved observed baseStep maxPoints).points = observed ∧
      (ofObserved observed baseStep maxPoints).window = none) := by
  by_cases h : ∀ step ∈ baseStep, ∀ first ∈ observed.head?, ∀ last ∈ observed.getLast?,
      ¬ (0 < step ∧ first < last)
  · -- With two instants there would be a step and a stretch of time for it.
    have hshort : baseStep = none ∨ observed.length ≤ 1 := by
      cases hstep : baseStep with
      | none => exact Or.inl rfl
      | some step =>
        refine Or.inr (not_lt.1 fun hlen => ?_)
        have hne : observed ≠ [] := by
          rintro rfl
          simp at hlen
        have hfirst := List.head?_eq_some_head hne
        have hlast := List.getLast?_eq_some_getLast hne
        exact h step hstep _ hfirst _ hlast
          ⟨usable step hstep, head_lt_getLast sorted hfirst hlast hlen⟩
    refine Or.inr ⟨hshort, ?_⟩
    rw [ofObserved_of_not_step h]
    refine ⟨rfl, ?_⟩
    rw [window]
    rcases hshort with hnone | hlen
    · simp [hnone]
    · rw [if_neg (not_lt.2 hlen)]
  · push Not at h
    obtain ⟨step, hstep, first, hfirst, last, hlast, hs, hlt⟩ := h
    have hfactor : 0 < factorFor step (last - first) (max maxPoints 2 : Nat) :=
      factorFor_pos hs (by omega) (by omega)
    have hpos := windowOf_pos hs hfactor
    rw [Option.mem_def] at hstep
    refine Or.inl ⟨step, first, last, _, hstep, hfirst, hlast, hlt, rfl, hpos, ?_⟩
    rw [hstep, ofObserved_of_step hfirst hlast hs hlt]
    refine ⟨rfl, ?_⟩
    rw [window, if_pos (one_lt_length_grid hpos hlt), Option.map_some]

/-- **The points of a plan ascend strictly.** -/
theorem points_ascend (sorted : observed.Pairwise (· < ·)) (usable : ∀ step ∈ baseStep, 0 < step)
    (maxPoints : Nat) : (ofObserved observed baseStep maxPoints).points.Pairwise (· < ·) := by
  rcases grid_or_observed sorted usable maxPoints with
    ⟨_, first, last, _, _, _, _, _, _, hpos, hpoints, _⟩ | ⟨_, hpoints, _⟩
  · rw [hpoints]
    exact grid_ascends first last hpos
  · rw [hpoints]
    exact sorted

/-- The points of a plan start where the observed instants do. -/
theorem head?_points (sorted : observed.Pairwise (· < ·)) (usable : ∀ step ∈ baseStep, 0 < step)
    (maxPoints : Nat) : (ofObserved observed baseStep maxPoints).points.head? = observed.head? := by
  rcases grid_or_observed sorted usable maxPoints with
    ⟨_, first, last, _, _, hfirst, _, hlt, _, hpos, hpoints, _⟩ | ⟨_, hpoints, _⟩
  · rw [hpoints, hfirst, head?_grid hpos (le_of_lt hlt)]
  · rw [hpoints]

/-- **A plan has no more points than allowed,** or two where fewer are allowed. Without a step this
takes that there are not two instants, and with one that they are less than a word apart. -/
theorem length_points_le (sorted : observed.Pairwise (· < ·))
    (usable : ∀ step ∈ baseStep, 0 < step) (maxPoints : Nat)
    (single : baseStep = none → observed.length ≤ 1)
    (word : ∀ first ∈ observed.head?, ∀ last ∈ observed.getLast?, last - first < Number.wordMax) :
    (ofObserved observed baseStep maxPoints).points.length ≤ max maxPoints 2 := by
  rcases grid_or_observed sorted usable maxPoints with
    ⟨step, first, last, _, hstep, hfirst, hlast, hlt, hwindow, hpos, hpoints, _⟩ |
    ⟨hshort, hpoints, _⟩
  · -- The multiple was chosen so that the grid fits.
    have hfits : fits step (last - first) (max maxPoints 2 : Nat) _ :=
      fits_factorFor (usable step hstep) (by omega) (word first hfirst last hlast) (by omega)
    rw [fits, ← hwindow, ← length_grid hpos (le_of_lt hlt)] at hfits
    rw [hpoints]
    exact_mod_cast of_decide_eq_true hfits
  · rw [hpoints]
    have hlen : observed.length ≤ 1 := hshort.elim single id
    omega

end Observed

end TrafficBoard.Plan
