import Mathlib
import TrafficBoard.Proofs.Series.Grid

namespace TrafficBoard

/-!
# Spacing — points a window apart, and the step that is read off them

* `Plan.Evenly` says that points run from one instant to another a window apart, the last two of
  them perhaps less; `Plan.evenly_iff` says that the points of a grid, and no others, do so;
* `Plan.mem_grid_iff` lists the points of a grid without their order;
* `getElem?_gaps` reads the distances of ascending instants place by place, `modalStep_le` bounds
  the step that is found, and `modalStep_eq_first` says when the first distance is the most
  frequent one;
* `Plan.Evenly.modalStep_eq` says which step is found in evenly spaced points: their window, or
  where there are only two of them, the whole way from the first to the last.
-/

/-! ### Distances of neighbours -/

/-- The distances of ascending instants are the differences of neighbours, none left out. -/
theorem getElem?_gaps {times : List Int} (sorted : times.Pairwise (· < ·)) (k : Nat) :
    (gaps times)[k]? = times[k]?.bind fun t => times[k + 1]?.map fun u => u - t := by
  induction times generalizing k with
  | nil => simp [gaps]
  | cons t rest ih =>
    cases rest with
    | nil => cases k <;> simp [gaps]
    | cons u rest =>
      have htu : t < u := List.rel_of_pairwise_cons sorted (by simp)
      rw [gaps, if_pos htu]
      cases k with
      | zero => simp
      | succ k => simpa using ih sorted.of_cons k

/-- A step that is found in instants is no longer than the way from the first to the last. -/
theorem modalStep_le {times : List Int} (sorted : times.Pairwise (· < ·)) {first last step : Int}
    (hfirst : times.head? = some first) (hlast : times.getLast? = some last)
    (h : modalStep times = some step) : step ≤ last - first := by
  obtain ⟨k, hk⟩ := List.mem_iff_getElem?.1 (mem_gaps_of_modalStep h)
  rw [getElem?_gaps sorted, Option.bind_eq_some_iff] at hk
  obtain ⟨t, ht, hk⟩ := hk
  obtain ⟨u, hu, rfl⟩ := Option.map_eq_some_iff.1 hk
  have hle : times.Pairwise (· ≤ ·) := sorted.imp fun hlt => le_of_lt hlt
  have htmem := List.mem_of_getElem? ht
  have hne := List.ne_nil_of_mem htmem
  rw [List.head?_eq_some_head hne, Option.some.injEq] at hfirst
  rw [List.getLast?_eq_some_getLast hne, Option.some.injEq] at hlast
  have hfrom := hle.rel_head htmem
  have hto := hle.rel_getLast (List.mem_of_getElem? hu)
  omega

/-- Of the candidates, the first one is the most frequent if no other occurs more often. -/
theorem mostFrequent_cons_eq {xs rest : List Int} {x : Int}
    (h : ∀ y ∈ rest, xs.count y ≤ xs.count x) : mostFrequent xs (x :: rest) = some x := by
  rw [mostFrequent]
  cases hrest : mostFrequent xs rest with
  | none => rfl
  | some y =>
    have hle := h y (mem_of_mostFrequent hrest)
    simp [not_lt.2 hle]

/-- The first distance is the step if no other distance occurs more often. -/
theorem modalStep_eq_first {times : List Int} {x : Int} {rest : List Int}
    (hgaps : gaps times = x :: rest)
    (h : ∀ y ∈ rest, (gaps times).count y ≤ (gaps times).count x) : modalStep times = some x := by
  rw [modalStep, hgaps, List.eraseDups_cons, ← hgaps]
  refine mostFrequent_cons_eq fun y hy => h y ?_
  rw [List.mem_eraseDups] at hy
  exact List.mem_of_mem_filter hy

namespace Plan

variable {first last window : Int} {points : List Int}

/-! ### Evenly spaced points -/

/-- Points that run from `first` to `last` a window apart, the last two of them perhaps less. -/
structure Evenly (first last window : Int) (points : List Int) : Prop where
  ascends : points.Pairwise (· < ·)
  starts : points.head? = some first
  ends : points.getLast? = some last
  spaced : ∀ k t u, points[k]? = some t → points[k + 1]? = some u →
    u - t ≤ window ∧ (k + 2 < points.length → u - t = window)

namespace Evenly

/-- Evenly spaced points from one instant to a later one are two at least. -/
theorem one_lt_length (h : Evenly first last window points) (hlt : first < last) :
    1 < points.length := by
  by_contra hle
  have hstarts := h.starts
  have hends := h.ends
  rw [List.head?_eq_getElem?] at hstarts
  rw [List.getLast?_eq_getElem?, show points.length - 1 = 0 by omega, hstarts] at hends
  simp only [Option.some.injEq] at hends
  omega

/-- All points but the last lie a whole number of windows after the first one. -/
theorem getElem?_eq (h : Evenly first last window points) {k : Nat}
    (hk : k + 1 < points.length) : points[k]? = some (first + k * window) := by
  induction k with
  | zero =>
    have hstarts := h.starts
    rw [List.head?_eq_getElem?] at hstarts
    simpa using hstarts
  | succ k ih =>
    have hprev := ih (by omega)
    have hnext : points[k + 1]? = some points[k + 1] := List.getElem?_eq_getElem (by omega)
    -- The step to this point is a whole one, since another point follows.
    have hstep := (h.spaced k _ _ hprev hnext).2 (by omega)
    rw [hnext, Option.some.injEq]
    push_cast
    linarith

/-- The last point follows the last whole number of windows by one window at most. -/
theorem last_bounds (h : Evenly first last window points) (hlen : 1 < points.length) :
    first + (points.length - 2 : Nat) * window < last ∧
      last ≤ first + (points.length - 2 : Nat) * window + window := by
  have hprev := h.getElem?_eq (show points.length - 2 + 1 < points.length by omega)
  have hends := h.ends
  rw [List.getLast?_eq_getElem?, show points.length - 1 = points.length - 2 + 1 by omega] at hends
  have hle := (h.spaced _ _ _ hprev hends).1
  obtain ⟨hk, hpt⟩ := List.getElem?_eq_some_iff.1 hprev
  obtain ⟨hl, hlt⟩ := List.getElem?_eq_some_iff.1 hends
  have hasc := List.pairwise_iff_getElem.1 h.ascends _ _ hk hl (Nat.lt_succ_self _)
  rw [hpt, hlt] at hasc
  exact ⟨hasc, by linarith⟩

end Evenly

/-- The points of a grid are evenly spaced. -/
theorem evenly_grid (pos : 0 < window) (h : first < last) :
    Evenly first last window (grid first last window) := by
  refine ⟨grid_ascends first last pos, head?_grid pos (le_of_lt h), getLast?_grid pos (le_of_lt h),
    fun k t u ht hu => ?_⟩
  have hq : 0 ≤ (last - first) / window := Int.ediv_nonneg (by omega) (by omega)
  have hlen := length_grid pos (le_of_lt h)
  obtain ⟨hk, -⟩ := List.getElem?_eq_some_iff.1 hu
  rw [gridSize] at hlen
  by_cases hwhole : ((k + 1 : Nat) : Int) ≤ (last - first) / window
  · -- Both points are whole windows after the first.
    rw [getElem?_grid (by omega), Option.some.injEq] at ht
    rw [getElem?_grid hwhole, Option.some.injEq] at hu
    have hstep : u - t = window := by
      rw [← ht, ← hu]
      push_cast
      ring
    exact ⟨le_of_eq hstep, fun _ => hstep⟩
  · -- The second point is the appended one, so that nothing follows it.
    have off : (last - first) % window ≠ 0 := by
      intro hzero
      rw [if_pos hzero] at hlen
      omega
    have hkq : k = ((last - first) / window).toNat := by
      rw [if_neg off] at hlen
      omega
    rw [if_neg off] at hlen
    rw [getElem?_grid (by omega), Option.some.injEq] at ht
    rw [hkq, getElem?_grid_last pos (le_of_lt h) off, Option.some.injEq] at hu
    have hdiv := Int.mul_ediv_add_emod (last - first) window
    have hmod := Int.emod_lt_of_pos (last - first) pos
    refine ⟨?_, fun hmore => by omega⟩
    rw [← ht, ← hu, hkq, Int.toNat_of_nonneg hq]
    linarith [mul_comm window ((last - first) / window)]

/-- **The points of a grid, and no others, are evenly spaced.** -/
theorem evenly_iff (pos : 0 < window) (h : first < last) :
    Evenly first last window points ↔ points = grid first last window := by
  refine ⟨fun heven => ?_, fun heq => heq ▸ evenly_grid pos h⟩
  have hgrid := evenly_grid pos h
  have hlen := heven.one_lt_length h
  have hlenGrid := hgrid.one_lt_length h
  obtain ⟨hlo, hhi⟩ := heven.last_bounds hlen
  obtain ⟨hlo', hhi'⟩ := hgrid.last_bounds hlenGrid
  -- Both lists reach the last instant with the same number of whole windows.
  have hsame : points.length = (grid first last window).length := by
    have h1 : ((points.length - 2 : Nat) : Int) < ((grid first last window).length - 2 : Nat) + 1 :=
      lt_of_mul_lt_mul_right (by linarith) (le_of_lt pos)
    have h2 : (((grid first last window).length - 2 : Nat) : Int) < (points.length - 2 : Nat) + 1 :=
      lt_of_mul_lt_mul_right (by linarith) (le_of_lt pos)
    omega
  apply List.ext_getElem?
  intro k
  rcases lt_trichotomy (k + 1) points.length with hk | hk | hk
  · rw [heven.getElem?_eq hk, hgrid.getElem?_eq (by omega)]
  · have hends := heven.ends
    have hends' := hgrid.ends
    rw [List.getLast?_eq_getElem?, ← hk, Nat.add_sub_cancel] at hends
    rw [List.getLast?_eq_getElem?, ← hsame, ← hk, Nat.add_sub_cancel] at hends'
    rw [hends, hends']
  · rw [List.getElem?_eq_none (by omega), List.getElem?_eq_none (by omega)]

/-- The points of a grid: whole numbers of windows after the first instant, and the last one. -/
theorem mem_grid_iff (pos : 0 < window) (h : first ≤ last) {t : Int} :
    t ∈ grid first last window ↔ (∃ k : Nat, t = first + k * window ∧ t ≤ last) ∨ t = last := by
  have hend : last ∈ grid first last window := List.mem_of_getLast? (getLast?_grid pos h)
  constructor
  · intro ht
    rw [grid] at ht
    have hregular : ∀ t ∈ (List.range ((last - first) / window + 1).toNat).map
        (fun (k : Nat) => first + (k : Int) * window),
        ∃ k : Nat, t = first + k * window ∧ t ≤ last := by
      intro t ht
      obtain ⟨k, hk, rfl⟩ := List.mem_map.1 ht
      rw [List.mem_range] at hk
      refine ⟨k, rfl, ?_⟩
      have hle : (k : Int) * window ≤ last - first :=
        (Int.le_ediv_iff_mul_le pos).1 (by omega)
      omega
    split at ht
    · exact Or.inl (hregular t ht)
    · rcases List.mem_append.1 ht with hmem | hlast
      · exact Or.inl (hregular t hmem)
      · exact Or.inr (List.mem_singleton.1 hlast)
  · rintro (⟨k, rfl, hle⟩ | rfl)
    · have hk : (k : Int) ≤ (last - first) / window := (Int.le_ediv_iff_mul_le pos).2 (by omega)
      exact List.mem_of_getElem? (getElem?_grid hk)
    · exact hend

/-! ### The step of evenly spaced points -/

namespace Evenly

/-- The distances of evenly spaced points: whole windows, and the way to the last point. -/
theorem gaps_eq (h : Evenly first last window points) (hlen : 1 < points.length) :
    gaps points = List.replicate (points.length - 2) window ++
      [last - (first + (points.length - 2 : Nat) * window)] := by
  apply List.ext_getElem?
  intro k
  rw [getElem?_gaps h.ascends]
  rcases lt_trichotomy (k + 2) points.length with hk | hk | hk
  · rw [h.getElem?_eq (by omega), h.getElem?_eq (by omega),
      List.getElem?_append_left (by simpa using by omega),
      List.getElem?_replicate, if_pos (by omega)]
    simp
    ring
  · have hends := h.ends
    rw [List.getLast?_eq_getElem?, show points.length - 1 = k + 1 by omega] at hends
    rw [h.getElem?_eq (by omega), hends, List.getElem?_append_right (by simp; omega)]
    simp [← hk]
  · have hshort : (List.replicate (points.length - 2) window ++
        [last - (first + (points.length - 2 : Nat) * window)]).length ≤ k := by
      rw [List.length_append, List.length_replicate, List.length_singleton]
      omega
    rw [List.getElem?_eq_none (show points.length ≤ k + 1 by omega), List.getElem?_eq_none hshort]
    cases points[k]? <;> rfl

/-- **The step that is found in evenly spaced points** is their window, or, where there are only
two points, the way from the one to the other. -/
theorem modalStep_eq (h : Evenly first last window points) (hlen : 1 < points.length) :
    modalStep points = some (if points.length = 2 then last - first else window) := by
  have hgaps := h.gaps_eq hlen
  split
  · rename_i htwo
    have hone : gaps points = [last - first] := by
      rw [hgaps, htwo]
      simp
    exact modalStep_eq_first hone (by simp)
  · rename_i hmore
    obtain ⟨n, hn⟩ : ∃ n, points.length - 2 = n + 1 := ⟨points.length - 3, by omega⟩
    rw [hn, List.replicate_succ, List.cons_append] at hgaps
    refine modalStep_eq_first hgaps fun y hy => ?_
    -- A distance other than the window occurs once at most, at the end.
    rcases List.mem_append.1 hy with hmem | hend
    · rw [List.eq_of_mem_replicate hmem]
    · rw [List.mem_singleton] at hend
      rw [hgaps, hend]
      generalize last - (first + (n + 1 : Nat) * window) = rest
      by_cases hsame : rest = window
      · rw [hsame]
      · have hne : window ≠ rest := Ne.symm hsame
        simp [List.count_append, List.count_replicate, hsame, hne]

end Evenly

end Plan

end TrafficBoard
