import Mathlib
import TrafficBoard.Proofs.Series.Exact
import TrafficBoard.Proofs.Series.Grid

namespace TrafficBoard.Plan

/-!
# Windows — every instant belongs to one point of a grid

* `inWindow` says that an instant lies in the window from a point up to the next one, `Owns` that a
  place of a grid owns an instant;
* `slotOf_eq_some_iff` says that the place which a plan computes, by division or by search, is the
  one that owns the instant;
* `windowTotals` adds up the samples of each window by definition, and `zip_accumulate` says that a
  plan does the same;
* `sum_windowTotals` says that windows lose nothing: with exact counts they add up to all samples.
-/

/-- Whether an instant lies in the window from a point up to the next one. After the last point the
window has no end. -/
def inWindow (t : Int) (next : Option Int) (time : Int) : Bool :=
  t ≤ time && next.all fun u => time < u

/-- The place `k` of a grid owns an instant: the instant lies in the window of its point. -/
def Owns (points : List Int) (k : Nat) (time : Int) : Prop :=
  ∃ t, points[k]? = some t ∧ inWindow t points[k + 1]? time

variable {points : List Int} {time : Int}

theorem inWindow_none (t : Int) : inWindow t none time = true ↔ t ≤ time := by
  simp [inWindow]

theorem inWindow_some (t u : Int) : inWindow t (some u) time = true ↔ t ≤ time ∧ time < u := by
  simp [inWindow]

/-- The window of a point starts at the point. -/
theorem le_of_inWindow {t : Int} {next : Option Int} (h : inWindow t next time) : t ≤ time := by
  rw [inWindow, Bool.and_eq_true] at h
  exact of_decide_eq_true h.1

/-! ### One owner -/

/-- The points of an ascending grid are in the order of their places. -/
theorem getElem_le_getElem (sorted : points.Pairwise (· < ·)) {j k : Nat} (hjk : j ≤ k)
    (hk : k < points.length) : points[j] ≤ points[k] := by
  rcases eq_or_lt_of_le hjk with rfl | hlt
  · exact le_refl _
  · exact le_of_lt (List.pairwise_iff_getElem.1 sorted _ _ _ hk hlt)

/-- **No two places of an ascending grid own the same instant.** -/
theorem Owns.unique (sorted : points.Pairwise (· < ·)) {j k : Nat} (hj : Owns points j time)
    (hk : Owns points k time) : j = k := by
  -- Of two places, the window of the earlier one ends before the point of the later one.
  have not_lt : ∀ {j k : Nat}, Owns points j time → Owns points k time → ¬ j < k := by
    rintro j k ⟨t, _, hwin⟩ ⟨u, hu, huwin⟩ hlt
    obtain ⟨hkl, rfl⟩ := List.getElem?_eq_some_iff.1 hu
    have hnext : points[j + 1]? = some points[j + 1] := List.getElem?_eq_getElem (by omega)
    rw [hnext, inWindow_some] at hwin
    have hle : points[j + 1] ≤ points[k] := getElem_le_getElem sorted hlt hkl
    have htime : points[k] ≤ time := le_of_inWindow huwin
    omega
  have h1 := not_lt hj hk
  have h2 := not_lt hk hj
  omega

/-- The last point not after an instant owns it. -/
theorem owns_takeWhile {t : Int} {rest : List Int} (sorted : (t :: rest).Pairwise (· < ·))
    (h : t ≤ time) :
    Owns (t :: rest) (((t :: rest).takeWhile fun u => u ≤ time).length - 1) time := by
  induction rest generalizing t with
  | nil =>
    refine ⟨t, ?_, ?_⟩
    · simp [h]
    · rw [List.getElem?_eq_none (by simp [h]), inWindow_none]
      exact h
  | cons u rest ih =>
    by_cases hu : u ≤ time
    · obtain ⟨v, hv, hwin⟩ := ih sorted.of_cons hu
      -- The owner lies in the rest, one place further on.
      have hplace : ((t :: u :: rest).takeWhile fun u => u ≤ time).length - 1 =
          ((u :: rest).takeWhile fun u => u ≤ time).length - 1 + 1 := by
        simp [h, hu]
      rw [hplace]
      exact ⟨v, by rw [List.getElem?_cons_succ, hv], by rw [List.getElem?_cons_succ]; exact hwin⟩
    · refine ⟨t, ?_, ?_⟩
      · simp [h, hu]
      · rw [show ((t :: u :: rest).takeWhile fun u => u ≤ time).length - 1 = 0 by simp [h, hu],
          List.getElem?_cons_succ, List.getElem?_cons_zero, inWindow_some]
        omega

/-- Division by the window finds the owner between the first sample and the last. -/
theorem owns_ediv {first last window : Int} (pos : 0 < window) (hfirst : first ≤ time)
    (hlast : time < last) : Owns (grid first last window) ((time - first) / window).toNat time := by
  have hk : 0 ≤ (time - first) / window := Int.ediv_nonneg (by omega) (by omega)
  have hle : (time - first) / window ≤ (last - first) / window :=
    Int.ediv_le_ediv pos (by omega)
  have hlow : (time - first) / window * window ≤ time - first := Int.ediv_mul_le _ (by omega)
  have hhigh : time - first < ((time - first) / window + 1) * window :=
    Int.lt_ediv_add_one_mul_self _ pos
  refine ⟨first + (time - first) / window * window, ?_, ?_⟩
  · rw [getElem?_grid (by omega), Int.toNat_of_nonneg hk]
  · rcases eq_or_lt_of_le hle with heq | hlt
    · -- The last whole window ends at the appended point, or there is none.
      rw [heq]
      by_cases off : (last - first) % window = 0
      · have hdiv := Int.mul_ediv_add_emod (last - first) window
        rw [off, add_zero, mul_comm] at hdiv
        rw [heq] at hhigh hlow
        omega
      · rw [getElem?_grid_last pos (by omega) off, inWindow_some]
        rw [heq] at hlow
        omega
    · rw [show ((time - first) / window).toNat + 1 = ((time - first) / window + 1).toNat by omega,
        getElem?_grid (by omega), Int.toNat_of_nonneg (by omega), inWindow_some]
      omega

/-- The last point owns everything after it. -/
theorem owns_last {last : Int} (hlast : points.getLast? = some last) (h : last ≤ time) :
    Owns points (points.length - 1) time := by
  rw [List.getLast?_eq_getElem?] at hlast
  obtain ⟨hlen, _⟩ := List.getElem?_eq_some_iff.1 hlast
  exact ⟨last, hlast, by rw [List.getElem?_eq_none (by omega), inWindow_none]; exact h⟩

/-! ### The place of an instant -/

/-- An instant before the first point has no place. -/
theorem slotOf_of_lt_head {p : Plan} {first : Int} (hfirst : p.points.head? = some first)
    (h : time < first) : p.slotOf time = none := by
  rw [slotOf, hfirst]
  cases p.points.getLast? with
  | none => rfl
  | some last => exact if_pos h

/-- An instant has no place only before the first point, where the window is not zero. -/
theorem slotOf_eq_none_iff {p : Plan} (hwindow : p.window ≠ some 0) :
    p.slotOf time = none ↔ ∀ t ∈ p.points.head?, time < t := by
  rw [slotOf]
  cases hhead : p.points.head? with
  | none => simp
  | some first =>
    cases hlast : p.points.getLast? with
    | none =>
      rw [List.getLast?_eq_none_iff] at hlast
      simp [hlast] at hhead
    | some last =>
      by_cases h : time < first
      · simp [h]
      · cases hp : p.window with
        | none => simp [h]
        | some window =>
          have hne : window ≠ 0 := by
            rintro rfl
            exact hwindow hp
          by_cases hl : last ≤ time <;> simp [h, hl, hne]

section Observed

variable {observed : List Int} {baseStep : Option Int} {maxPoints : Nat}

/-- A usable step, or none, makes no window of zero. -/
theorem window_ne_zero (sorted : observed.Pairwise (· < ·)) (usable : ∀ step ∈ baseStep, 0 < step) :
    (ofObserved observed baseStep maxPoints).window ≠ some 0 := by
  rcases grid_or_observed sorted usable maxPoints with
    ⟨_, first, last, window, _, _, _, _, _, pos, _, hwindow⟩ | ⟨_, _, hwindow⟩
  · rw [hwindow, Ne, Option.some.injEq]
    omega
  · rw [hwindow]
    exact Option.some_ne_none 0 |>.symm

/-- The place of an instant owns it, whether it was found by division or by search. -/
theorem owns_of_slotOf (sorted : observed.Pairwise (· < ·)) (usable : ∀ step ∈ baseStep, 0 < step)
    {k : Nat} (h : (ofObserved observed baseStep maxPoints).slotOf time = some k) :
    Owns (ofObserved observed baseStep maxPoints).points k time := by
  rcases grid_or_observed sorted usable maxPoints with
    ⟨_, first, last, window, _, _, _, hlt, _, pos, hpoints, hwindow⟩ | ⟨_, hpoints, hwindow⟩
  · have hhead := head?_grid pos (le_of_lt hlt)
    have hlast := getLast?_grid pos (le_of_lt hlt)
    have hsize := length_grid pos (le_of_lt hlt)
    rw [slotOf, hpoints, hhead, hlast, size, hpoints, hwindow] at h
    rw [hpoints]
    by_cases hbefore : time < first
    · simp [hbefore] at h
    · by_cases hafter : last ≤ time
      · simp only [hbefore, if_false, hafter, if_true, Option.some.injEq] at h
        rw [← h]
        exact owns_last hlast hafter
      · -- The quotient is a place of the grid, so nothing is cut off.
        have hk : 0 ≤ (time - first) / window := Int.ediv_nonneg (by omega) (by omega)
        have hle : (time - first) / window ≤ (last - first) / window :=
          Int.ediv_le_ediv pos (by omega)
        rw [gridSize] at hsize
        have hplace : min ((time - first) / window).toNat
            ((grid first last window).length - 1) = ((time - first) / window).toNat := by
          split at hsize <;> omega
        simp only [hbefore, if_false, hafter,
          Int.tdiv_eq_ediv_of_nonneg (by omega : 0 ≤ time - first), not_lt.2 hk, hplace,
          ne_of_gt pos, Option.some.injEq] at h
        rw [← h]
        exact owns_ediv pos (by omega) (by omega)
  · rw [slotOf, hpoints, hwindow] at h
    rw [hpoints]
    cases observed with
    | nil => simp at h
    | cons t rest =>
      rw [List.head?_cons, List.getLast?_eq_some_getLast (List.cons_ne_nil t rest)] at h
      by_cases hbefore : time < t
      · simp [hbefore] at h
      · simp only [hbefore, if_false, Option.some.injEq] at h
        rw [← h]
        exact owns_takeWhile sorted (by omega)

/-- **The place of an instant is the one that owns it.** -/
theorem slotOf_eq_some_iff (sorted : observed.Pairwise (· < ·))
    (usable : ∀ step ∈ baseStep, 0 < step) {k : Nat} :
    (ofObserved observed baseStep maxPoints).slotOf time = some k ↔
      Owns (ofObserved observed baseStep maxPoints).points k time := by
  refine ⟨owns_of_slotOf sorted usable, fun howns => ?_⟩
  have hasc := points_ascend sorted usable maxPoints
  cases hslot : (ofObserved observed baseStep maxPoints).slotOf time with
  | some j => rw [(owns_of_slotOf sorted usable hslot).unique hasc howns]
  | none =>
    -- An instant before the first point lies before every point.
    rw [slotOf_eq_none_iff (window_ne_zero sorted usable), List.head?_eq_getElem?] at hslot
    obtain ⟨t, ht, hwin⟩ := howns
    obtain ⟨hk, rfl⟩ := List.getElem?_eq_some_iff.1 ht
    have hfirst := hslot _ (List.getElem?_eq_getElem (by omega))
    have hle := getElem_le_getElem hasc (Nat.zero_le k) hk
    have htime := le_of_inWindow hwin
    omega

end Observed

/-! ### The sums of the windows -/

section Sums

variable {α : Type} [Count α]

/-- The points of a grid with the totals of the samples in their windows. -/
def windowTotals (samples : List (Int × α)) : List Int → List (Int × α)
  | [] => []
  | t :: rest =>
    (t, Count.total ((samples.filter fun s => inWindow t rest.head? s.1).map Prod.snd)) ::
      windowTotals samples rest

/-- The totals of the windows, place by place. -/
theorem getElem?_windowTotals (samples : List (Int × α)) (points : List Int) (k : Nat) :
    (windowTotals samples points)[k]? = points[k]?.map fun t =>
      (t, Count.total ((samples.filter fun s => inWindow t points[k + 1]? s.1).map Prod.snd)) := by
  induction points generalizing k with
  | nil => rfl
  | cons t rest ih =>
    cases k with
    | zero =>
      rw [windowTotals, List.head?_eq_getElem?]
      rfl
    | succ k =>
      rw [windowTotals, List.getElem?_cons_succ, ih]
      rfl

/-- Adding samples to values one by one adds to each value the samples of its place. -/
theorem getElem?_foldl_addSample (p : Plan) (samples : List (Int × α)) (values : List α) (k : Nat) :
    (samples.foldl p.addSample values)[k]? = values[k]?.map fun v =>
      ((samples.filter fun s => p.slotOf s.1 = some k).map Prod.snd).foldl Count.add v := by
  induction samples generalizing values with
  | nil => simp
  | cons sample rest ih =>
    rw [List.foldl_cons, ih, addSample]
    cases hslot : p.slotOf sample.1 with
    | none => simp [hslot]
    | some slot =>
      by_cases hk : slot = k
      · subst hk
        simp [hslot, Function.comp_def]
      · simp [hslot, hk]

/-- **A plan adds up the samples of each window.** -/
theorem zip_accumulate {observed : List Int} {baseStep : Option Int}
    (sorted : observed.Pairwise (· < ·)) (usable : ∀ step ∈ baseStep, 0 < step) (maxPoints : Nat)
    (samples : List (Int × α)) :
    (ofObserved observed baseStep maxPoints).points.zip
        ((ofObserved observed baseStep maxPoints).accumulate samples) =
      windowTotals samples (ofObserved observed baseStep maxPoints).points := by
  apply List.ext_getElem?
  intro k
  rw [getElem?_windowTotals, List.zip, List.getElem?_zipWith', accumulate, getElem?_foldl_addSample]
  cases hk : (ofObserved observed baseStep maxPoints).points[k]? with
  | none => rfl
  | some t =>
    obtain ⟨hlen, _⟩ := List.getElem?_eq_some_iff.1 hk
    have hsame : ∀ s : Int × α,
        decide ((ofObserved observed baseStep maxPoints).slotOf s.1 = some k) =
          inWindow t (ofObserved observed baseStep maxPoints).points[k + 1]? s.1 := by
      intro s
      rw [Bool.eq_iff_iff, decide_eq_true_iff, slotOf_eq_some_iff sorted usable, Owns, hk]
      simp
    simp only [hsame, List.getElem?_replicate, size, hlen, if_true, Option.map_some]
    rfl

end Sums

/-! ### Nothing is lost -/

section Mass

variable {α : Type} [Count α] [AddCommGroup α] [LinearOrder α] [Count.Exact α]

omit [Count α] [LinearOrder α] [Count.Exact α] in
/-- Splitting a list of samples by a test splits their sum. -/
theorem sum_filter_add_sum_filter (p : Int × α → Bool) (samples : List (Int × α)) :
    ((samples.filter p).map Prod.snd).sum + ((samples.filter fun s => !p s).map Prod.snd).sum =
      (samples.map Prod.snd).sum := by
  have hperm := (List.filter_append_perm p samples).map Prod.snd
  rw [← hperm.sum_eq, List.map_append, List.sum_append]

/-- **Windows lose nothing.** The totals of the windows of an ascending grid add up to the samples
from its first point on. -/
theorem sum_windowTotals (samples : List (Int × α)) {t : Int} {rest : List Int}
    (sorted : (t :: rest).Pairwise (· < ·)) :
    ((windowTotals samples (t :: rest)).map Prod.snd).sum =
      ((samples.filter fun s => t ≤ s.1).map Prod.snd).sum := by
  induction rest generalizing t with
  | nil =>
    simp [windowTotals, inWindow, Count.total_eq_sum]
  | cons u rest ih =>
    have htu : t < u := List.rel_of_pairwise_cons sorted (by simp)
    rw [windowTotals, List.map_cons, List.sum_cons, ih sorted.of_cons, Count.total_eq_sum,
      ← sum_filter_add_sum_filter (fun s => s.1 < u) (samples.filter fun s => t ≤ s.1)]
    -- The first window ends where the rest of the grid begins.
    have hfirst : (samples.filter fun s => inWindow t (u :: rest).head? s.1) =
        (samples.filter fun s => t ≤ s.1).filter fun s => s.1 < u := by
      rw [List.filter_filter]
      refine List.filter_congr fun s _ => ?_
      simp [inWindow, Bool.and_comm]
    have hrest : (samples.filter fun s => u ≤ s.1) =
        (samples.filter fun s => t ≤ s.1).filter fun s => !decide (s.1 < u) := by
      rw [List.filter_filter]
      refine List.filter_congr fun s _ => ?_
      rw [Bool.eq_iff_iff]
      simp
      omega
    rw [hfirst, hrest]

/-- **The windows of a plan lose nothing,** if it was made for the instants of the samples. -/
theorem sum_windowTotals_points {observed : List Int} {baseStep : Option Int}
    (sorted : observed.Pairwise (· < ·)) (usable : ∀ step ∈ baseStep, 0 < step) (maxPoints : Nat)
    {samples : List (Int × α)} (h : ∀ s ∈ samples, s.1 ∈ observed) :
    ((windowTotals samples (ofObserved observed baseStep maxPoints).points).map Prod.snd).sum =
      (samples.map Prod.snd).sum := by
  have hhead := head?_points sorted usable maxPoints
  have hasc := points_ascend sorted usable maxPoints
  cases observed with
  | nil =>
    have hnone : samples = [] := List.eq_nil_iff_forall_not_mem.2 fun s hs => by simpa using h s hs
    have hempty : (ofObserved [] baseStep maxPoints).points = [] := List.head?_eq_none_iff.1 hhead
    rw [hnone, hempty]
    rfl
  | cons t rest =>
    obtain ⟨points, hpoints⟩ := List.head?_eq_some_iff.1 hhead
    rw [hpoints] at hasc ⊢
    -- No sample lies before the first point.
    have hall : (samples.filter fun s => t ≤ s.1) = samples := by
      rw [List.filter_eq_self]
      intro s hs
      exact decide_eq_true (head_le_of_mem sorted (h s hs))
    rw [sum_windowTotals samples hasc, hall]

end Mass

end TrafficBoard.Plan
