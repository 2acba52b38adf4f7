import Mathlib
import TrafficBoard.Series.Builder
import TrafficBoard.Series.Step

namespace TrafficBoard

/-!
# Timelines — the distinct instants in order, and the step between them

* `mem_timeline` and `timeline_ascends` say what a timeline is: the same instants, each once, in
  strictly ascending order;
* `modalStep_pos` and `length_le_one_of_modalStep_eq_none` say that a step found is positive, and
  that one is found as soon as there are two distinct instants.
-/

/-! ### Distinct instants -/

/-- The first of ascending instants is no later than any of them. -/
theorem head_le_of_mem {t u : Int} {rest : List Int} (sorted : (t :: rest).Pairwise (· < ·))
    (h : u ∈ t :: rest) : t ≤ u := by
  rcases List.mem_cons.1 h with rfl | hrest
  · exact le_refl _
  · exact le_of_lt (List.rel_of_pairwise_cons sorted hrest)

/-- Dropping repeats keeps every instant. -/
@[simp] theorem mem_dedup {t : Int} {times : List Int} : t ∈ dedup times ↔ t ∈ times := by
  fun_induction dedup times with
  | case1 => rfl
  | case2 u => rfl
  | case3 u rest ih =>
    rw [ih]
    simp
  | case4 u v rest _ ih =>
    rw [List.mem_cons, ih, ← List.mem_cons]

/-- Dropping the repeats of neighbours makes a sorted list strictly ascending. -/
theorem dedup_ascends {times : List Int} (h : times.Pairwise (· ≤ ·)) :
    (dedup times).Pairwise (· < ·) := by
  fun_induction dedup times with
  | case1 => exact .nil
  | case2 t => exact List.pairwise_singleton _ t
  | case3 u rest ih => exact ih h.of_cons
  | case4 t u rest hne ih =>
    refine List.pairwise_cons.2 ⟨?_, ih h.of_cons⟩
    intro v hv
    rw [mem_dedup] at hv
    -- Everything after `t` is at least `u`, and `t` is below `u`.
    have htu : t ≤ u := List.rel_of_pairwise_cons h (by simp)
    have huv : u ≤ v := by
      rcases List.mem_cons.1 hv with rfl | hrest
      · exact le_refl _
      · exact List.rel_of_pairwise_cons h.of_cons hrest
    omega

/-- A timeline has the instants that it was made from. -/
@[simp] theorem mem_timeline {t : Int} {times : List Int} : t ∈ timeline times ↔ t ∈ times := by
  rw [timeline, mem_dedup, List.mem_mergeSort]

/-- **A timeline ascends strictly.** -/
theorem timeline_ascends (times : List Int) : (timeline times).Pairwise (· < ·) := by
  apply dedup_ascends
  have h := @List.pairwise_mergeSort Int (fun t u => decide (t ≤ u))
    (fun a b c hab hbc => by simp only [decide_eq_true_eq] at *; omega)
    (fun a b => by simp only [Bool.or_eq_true, decide_eq_true_eq]; omega) times
  exact h.imp (fun h => of_decide_eq_true h)

/-- There is a timeline as soon as there are instants. -/
@[simp] theorem timeline_eq_nil_iff {times : List Int} : timeline times = [] ↔ times = [] := by
  simp only [List.eq_nil_iff_forall_not_mem, mem_timeline]

/-- Strictly ascending instants are a timeline already. -/
theorem timeline_of_ascends {times : List Int} (h : times.Pairwise (· < ·)) :
    timeline times = times :=
  (timeline_ascends times).eq_of_mem_iff h fun _ => mem_timeline

/-- There is one distinct instant at most just where all instants are the same. -/
theorem length_timeline_le_one_iff {times : List Int} :
    (timeline times).length ≤ 1 ↔ ∀ t ∈ times, ∀ u ∈ times, t = u := by
  constructor
  · intro h t ht u hu
    obtain ⟨i, hi, rfl⟩ := List.getElem_of_mem (mem_timeline.2 ht)
    obtain ⟨j, hj, rfl⟩ := List.getElem_of_mem (mem_timeline.2 hu)
    congr 1
    omega
  · intro h
    by_contra hlen
    rw [not_le] at hlen
    -- Of two distinct instants the first is below the second.
    have hlt := List.pairwise_iff_getElem.1 (timeline_ascends times) 0 1 (by omega) hlen (by omega)
    have heq := h _ (mem_timeline.1 (List.getElem_mem (by omega : 0 < (timeline times).length))) _
      (mem_timeline.1 (List.getElem_mem hlen))
    omega

/-! ### Steps -/

/-- Distances count only where they are positive. -/
theorem pos_of_mem_gaps {d : Int} {times : List Int} (h : d ∈ gaps times) : 0 < d := by
  fun_induction gaps times with
  | case1 t u rest htu ih =>
    rcases List.mem_cons.1 h with rfl | hrest
    · omega
    · exact ih hrest
  | case2 t u rest _ ih => exact ih h
  | case3 => exact absurd h (by simp)

/-- The most frequent candidate is a candidate. -/
theorem mem_of_mostFrequent {xs candidates : List Int} {x : Int}
    (h : mostFrequent xs candidates = some x) : x ∈ candidates := by
  induction candidates generalizing x with
  | nil => exact absurd h (by simp [mostFrequent])
  | cons y rest ih =>
    rw [mostFrequent] at h
    cases hrest : mostFrequent xs rest with
    | none =>
      rw [hrest, Option.some.injEq] at h
      simp [h]
    | some z =>
      have hz := ih hrest
      simp only [hrest] at h
      split at h
      · simp_all
      · simp_all

/-- There is a most frequent candidate as soon as there are candidates. -/
theorem mostFrequent_eq_none_iff {xs candidates : List Int} :
    mostFrequent xs candidates = none ↔ candidates = [] := by
  cases candidates with
  | nil => simp [mostFrequent]
  | cons y rest =>
    rw [mostFrequent]
    cases mostFrequent xs rest with
    | none => simp
    | some z =>
      simp only [reduceCtorEq, iff_false]
      split <;> simp

/-- A step that is found is one of the distances. -/
theorem mem_gaps_of_modalStep {times : List Int} {step : Int} (h : modalStep times = some step) :
    step ∈ gaps times := by
  have hmem := mem_of_mostFrequent h
  rwa [List.mem_eraseDups] at hmem

/-- A step that is found is positive. -/
theorem modalStep_pos {times : List Int} {step : Int} (h : modalStep times = some step) :
    0 < step :=
  pos_of_mem_gaps (mem_gaps_of_modalStep h)

/-- A step that is given and usable, or else found, is positive. -/
theorem pos_of_usableStep_or_modalStep {given : Option Int} {times : List Int} {step : Int}
    (h : (usableStep given).or (modalStep times) = some step) : 0 < step := by
  rcases Option.or_eq_some_iff.1 h with hgiven | ⟨_, hfound⟩
  · rw [usableStep, Option.filter_eq_some_iff] at hgiven
    exact of_decide_eq_true hgiven.2
  · exact modalStep_pos hfound

/-- No step is found only where there are not two distinct instants. -/
theorem length_le_one_of_modalStep_eq_none {times : List Int} (sorted : times.Pairwise (· < ·))
    (h : modalStep times = none) : times.length ≤ 1 := by
  rw [modalStep, mostFrequent_eq_none_iff] at h
  match times with
  | [] => simp
  | [t] => simp
  | t :: u :: rest =>
    have htu : t < u := List.rel_of_pairwise_cons sorted (by simp)
    rw [gaps, if_pos htu, List.eraseDups_cons] at h
    exact absurd h (by simp)

end TrafficBoard
