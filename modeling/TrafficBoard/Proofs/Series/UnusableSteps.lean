import Mathlib
import TrafficBoard.Proofs.Series.Windows

namespace TrafficBoard.Plan

/-!
# Unusable steps — plans that lose the owner of an instant

* `FindsOwners` says that a plan finds a place for every instant from its first point on, and that
  it is the one that owns the instant;
* `slotOf_of_neg_step` says which place a plan with a negative step finds;
* `findsOwners_iff` says which plans find the owners.

A step that is not positive makes no grid: the points are the observed instants, each with a window
of its own. A plan keeps the step all the same, and its places are found by dividing by it. Nothing
can be divided by a step of zero, so the instants up to the last point are left without a place.
-/

/-- A plan finds no place just for the instants before its first point, and for any other instant
the place that owns it. -/
def FindsOwners (p : Plan) : Prop :=
  ∀ time, (p.slotOf time = none ↔ ∀ t ∈ p.points.head?, time < t) ∧
    ∀ k, p.slotOf time = some k ↔ Owns p.points k time

variable {observed : List Int} {baseStep : Option Int} {maxPoints : Nat} {time : Int}

/-! ### Plans that find the owners -/

/-- A usable step, or none, makes a plan that finds the owners. -/
theorem findsOwners_of_usable (sorted : observed.Pairwise (· < ·))
    (usable : ∀ step ∈ baseStep, 0 < step) : FindsOwners (ofObserved observed baseStep maxPoints) :=
  fun _ => ⟨slotOf_eq_none_iff (window_ne_zero sorted usable),
    fun _ => slotOf_eq_some_iff sorted usable⟩

/-- Plans with the same points and places find the same. -/
theorem FindsOwners.congr {p q : Plan} (h : FindsOwners p) (hpoints : q.points = p.points)
    (hslot : ∀ time, q.slotOf time = p.slotOf time) : FindsOwners q := by
  intro time
  rw [hpoints, hslot]
  exact h time

/-- The plan whose points are the instants themselves. -/
def ofPoints (baseStep : Option Int) (points : List Int) : Plan where
  baseStep := baseStep
  factor := 1
  points := points

/-- One instant at most makes no grid. -/
theorem ofObserved_of_length_le_one (h : observed.length ≤ 1) :
    ofObserved observed baseStep maxPoints = ofPoints baseStep observed := by
  refine ofObserved_of_not_step fun step _ first hfirst last hlast hboth => ?_
  match observed, h with
  | [], _ => simp at hfirst
  | [t], _ =>
    simp only [List.head?_cons, List.getLast?_singleton, Option.mem_def, Option.some.injEq] at *
    omega

/-- With one instant at most the step makes no difference, so the owners are found. -/
theorem findsOwners_of_length_le_one (sorted : observed.Pairwise (· < ·))
    (h : observed.length ≤ 1) : FindsOwners (ofObserved observed baseStep maxPoints) := by
  have hnone : FindsOwners (ofObserved observed none maxPoints) :=
    findsOwners_of_usable sorted (by simp)
  have hwindow : ∀ step : Option Int, (ofPoints step observed).window = none :=
    fun _ => if_neg (not_lt.2 h)
  rw [ofObserved_of_length_le_one h] at hnone ⊢
  refine hnone.congr rfl fun time => ?_
  simp only [slotOf, hwindow]
  rfl

/-! ### The places of a negative step -/

section Negative

variable {step first second last : Int} {rest : List Int}

/-- With a negative step the points are the observed instants. -/
theorem ofObserved_of_neg_step (hs : step < 0) :
    ofObserved observed (some step) maxPoints = ofPoints (some step) observed := by
  refine ofObserved_of_not_step fun s hstep _ _ _ _ hboth => ?_
  rw [Option.mem_def, Option.some.injEq] at hstep
  omega

/-- A distance divided by a negative step is zero below its size, and negative from there on. -/
theorem tdiv_of_neg_step (hs : step < 0) {distance : Int} (h : 0 ≤ distance) :
    (distance < -step ∧ distance.tdiv step = 0) ∨ (-step ≤ distance ∧ distance.tdiv step < 0) := by
  have hquotient : distance.tdiv step = -(distance / -step) := by
    rw [← neg_neg step, Int.tdiv_neg, neg_neg, Int.tdiv_eq_ediv_of_nonneg h]
  rcases lt_or_ge distance (-step) with hlt | hge
  · refine Or.inl ⟨hlt, ?_⟩
    rw [hquotient, Int.ediv_eq_zero_of_lt h hlt, neg_zero]
  · have hpos : 1 ≤ distance / -step := by
      rw [Int.le_ediv_iff_mul_le (by omega)]
      omega
    exact Or.inr ⟨hge, by omega⟩

/-- **The place of an instant with a negative step.** The first point takes the instants up to the
size of the step, and the last one all the others. -/
theorem slotOf_of_neg_step (hs : step < 0)
    (hlast : (first :: second :: rest).getLast? = some last) (h : first ≤ time) :
    (ofObserved (first :: second :: rest) (some step) maxPoints).slotOf time =
      some (if time < last ∧ time - first < -step then 0 else rest.length + 1) := by
  have hwindow : (ofPoints (some step) (first :: second :: rest)).window = some step := by
    rw [window, ofPoints, if_pos (by simp), Option.map_some, windowOf, mul_one, Number.wordMax,
      min_eq_left (by omega)]
  rw [ofObserved_of_neg_step hs, slotOf, hwindow]
  simp only [ofPoints, size, List.head?_cons, hlast, not_lt.2 h, if_false, List.length_cons,
    hs.ne]
  by_cases hafter : last ≤ time
  · simp [hafter, not_lt.2 hafter]
  · rcases tdiv_of_neg_step hs (show 0 ≤ time - first by omega) with ⟨hnear, hzero⟩ | ⟨hfar, hneg⟩
    · simp [hafter, hnear, hzero, not_le.1 hafter]
    · -- A negative quotient is no place, and is taken for the last one.
      simp [hafter, not_lt.2 hfar, hneg]

/-- Two instants no further apart than the size of a negative step have the places that they have
without a step. -/
theorem findsOwners_of_two (hs : step < 0) (h : first < second) (hnear : second - first ≤ -step) :
    FindsOwners (ofObserved [first, second] (some step) maxPoints) := by
  have hnone : FindsOwners (ofObserved [first, second] none maxPoints) :=
    findsOwners_of_usable (by simpa using h) (by simp)
  refine hnone.congr ?_ fun time => ?_
  · rw [ofObserved_of_neg_step hs]
    rfl
  · rcases lt_or_ge time first with hbefore | hfrom
    · have hhead :
          (ofObserved [first, second] (some step) maxPoints).points.head? = some first := by
        rw [ofObserved_of_neg_step hs]
        rfl
      rw [slotOf_of_lt_head hhead hbefore, slotOf_of_lt_head rfl hbefore]
    · rw [slotOf_of_neg_step hs rfl hfrom]
      rcases lt_or_ge time second with hlt | hge
      · have hboth : time < second ∧ time - first < -step := ⟨hlt, by omega⟩
        simp [ofObserved, slotOf, window, hboth, hfrom, not_lt.2 hfrom]
      · have hnot : ¬ (time < second ∧ time - first < -step) := fun hboth => by omega
        simp [ofObserved, slotOf, window, hnot, hfrom, not_lt.2 hfrom, hge]

/-- Where the owners are found with a negative step, there are no more than two instants, and they
are no further apart than the size of the step. -/
theorem two_of_findsOwners (hs : step < 0) (sorted : (first :: second :: rest).Pairwise (· < ·))
    (h : FindsOwners (ofObserved (first :: second :: rest) (some step) maxPoints)) :
    rest = [] ∧ second - first ≤ -step := by
  have hlt : first < second := List.rel_of_pairwise_cons sorted (by simp)
  cases rest with
  | nil =>
    refine ⟨rfl, ?_⟩
    -- The last instant before the second point still belongs to the first.
    have howns : Owns (ofObserved [first, second] (some step) maxPoints).points 0 (second - 1) := by
      rw [ofObserved_of_neg_step hs]
      exact ⟨first, rfl, (inWindow_some _ _).2 (by omega)⟩
    have hlast : [first, second].getLast? = some second := rfl
    rw [← (h (second - 1)).2 0, slotOf_of_neg_step hs hlast (by omega)] at howns
    by_contra hfar
    have hnot : ¬ (second - 1 < second ∧ second - 1 - first < -step) := fun hboth =>
      hfar (by omega)
    rw [if_neg hnot] at howns
    simp at howns
  | cons third more =>
    have hnext : second < third := List.rel_of_pairwise_cons sorted.of_cons (by simp)
    have hlast := List.getLast?_eq_some_getLast (List.cons_ne_nil first (second :: third :: more))
    -- The second point belongs to itself, and its place is neither the first nor the last.
    have howns : Owns (ofObserved (first :: second :: third :: more) (some step) maxPoints).points 1
        second := by
      rw [ofObserved_of_neg_step hs]
      exact ⟨second, rfl, (inWindow_some _ _).2 ⟨le_refl _, hnext⟩⟩
    rw [← (h second).2 1, slotOf_of_neg_step hs hlast (by omega), Option.some.injEq,
      List.length_cons] at howns
    split at howns
    all_goals omega

end Negative

/-- With a step of zero the first of several instants is left without a place. -/
theorem not_findsOwners_of_zero_step {first second : Int} {rest : List Int}
    (sorted : (first :: second :: rest).Pairwise (· < ·)) :
    ¬ FindsOwners (ofObserved (first :: second :: rest) (some 0) maxPoints) := by
  intro h
  have hpoints : ofObserved (first :: second :: rest) (some 0) maxPoints =
      ofPoints (some 0) (first :: second :: rest) :=
    ofObserved_of_not_step fun s hs _ _ _ _ hboth => by
      rw [Option.mem_def, Option.some.injEq] at hs
      omega
  have hlast := List.getLast?_eq_some_getLast (List.cons_ne_nil first (second :: rest))
  have hlt : first < (first :: second :: rest).getLast (List.cons_ne_nil _ _) :=
    List.rel_of_pairwise_cons sorted (by
      rw [List.getLast_cons (List.cons_ne_nil _ _)]
      exact List.getLast_mem _)
  have hwindow : (ofPoints (some 0) (first :: second :: rest)).window = some 0 := by
    rw [window, ofPoints, if_pos (by simp), Option.map_some, windowOf, zero_mul, Number.wordMax,
      min_eq_left (by omega)]
  have hnone : (ofPoints (some 0) (first :: second :: rest)).slotOf first = none := by
    rw [slotOf, hwindow]
    simp only [ofPoints, List.head?_cons, hlast, lt_irrefl, not_le.2 hlt, if_false, if_true]
  rw [hpoints] at h
  exact lt_irrefl first ((h first).1.1 hnone first rfl)

/-! ### Which plans find the owners -/

/-- **Which plans find the owners.** Those with a usable step or none, those of one instant, and
those of two instants that are no further apart than the size of the step. With any other step that
is not positive there is an instant before the last point whose place does not own it. -/
theorem findsOwners_iff (sorted : observed.Pairwise (· < ·)) :
    FindsOwners (ofObserved observed baseStep maxPoints) ↔
      (∀ step ∈ baseStep, 0 < step) ∨ observed.length ≤ 1 ∨
        ∃ first second, observed = [first, second] ∧
          ∀ step ∈ baseStep, second - first ≤ -step := by
  by_cases usable : ∀ step ∈ baseStep, 0 < step
  · exact ⟨fun _ => Or.inl usable, fun _ => findsOwners_of_usable sorted usable⟩
  · obtain ⟨step, rfl, hs⟩ : ∃ step, baseStep = some step ∧ step ≤ 0 := by
      push Not at usable
      exact usable
    constructor
    · intro h
      match observed, sorted, h with
      | [], _, _ => exact Or.inr (Or.inl (by simp))
      | [t], _, _ => exact Or.inr (Or.inl (by simp))
      | first :: second :: rest, sorted, h =>
        rcases eq_or_lt_of_le hs with rfl | hneg
        · exact absurd h (not_findsOwners_of_zero_step sorted)
        · obtain ⟨rfl, hnear⟩ := two_of_findsOwners hneg sorted h
          exact Or.inr (Or.inr ⟨first, second, rfl, by simpa using hnear⟩)
    · rintro (husable | hlen | ⟨first, second, rfl, hnear⟩)
      · exact absurd husable usable
      · exact findsOwners_of_length_le_one sorted hlen
      · have hlt : first < second := List.rel_of_pairwise_cons sorted (by simp)
        have hsize := hnear step rfl
        exact findsOwners_of_two (by omega) hlt hsize

/-- Two instants a minute apart have their owners found with a step of minus one minute. -/
theorem findsOwners_iff_two_instants :
    ([0, 60] : List Int).Pairwise (· < ·) ∧ FindsOwners (ofObserved [0, 60] (some (-60)) 10) := by
  have sorted : ([0, 60] : List Int).Pairwise (· < ·) := by decide
  exact ⟨sorted, (findsOwners_iff sorted).2 (Or.inr (Or.inr ⟨0, 60, rfl, by decide⟩))⟩

/-- With a third instant the second one is lost: it lies in the window of its own point, in place 1,
and the place that is found is that of the last point. -/
theorem not_findsOwners_of_three_instants :
    let p := ofObserved [0, 60, 120] (some (-60)) 10
    p.points = [0, 60, 120] ∧ p.slotOf 60 = some 2 ∧ Owns p.points 1 60 ∧ ¬ Owns p.points 2 60 ∧
      ¬ FindsOwners p := by
  intro p
  have hpoints : p.points = [0, 60, 120] := rfl
  have hslot : p.slotOf 60 = some 2 := by decide
  have howner : Owns p.points 1 60 := ⟨60, rfl, by decide⟩
  have hother : ¬ Owns p.points 2 60 := by
    rintro ⟨t, ht, hwin⟩
    rw [hpoints] at ht
    simp only [List.getElem?_cons_succ, List.getElem?_cons_zero, Option.some.injEq] at ht
    subst ht
    simp [inWindow] at hwin
  exact ⟨hpoints, hslot, howner, hother, fun h => hother (((h 60).2 2).1 hslot)⟩

end TrafficBoard.Plan
