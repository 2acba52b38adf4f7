import Mathlib
import TrafficBoard.Proofs.Series.Rankings
import TrafficBoard.Proofs.Series.Timeline

namespace TrafficBoard

/-!
# Tallies — the most frequent distance, in whatever order the distances were counted

* `distances` are the distances of all neighbours; `FirstMode` says which of them is the most
  frequent positive one, the first of equals, and `FirstMode.unique` that at most one is;
* `firstMode_of_modalStep` says that the step found is that one;
* `Tally` counts one distance, `tallies` all of them in one pass, and `Tally.best?` picks the best
  tally of a list, which may have them in any order;
* `modalStep_eq_best_tally` says that the pick is the step found, whatever the order.
-/

/-- The distances of neighbours, in order. -/
def distances : List Int → List Int
  | t :: u :: rest => (u - t) :: distances (u :: rest)
  | _ => []

/-- A positive element that occurs most often among the positive ones, and of those that do the one
that occurs first. -/
structure FirstMode (xs : List Int) (d : Int) : Prop where
  mem : d ∈ xs
  pos : 0 < d
  count_le : ∀ e ∈ xs, 0 < e → xs.count e ≤ xs.count d
  first : ∀ e ∈ xs, 0 < e → xs.count e = xs.count d → xs.idxOf d ≤ xs.idxOf e

/-- At most one element is the mode. -/
theorem FirstMode.unique {xs : List Int} {d e : Int} (h : FirstMode xs d) (h' : FirstMode xs e) :
    d = e := by
  have hcount : xs.count e = xs.count d :=
    le_antisymm (h.count_le e h'.mem h'.pos) (h'.count_le d h.mem h.pos)
  have hidx : xs.idxOf d = xs.idxOf e :=
    le_antisymm (h.first e h'.mem h'.pos hcount) (h'.first d h.mem h.pos hcount.symm)
  exact (List.idxOf_inj h.mem).1 hidx

/-! ### The step found -/

/-- The distances that count are the positive ones. -/
theorem gaps_eq_filter (times : List Int) : gaps times = (distances times).filter (0 < ·) := by
  fun_induction gaps times with
  | case1 t u rest htu ih =>
    rw [distances, List.filter_cons, if_pos (by simpa using htu), ih]
  | case2 t u rest htu ih =>
    rw [distances, List.filter_cons, if_neg (by simpa using htu), ih]
  | case3 times h =>
    rw [distances.eq_def]
    split
    · exact absurd rfl (h _ _ _)
    · rfl

/-- A positive distance occurs among those that count as often as among all. -/
theorem count_gaps {times : List Int} {d : Int} (hd : 0 < d) :
    (gaps times).count d = (distances times).count d := by
  rw [gaps_eq_filter, List.count_filter]
  simpa using hd

/-- Of the candidates that occur most often, the first one is picked. -/
theorem le_of_mostFrequent {xs candidates : List Int} {before : Int → Int → Prop} {d : Int}
    (hbefore : candidates.Pairwise before) (h : mostFrequent xs candidates = some d) :
    ∀ e ∈ candidates, xs.count e ≤ xs.count d ∧ (xs.count e = xs.count d → e = d ∨ before d e) := by
  induction candidates generalizing d with
  | nil => exact absurd h (by simp [mostFrequent])
  | cons x rest ih =>
    rw [List.pairwise_cons] at hbefore
    rw [mostFrequent] at h
    cases hrest : mostFrequent xs rest with
    | none =>
      rw [hrest, Option.some.injEq] at h
      rw [mostFrequent_eq_none_iff] at hrest
      simp [hrest, h]
    | some y =>
      have hy := ih hbefore.2 hrest
      simp only [hrest] at h
      rw [List.forall_mem_cons]
      by_cases hlt : xs.count x < xs.count y
      · -- The front candidate occurs less often than the one found behind it.
        rw [if_pos hlt, Option.some.injEq] at h
        subst h
        exact ⟨⟨hlt.le, fun heq => absurd heq hlt.ne⟩, hy⟩
      · rw [if_neg hlt, Option.some.injEq] at h
        subst h
        refine ⟨⟨le_rfl, fun _ => .inl rfl⟩, fun e he => ?_⟩
        exact ⟨(hy e he).1.trans (not_lt.1 hlt), fun _ => .inr (hbefore.1 e he)⟩

/-- **The step found is the most frequent positive distance, the first of equals.** -/
theorem firstMode_of_modalStep {times : List Int} {d : Int} (h : modalStep times = some d) :
    FirstMode (distances times) d := by
  have hmem_iff : ∀ e, e ∈ gaps times ↔ e ∈ distances times ∧ 0 < e := by
    intro e
    rw [gaps_eq_filter, List.mem_filter, decide_eq_true_iff]
  obtain ⟨hmem, hpos⟩ := (hmem_iff d).1 (mem_gaps_of_modalStep h)
  have hfirst := pairwise_idxOf_eraseDups_filter (distances times) fun e => 0 < e
  rw [← gaps_eq_filter] at hfirst
  have hbest := le_of_mostFrequent hfirst h
  refine ⟨hmem, hpos, fun e he hepos => ?_, fun e he hepos heq => ?_⟩
  · have hle := (hbest e (List.mem_eraseDups.2 ((hmem_iff e).2 ⟨he, hepos⟩))).1
    rwa [count_gaps hepos, count_gaps hpos] at hle
  · have htie := (hbest e (List.mem_eraseDups.2 ((hmem_iff e).2 ⟨he, hepos⟩))).2
    rw [count_gaps hepos, count_gaps hpos] at htie
    rcases htie heq with rfl | hlt
    · exact le_rfl
    · exact hlt.le

/-- A step is found unless no distance is positive. -/
theorem modalStep_eq_none_iff {times : List Int} :
    modalStep times = none ↔ ∀ d ∈ distances times, d ≤ 0 := by
  rw [modalStep, mostFrequent_eq_none_iff, List.eq_nil_iff_forall_not_mem]
  simp [gaps_eq_filter]

/-! ### Counting in one pass -/

/-- How often a distance occurs, and the place at which it occurs first. -/
structure Tally where
  gap : Int
  count : Nat
  first : Nat
  deriving DecidableEq

namespace Tally

/-- Counts one more distance, seen at a place: a new one is entered with that place. -/
def note (counted : List Tally) (gap : Int) (place : Nat) : List Tally :=
  if gap ∈ counted.map Tally.gap then
    counted.map fun t => if t.gap = gap then { t with count := t.count + 1 } else t
  else counted ++ [{ gap, count := 1, first := place }]

/-- The tally of a distance in a list. -/
def ofList (xs : List Int) (gap : Int) : Tally where
  gap := gap
  count := xs.count gap
  first := xs.idxOf gap

/-- By count, and of equal counts the one seen first is the greater. -/
def compare (t u : Tally) : Ordering :=
  (Ord.compare t.count u.count).then (Ord.compare u.first t.first)

/-- The greater one of two tallies, the second one of equals. -/
def better (t u : Tally) : Tally :=
  if t.compare u = .gt then t else u

/-- The greatest tally, the last one of equals. -/
def best? : List Tally → Option Tally
  | [] => none
  | t :: rest => some (rest.foldl better t)

end Tally

/-- Counts the positive ones of some distances, each with its place. -/
def tally (xs : List Int) : List Tally :=
  xs.zipIdx.foldl (fun counted x => if 0 < x.1 then Tally.note counted x.1 x.2 else counted) []

/-- The tallies of the distances of neighbours. -/
def tallies (times : List Int) : List Tally :=
  tally (distances times)

theorem tally_concat (xs : List Int) (d : Int) :
    tally (xs ++ [d]) = if 0 < d then Tally.note (tally xs) d xs.length else tally xs := by
  rw [tally, List.zipIdx_append, List.foldl_append, ← tally]
  simp

/-- Of the tallies of a list one more distance changes only its own. -/
theorem Tally.ofList_concat {xs : List Int} {d e : Int} (he : e ∈ xs) :
    ofList (xs ++ [d]) e =
      if e = d then { ofList xs e with count := xs.count e + 1 } else ofList xs e := by
  rw [ofList, List.count_append, List.idxOf_append_of_mem he]
  by_cases hed : e = d
  · rw [if_pos hed, hed, List.count_singleton_self]
    rfl
  · rw [if_neg hed, List.count_singleton, if_neg (by simpa using Ne.symm hed)]
    rfl

/-- The tally of a new distance. -/
theorem Tally.ofList_concat_self {xs : List Int} {d : Int} (hd : d ∉ xs) :
    ofList (xs ++ [d]) d = { gap := d, count := 1, first := xs.length } := by
  rw [ofList, List.count_append, List.count_eq_zero_of_not_mem hd, List.count_singleton_self,
    List.idxOf_append_of_notMem hd, List.idxOf_cons_self, Nat.zero_add, Nat.add_zero]

/-- The tallies of other distances do not see the last one. -/
theorem Tally.map_ofList_concat {xs gaps : List Int} {d : Int}
    (h : ∀ e ∈ gaps, e ∈ xs ∧ e ≠ d) :
    gaps.map (ofList (xs ++ [d])) = gaps.map (ofList xs) := by
  refine List.map_congr_left fun e he => ?_
  obtain ⟨hmem, hne⟩ := h e he
  rw [ofList_concat hmem, if_neg hne]

/-- Counting one more distance makes the tallies of the longer list. -/
theorem Tally.note_map {xs gaps : List Int} {d : Int} (hgaps : ∀ e ∈ gaps, e ∈ xs)
    (hd : d ∈ xs → d ∈ gaps) :
    note (gaps.map (ofList xs)) d xs.length =
      (if d ∈ gaps then gaps else gaps ++ [d]).map (ofList (xs ++ [d])) := by
  have hcounted : (gaps.map (ofList xs)).map Tally.gap = gaps := by
    rw [List.map_map]
    exact List.map_id' _
  rw [note, hcounted]
  by_cases hold : d ∈ gaps
  · rw [if_pos hold, if_pos hold, List.map_map]
    refine List.map_congr_left fun e he => ?_
    exact (ofList_concat (hgaps e he)).symm
  · have hne : ∀ e ∈ gaps, e ∈ xs ∧ e ≠ d := by
      intro e he
      refine ⟨hgaps e he, ?_⟩
      rintro rfl
      exact hold he
    rw [if_neg hold, if_neg hold, List.map_append, List.map_singleton, map_ofList_concat hne,
      ofList_concat_self (mt hd hold)]

/-- **One pass makes the tally of each positive distance,** once for each. -/
theorem tally_eq_map (xs : List Int) :
    tally xs = (xs.filter (0 < ·)).eraseDups.map (Tally.ofList xs) := by
  induction xs using List.reverseRecOn with
  | nil => rfl
  | append_singleton xs d ih =>
    have hmem : ∀ e, e ∈ (xs.filter (0 < ·)).eraseDups ↔ e ∈ xs ∧ 0 < e := by
      intro e
      rw [List.mem_eraseDups, List.mem_filter, decide_eq_true_iff]
    have hlast : [d].filter (0 < ·) = if 0 < d then [d] else [] := by
      simp only [List.filter_cons, decide_eq_true_iff, List.filter_nil]
    rw [tally_concat, ih, List.filter_append, hlast]
    by_cases hd : 0 < d
    · have hgaps : ∀ e ∈ (xs.filter (0 < ·)).eraseDups, e ∈ xs := fun e he => ((hmem e).1 he).1
      have hold : d ∈ xs → d ∈ (xs.filter (0 < ·)).eraseDups := fun h => (hmem d).2 ⟨h, hd⟩
      rw [if_pos hd, if_pos hd, eraseDups_concat, Tally.note_map hgaps hold]
      simp only [List.mem_eraseDups]
    · -- A distance that does not count is none of those counted.
      rw [if_neg hd, if_neg hd, List.append_nil, Tally.map_ofList_concat]
      intro e he
      obtain ⟨hxs, hpos⟩ := (hmem e).1 he
      refine ⟨hxs, ?_⟩
      rintro rfl
      exact hd hpos

/-! ### The best tally -/

namespace Tally

/-- A tally is no better than another one: its count is less, or as great and not seen earlier. -/
def AtMost (t u : Tally) : Prop :=
  t.count < u.count ∨ t.count = u.count ∧ u.first ≤ t.first

theorem AtMost.refl (t : Tally) : t.AtMost t :=
  .inr ⟨rfl, le_rfl⟩

theorem AtMost.trans {t u v : Tally} (h : t.AtMost u) (h' : u.AtMost v) : t.AtMost v := by
  unfold AtMost at *
  omega

/-- The comparison of two tallies tells which one is no better. -/
theorem compare_eq_gt_iff {t u : Tally} : t.compare u = .gt ↔ ¬t.AtMost u := by
  rw [compare, Ordering.then_eq_gt, compare_gt_iff_gt, compare_eq_iff_eq, compare_gt_iff_gt, AtMost]
  omega

/-- The better one of two tallies is one of them, and neither is above it. -/
theorem better_spec (t u : Tally) :
    (t.better u = t ∨ t.better u = u) ∧ t.AtMost (t.better u) ∧ u.AtMost (t.better u) := by
  unfold better
  by_cases hgt : t.compare u = .gt
  · rw [if_pos hgt]
    rw [compare_eq_gt_iff] at hgt
    refine ⟨.inl rfl, .refl t, ?_⟩
    unfold AtMost at *
    omega
  · rw [if_neg hgt]
    rw [compare_eq_gt_iff, not_not] at hgt
    exact ⟨.inr rfl, hgt, .refl u⟩

/-- Keeping the better one of two, all along a list, ends with the best one. -/
theorem foldl_better (t : Tally) (rest : List Tally) :
    rest.foldl better t ∈ t :: rest ∧ ∀ u ∈ t :: rest, u.AtMost (rest.foldl better t) := by
  induction rest generalizing t with
  | nil => simp [AtMost.refl]
  | cons u rest ih =>
    obtain ⟨heq, ht, hu⟩ := t.better_spec u
    obtain ⟨hmem, hbest⟩ := ih (t.better u)
    rw [List.forall_mem_cons] at hbest
    rw [List.foldl_cons]
    refine ⟨?_, ?_⟩
    · rcases List.mem_cons.1 hmem with hfront | hrest
      · rw [hfront]
        rcases heq with heq | heq <;> simp [heq]
      · exact List.mem_cons_of_mem _ (List.mem_cons_of_mem _ hrest)
    · rw [List.forall_mem_cons, List.forall_mem_cons]
      exact ⟨ht.trans hbest.1, hu.trans hbest.1, hbest.2⟩

/-- The best tally of a list is one of the list, and no other one is above it. -/
theorem best_of_best? {counted : List Tally} {best : Tally} (h : best? counted = some best) :
    best ∈ counted ∧ ∀ t ∈ counted, t.AtMost best := by
  cases counted with
  | nil => exact absurd h (by simp [best?])
  | cons t rest =>
    rw [best?, Option.some.injEq] at h
    subst h
    exact foldl_better t rest

theorem best?_eq_none_iff {counted : List Tally} : best? counted = none ↔ counted = [] := by
  cases counted <;> simp [best?]

end Tally

variable {times : List Int} {order : List Tally}

/-- The tallies of a list in any order are those of its positive distances. -/
theorem mem_order_iff (h : order.Perm (tallies times)) {t : Tally} :
    t ∈ order ↔ ∃ d ∈ distances times, 0 < d ∧ Tally.ofList (distances times) d = t := by
  rw [h.mem_iff, tallies, tally_eq_map, List.mem_map]
  simp only [List.mem_eraseDups, List.mem_filter, decide_eq_true_iff, and_assoc]

/-- The best tally, in whatever order the tallies come, is that of the mode. -/
theorem firstMode_of_best? (h : order.Perm (tallies times)) {best : Tally}
    (hbest : Tally.best? order = some best) : FirstMode (distances times) best.gap := by
  obtain ⟨hmem, hmost⟩ := Tally.best_of_best? hbest
  obtain ⟨d, hd, hpos, rfl⟩ := (mem_order_iff h).1 hmem
  have hle : ∀ e ∈ distances times, 0 < e →
      (Tally.ofList (distances times) e).AtMost (Tally.ofList (distances times) d) := by
    intro e he hepos
    exact hmost _ ((mem_order_iff h).2 ⟨e, he, hepos, rfl⟩)
  refine ⟨hd, hpos, fun e he hepos => ?_, fun e he hepos heq => ?_⟩
  · rcases hle e he hepos with hlt | ⟨heq, -⟩
    · exact hlt.le
    · exact heq.le
  · rcases hle e he hepos with hlt | ⟨-, hfirst⟩
    · exact absurd heq hlt.ne
    · exact hfirst

/-- **The step found is the most frequent positive distance, the first of equals, in whatever order
the distances are counted.** There is no step just where no distance is positive. Where there is
one, it is the positive distance that occurs most often, and of those that do the one that occurs
first. And the best one of the tallies of the distances, taken in any order, is its tally. -/
theorem modalStep_eq_best_tally (times : List Int) :
    (modalStep times = none ↔ ∀ d ∈ distances times, d ≤ 0) ∧
    (∀ d, modalStep times = some d ↔ FirstMode (distances times) d) ∧
    ∀ order, order.Perm (tallies times) →
      (Tally.best? order).map Tally.gap = modalStep times := by
  have hmode : ∀ d, modalStep times = some d ↔ FirstMode (distances times) d := by
    intro d
    refine ⟨firstMode_of_modalStep, fun hd => ?_⟩
    cases hstep : modalStep times with
    | none => exact absurd hd.pos (not_lt.2 (modalStep_eq_none_iff.1 hstep d hd.mem))
    | some e => rw [(firstMode_of_modalStep hstep).unique hd]
  refine ⟨modalStep_eq_none_iff, hmode, fun order horder => ?_⟩
  cases hbest : Tally.best? order with
  | none =>
    -- Without tallies there is no positive distance.
    rw [Tally.best?_eq_none_iff] at hbest
    refine (modalStep_eq_none_iff.2 fun d hd => ?_).symm
    by_contra hpos
    have hmem := (mem_order_iff horder).2 ⟨d, hd, not_le.1 hpos, rfl⟩
    rw [hbest] at hmem
    exact List.not_mem_nil hmem
  | some best => exact ((hmode best.gap).2 (firstMode_of_best? horder hbest)).symm

/-- Two distances occur twice, with a repeated instant between them; the one that occurs first is
the step, also where the tallies come the other way round. -/
theorem modalStep_eq_best_tally_tie :
    let times := [0, 120, 180, 180, 300, 305, 365]
    modalStep times = some 120 ∧
    tallies times = [⟨120, 2, 0⟩, ⟨60, 2, 1⟩, ⟨5, 1, 4⟩] ∧
    (Tally.best? [⟨5, 1, 4⟩, ⟨60, 2, 1⟩, ⟨120, 2, 0⟩]).map Tally.gap = modalStep times := by
  intro times
  have htallies : tallies times = [⟨120, 2, 0⟩, ⟨60, 2, 1⟩, ⟨5, 1, 4⟩] := by decide
  refine ⟨by decide, htallies, (modalStep_eq_best_tally times).2.2 _ ?_⟩
  rw [htallies]
  exact List.reverse_perm ([⟨120, 2, 0⟩, ⟨60, 2, 1⟩, ⟨5, 1, 4⟩] : List Tally)

end TrafficBoard
