import Mathlib
import TrafficBoard.Proofs.Series.Exact
import TrafficBoard.Proofs.Series.Totals
import TrafficBoard.Series.Ranking

namespace TrafficBoard

/-!
# Rankings — descending counts, and equal counts in the order of first mention

* `Count.Ranked` says that counts rank by a total order; doubles do, with both zeros and every
  not-a-number, and so do exact counts;
* `pairwise_idxOf_eraseDups_filter` says that dropping repeats keeps the order of first occurrence;
* `MentionedBefore` orders labels by their first mention in a list, `CountMap.Precedes` orders them
  by count and then by mention;
* `CountMap.Ranks` says which list is the ranking of the labels of a count map that are not set
  apart, and `CountMap.Ranks.unique` that there is only one;
* `CountMap.ranks_rank` says that sorting the entries finds it: the sort is stable, so of two equal
  counts the first one stays the first.
-/

namespace Count

/-- Counts that rank by a total order, in which different values may be equal. -/
class Ranked (α : Type) [Count α] : Prop where
  atMost_trans (a b c : α) : atMost a b → atMost b c → atMost a c
  atMost_total (a b : α) : (atMost a b || atMost b a) = true

instance : Ranked Number.Double where
  atMost_trans a b c hab hbc := by
    simp only [atMost, decide_eq_true_eq] at *
    exact hab.trans hbc
  atMost_total a b := by
    simp only [atMost, Bool.or_eq_true, decide_eq_true_eq]
    exact le_total _ _

instance {α : Type} [Count α] [AddCommGroup α] [LinearOrder α] [Exact α] : Ranked α where
  atMost_trans a b c hab hbc := by
    simp only [Exact.atMost_iff] at *
    exact hab.trans hbc
  atMost_total a b := by
    simp only [Bool.or_eq_true, Exact.atMost_iff]
    exact le_total a b

end Count

/-! ### The order of mention -/

/-- One more element adds to the distinct ones only if it is new. -/
theorem eraseDups_concat {γ : Type} [DecidableEq γ] (xs : List γ) (x : γ) :
    (xs ++ [x]).eraseDups = if x ∈ xs then xs.eraseDups else xs.eraseDups ++ [x] := by
  rw [List.eraseDups_append]
  by_cases hmem : x ∈ xs
  · simp [List.removeAll, hmem]
  · simp [List.removeAll, hmem, List.eraseDups_cons]

/-- Dropping repeats leaves the elements of a list in the order of their first occurrence, also
where some were left out before. -/
theorem pairwise_idxOf_eraseDups_filter {γ : Type} [BEq γ] [LawfulBEq γ] (xs : List γ)
    (keep : γ → Bool) :
    (xs.filter keep).eraseDups.Pairwise fun a b => xs.idxOf a < xs.idxOf b := by
  induction xs generalizing keep with
  | nil => exact List.Pairwise.nil
  | cons x rest ih =>
    -- Among elements other than the front one, the front one makes no difference.
    have hrest : ∀ others : List γ, x ∉ others →
        others.Pairwise (fun a b => rest.idxOf a < rest.idxOf b) →
        others.Pairwise fun a b => (x :: rest).idxOf a < (x :: rest).idxOf b := by
      intro others hnot hothers
      have hne : ∀ c ∈ others, x ≠ c := by
        rintro c hc rfl
        exact hnot hc
      refine hothers.imp_of_mem fun {a b} ha hb hab => ?_
      rw [List.idxOf_cons_ne _ (hne a ha), List.idxOf_cons_ne _ (hne b hb)]
      exact Nat.succ_lt_succ hab
    by_cases hkeep : keep x
    · rw [List.filter_cons, if_pos hkeep, List.eraseDups_cons, List.filter_filter,
        List.pairwise_cons]
      have hnot : x ∉ (rest.filter fun y => (!y == x) && keep y).eraseDups := by
        simp
      refine ⟨?_, hrest _ hnot (ih _)⟩
      intro other hother
      have hne : x ≠ other := by
        rintro rfl
        exact hnot hother
      rw [List.idxOf_cons_self, List.idxOf_cons_ne _ hne]
      exact Nat.succ_pos _
    · rw [List.filter_cons, if_neg hkeep]
      refine hrest _ ?_ (ih keep)
      simp [hkeep]

/-- A label comes before another one in a list: its first mention does. -/
def MentionedBefore (labels : List String) (a b : String) : Prop :=
  labels.idxOf a < labels.idxOf b

instance (labels : List String) : Std.Asymm (MentionedBefore labels) where
  asymm a b h := by
    rw [MentionedBefore] at *
    omega

/-- Distinct labels are mentioned in their order. -/
theorem mentionedBefore_of_pair_sublist {labels : List String} (h : labels.Nodup) {a b : String}
    (hab : [a, b].Sublist labels) : MentionedBefore labels a b := by
  have hpairs : labels.Pairwise (MentionedBefore labels) := by
    rw [List.pairwise_iff_getElem]
    intro i j hi hj hij
    rw [MentionedBefore, h.idxOf_getElem, h.idxOf_getElem]
    exact hij
  exact List.pairwise_iff_forall_sublist.1 hpairs hab

namespace CountMap

variable {α : Type} {m : CountMap α}

/-- The count of a label is the one of its entry. -/
theorem get?_eq_some_iff {label : String} {count : α} :
    m.get? label = some count ↔ (label, count) ∈ m.entries := by
  rw [← Option.mem_toList, ← map_filter_entries]
  simp

variable [Count α]

/-- A label ranks before another one: its count is no less, and where the other one is no less
either, it is mentioned first. -/
def Precedes (m : CountMap α) (a b : String) : Prop :=
  ∃ x y, m.get? a = some x ∧ m.get? b = some y ∧ Count.atMost y x ∧
    (Count.atMost x y → MentionedBefore m.labels a b)

instance (m : CountMap α) : Std.Asymm m.Precedes where
  asymm a b := by
    rintro ⟨x, y, hx, hy, hle, hfirst⟩ ⟨y', x', hy', hx', hge, hsecond⟩
    obtain rfl : x' = x := Option.some.inj (hx'.symm.trans hx)
    obtain rfl : y' = y := Option.some.inj (hy'.symm.trans hy)
    exact asymm (hfirst hge) (hsecond hle)

/-- A list is the ranking of the labels of a count map, those set apart left out. -/
structure Ranks (m : CountMap α) (apart ranking : List String) : Prop where
  mem_iff : ∀ label, label ∈ ranking ↔ label ∈ m.labels ∧ label ∉ apart
  inOrder : ranking.Pairwise m.Precedes

/-- **There is only one ranking.** -/
theorem Ranks.unique {apart ranking other : List String} (h : m.Ranks apart ranking)
    (h' : m.Ranks apart other) : other = ranking := by
  refine h'.inOrder.eq_of_mem_iff h.inOrder fun label => ?_
  rw [h'.mem_iff, h.mem_iff]

/-! ### Sorting the entries -/

omit [Count α] in
/-- Of two entries one comes before the other. -/
theorem pair_sublist_or (m : CountMap α) {e f : String × α} (he : e ∈ m.entries)
    (hf : f ∈ m.entries) (hne : e ≠ f) : [e, f].Sublist m.entries ∨ [f, e].Sublist m.entries := by
  have hpairs : m.entries.Pairwise fun e f =>
      [e, f].Sublist m.entries ∨ [f, e].Sublist m.entries := by
    rw [List.pairwise_iff_forall_sublist]
    exact Or.inl
  have hsymm : Std.Symm fun e f => [e, f].Sublist m.entries ∨ [f, e].Sublist m.entries :=
    ⟨fun e f h => h.symm⟩
  exact hpairs.forall he hf hne

/-- A ranking has the entries of the count map. -/
theorem perm_rank (m : CountMap α) : (rank m).Perm m.entries :=
  List.mergeSort_perm _ _

@[simp] theorem mem_rank {e : String × α} : e ∈ rank m ↔ e ∈ m.entries :=
  m.perm_rank.mem_iff

/-- A ranking has no label twice. -/
theorem labels_rank_nodup (m : CountMap α) : ((rank m).map Prod.fst).Nodup :=
  (m.perm_rank.map Prod.fst).nodup_iff.2 m.nodup

variable [Count.Ranked α]

/-- **Sorting is stable:** two entries in order, the second one no greater, stay in order. -/
theorem pair_sublist_rank {e f : String × α} (h : [e, f].Sublist m.entries)
    (hle : Count.atMost f.2 e.2) : [e, f].Sublist (rank m) := by
  refine List.pair_sublist_mergeSort ?_ ?_ hle h
  · exact fun a b c hab hbc => Count.Ranked.atMost_trans c.2 b.2 a.2 hbc hab
  · exact fun a b => Count.Ranked.atMost_total b.2 a.2

/-- The counts of a ranking descend. -/
theorem rank_descends (m : CountMap α) :
    (rank m).Pairwise fun e f => Count.atMost f.2 e.2 = true := by
  refine List.pairwise_mergeSort ?_ ?_ m.entries
  · exact fun a b c hab hbc => Count.Ranked.atMost_trans c.2 b.2 a.2 hbc hab
  · exact fun a b => Count.Ranked.atMost_total b.2 a.2

/-- **The labels of the sorted entries are in the order of ranking.** -/
theorem precedes_rank (m : CountMap α) : ((rank m).map Prod.fst).Pairwise m.Precedes := by
  rw [List.pairwise_map, List.pairwise_iff_forall_sublist]
  intro e f hef
  have he : e ∈ m.entries := mem_rank.1 (hef.subset (by simp))
  have hf : f ∈ m.entries := mem_rank.1 (hef.subset (by simp))
  have hbefore := mentionedBefore_of_pair_sublist m.labels_rank_nodup (hef.map Prod.fst)
  refine ⟨e.2, f.2, get?_eq_some_iff.2 he, get?_eq_some_iff.2 hf,
    List.pairwise_iff_forall_sublist.1 m.rank_descends hef, fun hle => ?_⟩
  have hne : e ≠ f := by
    rintro rfl
    exact asymm hbefore hbefore
  rcases m.pair_sublist_or he hf hne with hentries | hentries
  · exact mentionedBefore_of_pair_sublist m.nodup (hentries.map Prod.fst)
  · -- The sort would have kept the two in the other order.
    have hother := (pair_sublist_rank hentries hle).map Prod.fst
    exact absurd (mentionedBefore_of_pair_sublist m.labels_rank_nodup hother) (asymm hbefore)

/-- **Sorting the entries and leaving out what is set apart is the ranking.** -/
theorem ranks_rank (m : CountMap α) (apart : List String) :
    m.Ranks apart (((rank m).map Prod.fst).filter fun label => !apart.contains label) := by
  refine ⟨fun label => ?_, m.precedes_rank.filter _⟩
  rw [List.mem_filter, labels, List.mem_map, List.mem_map]
  simp only [mem_rank, Bool.not_eq_true', List.contains_eq_mem, decide_eq_false_iff_not]

end CountMap

end TrafficBoard
