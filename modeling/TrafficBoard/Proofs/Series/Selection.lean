import Mathlib
import TrafficBoard.Proofs.Series.Rankings
import TrafficBoard.Series.Builder

namespace TrafficBoard

/-!
# Chosen labels — the preferred ones in their order, then the ranked ones

* `Legend.Leads` says which labels lead a legend: the preferred ones, each once, in the order of
  their first mention; `Legend.Leads.unique` says that only one list does;
* `Legend.leads_leading` finds that list, since dropping repeats keeps the order of first mention;
* `Legend.select_nodup` says that the labels chosen for a chart are distinct;
* `Legend.select_eq_leaders_ranking` says which labels they are, and that the leading ones stay in
  place whatever the counts.
-/

variable {α : Type} [Count α]

namespace Legend

/-! ### The leading labels -/

/-- The labels that lead a legend: the preferred ones but the empty one, in the order of their first
mention. -/
structure Leads (legend : Legend) (leaders : List String) : Prop where
  mem_iff : ∀ label, label ∈ leaders ↔ label ∈ legend.preferred ∧ label ≠ ""
  inOrder : leaders.Pairwise (MentionedBefore legend.preferred)

/-- Only one list leads a legend. -/
theorem Leads.unique {legend : Legend} {leaders other : List String} (h : legend.Leads leaders)
    (h' : legend.Leads other) : other = leaders := by
  refine h'.inOrder.eq_of_mem_iff h.inOrder fun label => ?_
  rw [h'.mem_iff, h.mem_iff]

/-- **The preferred labels without the empty one and without repeats lead a legend.** -/
theorem leads_leading (legend : Legend) : legend.Leads legend.leading := by
  refine ⟨fun label => ?_, pairwise_idxOf_eraseDups_filter _ _⟩
  rw [leading, List.mem_eraseDups, List.mem_filter]
  simp

/-- The leading labels are distinct. -/
theorem leading_nodup (legend : Legend) : legend.leading.Nodup :=
  legend.leads_leading.inOrder.nodup

/-! ### The chosen labels -/

/-- **The labels chosen for a chart are distinct.** -/
theorem select_nodup (legend : Legend) (m : CountMap α) : (legend.select m).Nodup := by
  have hranked : (legend.ranked m).Nodup :=
    (m.labels_rank_nodup.filter _).sublist (List.take_sublist _ _)
  refine (List.nodup_append.2 ⟨legend.leading_nodup, hranked, ?_⟩).sublist (List.take_sublist _ _)
  intro a ha b hb heq
  subst heq
  have hnot := (List.mem_filter.1 (List.mem_of_mem_take hb)).2
  simp [ha] at hnot

/-- The first chosen labels are the leading ones, as far as the bound goes. -/
theorem take_select (legend : Legend) (m : CountMap α) :
    (legend.select m).take (min (legend.maxSeries.getD legend.topN) legend.leading.length) =
      legend.leading.take (legend.maxSeries.getD legend.topN) := by
  rw [select, List.take_take, min_right_comm, min_self,
    List.take_append_of_le_length (min_le_right _ _), ← List.take_eq_take_min]

/-- **The chosen labels are the leading ones and then the ranked ones.** One list leads the legend:
the preferred labels without the empty one, each at its first mention. One list ranks the labels of
the counts that do not lead, by descending count, equal counts by first mention. The chosen labels
are the leading ones followed by as many of the ranked ones as the legend asks for, up to its bound,
and none is chosen twice. Whatever the counts, the leading labels within the bound are chosen
first. -/
theorem select_eq_leaders_ranking [Count.Ranked α] (legend : Legend) (m : CountMap α) :
    ∃ leaders ranking,
      (legend.Leads leaders ∧ ∀ other, legend.Leads other → other = leaders) ∧
      (m.Ranks leaders ranking ∧ ∀ other, m.Ranks leaders other → other = ranking) ∧
      legend.select m =
        (leaders ++ ranking.take legend.topN).take (legend.maxSeries.getD legend.topN) ∧
      (legend.select m).Nodup ∧
      ∀ later : CountMap α,
        let shared := min (legend.maxSeries.getD legend.topN) leaders.length
        (legend.select m).take shared = (legend.select later).take shared := by
  have hleads := legend.leads_leading
  have hranks := m.ranks_rank legend.leading
  refine ⟨legend.leading, _, ⟨hleads, fun other h => hleads.unique h⟩,
    ⟨hranks, fun other h => hranks.unique h⟩, rfl, legend.select_nodup m, ?_⟩
  intro later shared
  rw [take_select, take_select]

/-- Counts that are equal but for the sign of a zero, and one label that both leads and counts: it
is left out of the ranking, the two zeros without a sign rank by mention, and the negative one is
last. -/
theorem select_eq_leaders_ranking_signed_zeros :
    let legend : Legend := { topN := 3, preferred := ["dns", "", "dns"], maxSeries := some 4 }
    let m : CountMap Number.Double :=
      { entries := [("ntp", .negZero), ("tls", .zero), ("dns", .zero), ("ssh", .one), ("irc", .zero)] }
    legend.select m = ["dns", "ssh", "tls", "irc"] ∧
      ∃ leaders ranking, legend.Leads leaders ∧ m.Ranks leaders ranking ∧
        legend.select m = (leaders ++ ranking.take 3).take 4 := by
  intro legend m
  obtain ⟨leaders, ranking, ⟨hleads, -⟩, ⟨hranks, -⟩, hselect, -⟩ :=
    select_eq_leaders_ranking legend m
  exact ⟨by cbv, leaders, ranking, hleads, hranks, hselect⟩

end Legend

end TrafficBoard
