import Mathlib
import TrafficBoard.Series.Basic

namespace TrafficBoard

/-!
# Totals — what the counts of all buckets come to, label by label

* `countsOf` lists the counts of a label, bucket by bucket;
* `CountMap.get?_add` and `CountMap.get?_addAll_entries` look up a label after counts have been
  added;
* `get?_totals` says that the totals hold, for each label, the sum of exactly its counts.
-/

variable {α : Type} [Count α]

/-- The counts of a label, in the order of the buckets. -/
def countsOf (label : String) (buckets : List (Bucket α)) : List α :=
  buckets.filterMap fun b => b.counts.get? label

omit [Count α] in
theorem countsOf_cons (label : String) (b : Bucket α) (rest : List (Bucket α)) :
    countsOf label (b :: rest) = (b.counts.get? label).toList ++ countsOf label rest := by
  rw [countsOf, List.filterMap_cons]
  cases b.counts.get? label <;> rfl

namespace CountMap

/-- The count of a label after one more count: the first one starts at zero. -/
def bump (sum : Option α) (count : α) : Option α :=
  some (Count.add (sum.getD Count.zero) count)

/-- Adding counts on top of a sum adds them up. -/
theorem foldl_bump_some (sum : α) (counts : List α) :
    counts.foldl bump (some sum) = some (counts.foldl Count.add sum) := by
  induction counts generalizing sum with
  | nil => rfl
  | cons count rest ih => exact ih (Count.add sum count)

/-- The first count starts the sum. -/
theorem foldl_bump_none (counts : List α) :
    counts.foldl bump none = if counts.isEmpty then none else some (Count.total counts) := by
  cases counts with
  | nil => rfl
  | cons count rest => exact foldl_bump_some _ rest

omit [Count α] in
@[simp] theorem get?_empty (label : String) : (empty : CountMap α).get? label = none := rfl

/-- Adding a count changes the entry of its label only. -/
theorem find?_addEntry (label other : String) (count : α) (entries : List (String × α)) :
    ((addEntry label count entries).find? fun e => e.1 = other).map Prod.snd =
      if other = label then bump ((entries.find? fun e => e.1 = label).map Prod.snd) count
      else (entries.find? fun e => e.1 = other).map Prod.snd := by
  induction entries with
  | nil =>
    by_cases h : other = label
    · simp [addEntry, h, bump]
    · simp [addEntry, h, Ne.symm h]
  | cons entry rest ih =>
    obtain ⟨name, value⟩ := entry
    rw [addEntry]
    by_cases hname : name = label
    · subst hname
      by_cases h : other = name
      · simp [h, bump]
      · simp [h, Ne.symm h]
    · rw [if_neg hname]
      by_cases h : other = label
      · subst h
        simpa [hname] using ih
      · -- Neither the entry at the front nor the one that changes decides alone.
        rw [if_neg h] at ih ⊢
        by_cases hother : name = other
        · simp [hother]
        · simpa [hother] using ih

/-- Adding a count changes the count of its label only. -/
theorem get?_add (m : CountMap α) (label other : String) (count : α) :
    (m.add label count).get? other =
      if other = label then bump (m.get? label) count else m.get? other :=
  find?_addEntry label other count m.entries

/-- Adding a list of counts adds to a label the counts that bear it. -/
theorem get?_addAll (m : CountMap α) (pairs : List (String × α)) (label : String) :
    (m.addAll pairs).get? label =
      ((pairs.filter fun p => p.1 = label).map Prod.snd).foldl bump (m.get? label) := by
  induction pairs generalizing m with
  | nil => rfl
  | cons pair rest ih =>
    have hrest : m.addAll (pair :: rest) = (m.add pair.1 pair.2).addAll rest := rfl
    rw [hrest, ih, get?_add]
    by_cases h : pair.1 = label
    · simp [h]
    · simp [h, Ne.symm h]

omit [Count α] in
/-- A label has at most one entry. -/
theorem map_filter_entries (m : CountMap α) (label : String) :
    (m.entries.filter fun p => p.1 = label).map Prod.snd = (m.get? label).toList := by
  obtain ⟨entries, nodup⟩ := m
  simp only [get?]
  induction entries with
  | nil => rfl
  | cons entry rest ih =>
    rw [List.map_cons, List.nodup_cons] at nodup
    by_cases h : entry.1 = label
    · -- The label occurs at the front, hence nowhere else.
      have hrest : (rest.filter fun p => p.1 = label) = [] := by
        rw [List.filter_eq_nil_iff]
        intro p hp heq
        rw [decide_eq_true_eq] at heq
        exact nodup.1 (h.trans heq.symm ▸ List.mem_map_of_mem hp)
      simp [h, hrest]
    · simpa [h] using ih nodup.2

/-- Adding a count map adds to a label its count, if it has one. -/
theorem get?_addAll_entries (m other : CountMap α) (label : String) :
    (m.addAll other.entries).get? label = (other.get? label).toList.foldl bump (m.get? label) := by
  rw [get?_addAll, map_filter_entries]

end CountMap

/-- **The totals of a label are the sum of its counts over all buckets,** in their order; a label
without counts has no total. -/
theorem get?_totals (label : String) (buckets : List (Bucket α)) :
    (totals buckets).get? label =
      if (countsOf label buckets).isEmpty then none
      else some (Count.total (countsOf label buckets)) := by
  -- The fold carries totals along, so the statement has to start from any of them.
  have hfold : ∀ m : CountMap α,
      (buckets.foldl (fun m b => m.addAll b.counts.entries) m).get? label =
        (countsOf label buckets).foldl CountMap.bump (m.get? label) := by
    induction buckets with
    | nil => exact fun _ => rfl
    | cons b rest ih =>
      intro m
      rw [List.foldl_cons, ih, CountMap.get?_addAll_entries, countsOf_cons, List.foldl_append]
  rw [totals, hfold, CountMap.get?_empty, CountMap.foldl_bump_none]

end TrafficBoard
