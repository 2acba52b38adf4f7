import Mathlib
import TrafficBoard.Proofs.Series.Rankings

namespace TrafficBoard

/-!
# Top rows — the first rows of the ranking of the sums

* `mentions` lists the labels of all buckets as they are met; `labels_totals` says that the totals
  keep each of them where it is met first;
* `Outranks` orders rows by value, and equal values by first mention;
* `IsTop` says which rows are the top ones, without sorting any, and `IsTop.unique` that only one
  list of rows is;
* `rankedRows` are the rows of all labels, from which `aggregateTop_isTop` cuts the top ones.
-/

variable {α : Type}

/-! ### Labels in the order of first mention -/

/-- The labels of all buckets, as they are met. -/
def mentions (buckets : List (Bucket α)) : List String :=
  buckets.flatMap fun b => b.counts.labels

/-- What is first among distinct mentions is mentioned first. -/
theorem mentionedBefore_of_eraseDups {labels : List String} {a b : String} (hb : b ∈ labels)
    (h : MentionedBefore labels.eraseDups a b) : MentionedBefore labels a b := by
  have hpairs := pairwise_idxOf_eraseDups_filter labels fun _ => true
  rw [List.filter_true] at hpairs
  have hb' : labels.eraseDups.idxOf b < labels.eraseDups.length :=
    List.idxOf_lt_length_iff.2 (List.mem_eraseDups.2 hb)
  have ha' : labels.eraseDups.idxOf a < labels.eraseDups.length := lt_trans h hb'
  have hab := List.pairwise_iff_getElem.1 hpairs _ _ ha' hb' h
  rwa [List.getElem_idxOf, List.getElem_idxOf] at hab

section Totals

variable [Count α]

/-- Adding up pairs keeps each label where it is met first. -/
theorem labels_ofPairs (pairs : List (String × α)) :
    (CountMap.ofPairs pairs).labels = (pairs.map Prod.fst).eraseDups := by
  induction pairs using List.reverseRecOn with
  | nil => rfl
  | append_singleton pairs p ih =>
    have hadd : CountMap.ofPairs (pairs ++ [p]) = (CountMap.ofPairs pairs).add p.1 p.2 :=
      List.foldl_concat _ _ _ _
    rw [hadd, CountMap.labels_add, ih, List.map_append, List.map_singleton, eraseDups_concat]
    simp only [List.mem_eraseDups]

/-- The totals keep each label where it is met first. -/
theorem labels_totals (buckets : List (Bucket α)) :
    (totals buckets).labels = (mentions buckets).eraseDups := by
  have hpairs : totals buckets = .ofPairs (buckets.flatMap fun b => b.counts.entries) :=
    List.foldl_flatMap.symm
  rw [hpairs, labels_ofPairs, List.map_flatMap]
  rfl

/-- The total of a label that is met is the sum of its counts. -/
theorem get?_totals_of_mem {buckets : List (Bucket α)} {label : String}
    (h : label ∈ mentions buckets) :
    (totals buckets).get? label = some (Count.total (countsOf label buckets)) := by
  rw [← List.mem_eraseDups, ← labels_totals] at h
  obtain ⟨entry, hentry, rfl⟩ := List.mem_map.1 h
  have hget := CountMap.get?_eq_some_iff.2 hentry
  rw [get?_totals] at hget ⊢
  by_cases hempty : (countsOf entry.1 buckets).isEmpty
  · rw [if_pos hempty] at hget
    exact absurd hget (by simp)
  · rw [if_neg hempty]

end Totals

/-! ### The order of rows -/

variable [Count α]

/-- A row comes before another one: its value is no less, and where the other one is no less either,
its label is met first. -/
def Outranks (buckets : List (Bucket α)) (r s : Row α) : Prop :=
  Count.atMost s.value r.value ∧
    (Count.atMost r.value s.value → MentionedBefore (mentions buckets) r.key s.key)

instance (buckets : List (Bucket α)) : Std.Asymm (Outranks buckets) where
  asymm r s := by
    rintro ⟨hle, hfirst⟩ ⟨hge, hsecond⟩
    exact asymm (hfirst hge) (hsecond hle)

/-- The rows of a table of the sums over all buckets, as many as a limit asks for. -/
structure IsTop (buckets : List (Bucket α)) (limit : Nat) (rows : List (Row α)) : Prop where
  distinct : (rows.map Row.key).Nodup
  length_eq : rows.length = min limit (mentions buckets).toFinset.card
  sums : ∀ row ∈ rows,
    row.key ∈ mentions buckets ∧ row.value = Count.total (countsOf row.key buckets)
  inOrder : rows.Pairwise (Outranks buckets)
  leftOut : ∀ row ∈ rows, ∀ label ∈ mentions buckets, label ∉ rows.map Row.key →
    Outranks buckets row ⟨label, Count.total (countsOf label buckets)⟩

namespace IsTop

variable {buckets : List (Bucket α)} {limit : Nat} {rows other : List (Row α)}

/-- A row is known by its label. -/
theorem eq_row (h : IsTop buckets limit rows) {row : Row α} (hrow : row ∈ rows) :
    row = ⟨row.key, Count.total (countsOf row.key buckets)⟩ := by
  rw [← (h.sums row hrow).2]

/-- The rows that are the top ones have the labels of any others that are. -/
theorem keys_subset (h : IsTop buckets limit rows) (h' : IsTop buckets limit other) :
    rows.map Row.key ⊆ other.map Row.key := by
  intro label hlabel
  by_contra hnot
  obtain ⟨r, hr, rfl⟩ := List.mem_map.1 hlabel
  -- There are as many other rows, so that one of them has a label that is missing here.
  obtain ⟨s, hs, hmissing⟩ : ∃ s ∈ other, s.key ∉ rows.map Row.key := by
    by_contra hall
    push Not at hall
    have hsub : other.map Row.key ⊆ rows.map Row.key := List.forall_mem_map.2 hall
    have hlen : (rows.map Row.key).length ≤ (other.map Row.key).length := by
      rw [List.length_map, List.length_map, h.length_eq, h'.length_eq]
    have hperm := (h'.distinct.subperm hsub).perm_of_length_le hlen
    exact hnot (hperm.mem_iff.2 hlabel)
  -- Each of the two rows would come before the other one.
  have hrs := h.leftOut r hr s.key (h'.sums s hs).1 hmissing
  have hsr := h'.leftOut s hs r.key (h.sums r hr).1 hnot
  rw [← h'.eq_row hs] at hrs
  rw [← h.eq_row hr] at hsr
  exact asymm hrs hsr

/-- The rows that are the top ones are among any others that are. -/
theorem subset (h : IsTop buckets limit rows) (h' : IsTop buckets limit other) : rows ⊆ other := by
  intro r hr
  obtain ⟨s, hs, hkey⟩ := List.mem_map.1 (h.keys_subset h' (List.mem_map_of_mem hr))
  rw [h.eq_row hr, ← hkey, ← h'.eq_row hs]
  exact hs

/-- **Only one list of rows is the top one.** -/
theorem unique (h : IsTop buckets limit rows) (h' : IsTop buckets limit other) : other = rows := by
  refine h'.inOrder.eq_of_mem_iff h.inOrder fun r => ?_
  exact ⟨fun hr => h'.subset h hr, fun hr => h.subset h' hr⟩

end IsTop

/-! ### The rows of all labels -/

/-- The rows of all labels, the ranking of the totals. -/
def rankedRows (buckets : List (Bucket α)) : List (Row α) :=
  (rank (totals buckets)).map fun entry => ⟨entry.1, entry.2⟩

section Rows

variable (buckets : List (Bucket α))

/-- The top rows are the first ones of all. -/
theorem aggregateTop_eq_take (limit : Nat) :
    aggregateTop buckets limit = (rankedRows buckets).take limit :=
  List.map_take

/-- The labels of all rows are those of the ranking. -/
theorem keys_rankedRows :
    (rankedRows buckets).map Row.key = (rank (totals buckets)).map Prod.fst := by
  rw [rankedRows, List.map_map]
  rfl

/-- The labels of all rows are those that are met, each once. -/
theorem perm_keys_rankedRows :
    ((rankedRows buckets).map Row.key).Perm (mentions buckets).eraseDups := by
  rw [keys_rankedRows, ← labels_totals]
  exact (totals buckets).perm_rank.map Prod.fst

/-- No two rows have the same label. -/
theorem keys_rankedRows_nodup : ((rankedRows buckets).map Row.key).Nodup := by
  rw [keys_rankedRows]
  exact (totals buckets).labels_rank_nodup

/-- There is a row for each label that is met. -/
theorem length_rankedRows : (rankedRows buckets).length = (mentions buckets).toFinset.card := by
  have hlabels : (mentions buckets).toFinset = ((rankedRows buckets).map Row.key).toFinset := by
    ext label
    rw [List.mem_toFinset, List.mem_toFinset, (perm_keys_rankedRows buckets).mem_iff,
      List.mem_eraseDups]
  rw [hlabels, List.toFinset_card_of_nodup (keys_rankedRows_nodup buckets), List.length_map]

/-- The rows are those of the labels that are met, each with the sum of its counts. -/
theorem mem_rankedRows {row : Row α} :
    row ∈ rankedRows buckets ↔
      row.key ∈ mentions buckets ∧ row.value = Count.total (countsOf row.key buckets) := by
  have hentry : row ∈ rankedRows buckets ↔ (totals buckets).get? row.key = some row.value := by
    rw [CountMap.get?_eq_some_iff, ← CountMap.mem_rank, rankedRows, List.mem_map]
    constructor
    · rintro ⟨entry, hentry, rfl⟩
      exact hentry
    · intro h
      exact ⟨_, h, rfl⟩
  rw [hentry]
  constructor
  · intro h
    have hmem : row.key ∈ mentions buckets := by
      rw [← List.mem_eraseDups, ← labels_totals]
      exact List.mem_map_of_mem (CountMap.get?_eq_some_iff.1 h)
    rw [get?_totals_of_mem hmem, Option.some.injEq] at h
    exact ⟨hmem, h.symm⟩
  · rintro ⟨hmem, hvalue⟩
    rw [get?_totals_of_mem hmem, hvalue]

variable [Count.Ranked α]

/-- **Each row comes before the later ones,** by its value or else by its first mention. -/
theorem rankedRows_inOrder : (rankedRows buckets).Pairwise (Outranks buckets) := by
  have hranking := (totals buckets).precedes_rank
  rw [← keys_rankedRows, List.pairwise_map] at hranking
  refine hranking.imp_of_mem ?_
  rintro r s hr hs ⟨x, y, hx, hy, hle, hfirst⟩
  obtain ⟨hr, hrvalue⟩ := (mem_rankedRows buckets).1 hr
  obtain ⟨hs, hsvalue⟩ := (mem_rankedRows buckets).1 hs
  rw [get?_totals_of_mem hr, ← hrvalue, Option.some.injEq] at hx
  rw [get?_totals_of_mem hs, ← hsvalue, Option.some.injEq] at hy
  subst hx hy
  rw [labels_totals] at hfirst
  exact ⟨hle, fun hge => mentionedBefore_of_eraseDups hs (hfirst hge)⟩

/-- The first rows of all are the top ones. -/
theorem isTop_take (limit : Nat) : IsTop buckets limit ((rankedRows buckets).take limit) := by
  have hsub : ((rankedRows buckets).take limit).Sublist (rankedRows buckets) :=
    List.take_sublist _ _
  refine ⟨(keys_rankedRows_nodup buckets).sublist (hsub.map _), ?_, fun row hrow => ?_,
    (rankedRows_inOrder buckets).sublist hsub, fun row hrow label hmem hnot => ?_⟩
  · rw [List.length_take, length_rankedRows]
  · exact (mem_rankedRows buckets).1 (hsub.subset hrow)
  · -- A label that is left out has its row among the later ones.
    have hall := rankedRows_inOrder buckets
    rw [← List.take_append_drop limit (rankedRows buckets), List.pairwise_append] at hall
    have hlabel : (⟨label, Count.total (countsOf label buckets)⟩ : Row α) ∈ rankedRows buckets :=
      (mem_rankedRows buckets).2 ⟨hmem, rfl⟩
    rw [← List.take_append_drop limit (rankedRows buckets), List.mem_append] at hlabel
    rcases hlabel with htaken | hdropped
    · exact absurd (List.mem_map_of_mem htaken) hnot
    · exact hall.2.2 row hrow _ hdropped

/-- **The top rows are the first rows of the stable ranking of the sums.** The labels of the rows
are distinct, and there are as many as the limit allows or as there are labels. Each row has the sum
of the counts of its label over all buckets, in their order and on top of zero. A row is no less
than the later ones and than the labels left out, and where it is equal its label is met first. Only
one list of rows is such, and a greater limit adds rows at the end. -/
theorem aggregateTop_isTop (limit : Nat) :
    IsTop buckets limit (aggregateTop buckets limit) ∧
    (∀ rows, IsTop buckets limit rows → rows = aggregateTop buckets limit) ∧
    ∀ more, limit ≤ more → aggregateTop buckets limit <+: aggregateTop buckets more := by
  have htop : IsTop buckets limit (aggregateTop buckets limit) := by
    rw [aggregateTop_eq_take]
    exact isTop_take buckets limit
  refine ⟨htop, fun rows hrows => htop.unique hrows, fun more hmore => ?_⟩
  rw [aggregateTop_eq_take, aggregateTop_eq_take]
  exact List.take_prefix_take_left hmore

end Rows

/-- Three labels with counts that are not numbers, one of them negative. -/
def brokenBuckets : List (Bucket Number.Double) :=
  let nan : Number.Double := ⟨0x7ff8000000000000⟩
  [⟨60, { entries := [("dns", .invalid), ("tls", nan)] }⟩,
    ⟨0, { entries := [("ntp", nan), ("dns", nan)] }⟩]

/-- What is not a number ranks above all numbers, and below all of them if it is negative. Of two
equal sums the one that is met first is kept. -/
theorem aggregateTop_isTop_not_numbers :
    aggregateTop brokenBuckets 1 = [⟨"tls", ⟨0x7ff8000000000000⟩⟩] ∧
    (aggregateTop brokenBuckets 9).map Row.key = ["tls", "ntp", "dns"] ∧
    IsTop brokenBuckets 1 (aggregateTop brokenBuckets 1) ∧
    aggregateTop brokenBuckets 1 <+: aggregateTop brokenBuckets 9 := by
  obtain ⟨htop, -, hmore⟩ := aggregateTop_isTop brokenBuckets 1
  exact ⟨by cbv, by cbv, htop, hmore 9 (by decide)⟩

end TrafficBoard
