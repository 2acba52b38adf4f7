import TrafficBoard.Series.Basic

namespace TrafficBoard

/-!
# Rankings — labels by descending count

* `rank` sorts the entries of a count map, equal counts in the order of first mention;
* `topRows` are the first rows of a ranking, `aggregateTop` those of the sums over all buckets;
* `latestKeys` are the ranked labels of the newest bucket.
-/

variable {α : Type} [Count α]

/-- The entries of a count map by descending count; equal counts keep their order. -/
def rank (m : CountMap α) : List (String × α) :=
  m.entries.mergeSort fun a b => Count.atMost b.2 a.2

/-- The default number of rows of a table. -/
def defaultTableLimit : Nat := 30

/-- The first rows of the ranking of a count map; without a map there are none. -/
def topRows (counts : Option (CountMap α)) (limit : Nat) : List (Row α) :=
  match counts with
  | some m => ((rank m).take limit).map fun entry => ⟨entry.1, entry.2⟩
  | none => []

/-- The first rows of the ranking of the counts summed over all buckets. -/
def aggregateTop (buckets : List (Bucket α)) (limit : Nat) : List (Row α) :=
  topRows (some (totals buckets)) limit

/-- The bucket with the greatest instant, the last one of equals. -/
def latest? : List (Bucket α) → Option (Bucket α)
  | [] => none
  | b :: rest =>
    match latest? rest with
    | some c => if c.time < b.time then some b else some c
    | none => some b

/-- The labels of the newest bucket by descending count. -/
def latestKeys (buckets : List (Bucket α)) : List String :=
  match latest? buckets with
  | some b => (rank b.counts).map Prod.fst
  | none => []

end TrafficBoard
