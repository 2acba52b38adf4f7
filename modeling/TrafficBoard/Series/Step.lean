namespace TrafficBoard

/-!
# Sampling steps — the distance of samples, read off their instants

* `timeline` sorts instants and drops repeats;
* `gaps` are the positive distances of neighbours, `modalStep` the most frequent of them.

Of the distances that occur equally often, the one that occurs first is the step, so a stray sample
off the grid does not shrink it.
-/

/-- A sorted list without the repeats of neighbours. -/
def dedup : List Int → List Int
  | [] => []
  | [t] => [t]
  | t :: u :: rest => if t = u then dedup (u :: rest) else t :: dedup (u :: rest)

/-- The distinct instants in ascending order. -/
def timeline (times : List Int) : List Int :=
  dedup (times.mergeSort fun t u => t ≤ u)

/-- The positive distances between neighbours, in order. -/
def gaps : List Int → List Int
  | t :: u :: rest => if t < u then (u - t) :: gaps (u :: rest) else gaps (u :: rest)
  | _ => []

/-- The first of the candidates that occurs most often in a list. -/
def mostFrequent (xs : List Int) : List Int → Option Int
  | [] => none
  | x :: rest =>
    match mostFrequent xs rest with
    | some y => if xs.count x < xs.count y then some y else some x
    | none => some x

/-- The most frequent positive distance between neighbours, the first one of equals. -/
def modalStep (times : List Int) : Option Int :=
  mostFrequent (gaps times) (gaps times).eraseDups

example : modalStep [0, 60, 120, 125, 185, 245] = some 60 := by decide
example : modalStep [0, 120, 180] = some 120 ∧ modalStep [42, 42] = none := by decide

end TrafficBoard
