import TrafficBoard.Number.Word
import TrafficBoard.Series.Count

namespace TrafficBoard

/-!
# Downsample plans — the output grid of one pass, and the window that owns each instant

* `Plan.ofObserved` lays the grid over observed instants;
* `Plan.slotOf` is the place of the output point that owns an instant;
* `Plan.accumulate` adds samples up, one value for each output point.

An output point owns the instants from itself up to the next point, and the last one everything
after it. With a usable step, the grid starts at the first sample and advances by a multiple of the
step; the last sample is appended where the grid misses it. The multiple is the least one, from an
estimate on, whose grid fits the budget with the appended point. Without a usable step the observed
instants themselves are the grid.
-/

/-- The output grid of one pass over the samples. -/
structure Plan where
  /-- The sampling step, found or given. -/
  baseStep : Option Int
  /-- The multiple of the step that the grid advances by. -/
  factor : Int
  /-- The output instants, ascending. -/
  points : List Int
  deriving DecidableEq

namespace Plan

/-- The distance of grid points for a multiple of a step, kept to a signed word. -/
def windowOf (step factor : Int) : Int :=
  min (step * factor) Number.wordMax

/-- The number of grid points from the first to the last sample, and of the point to append. -/
def gridSize (span window : Int) : Int :=
  span / window + 1 + if span % window = 0 then 0 else 1

/-- Whether the grid of a multiple fits a number of points. -/
def fits (step span maxPoints factor : Int) : Bool :=
  gridSize span (windowOf step factor) ≤ maxPoints

/-- The first multiple that fits, from `factor` on. -/
def firstFitting (step span maxPoints : Int) : Nat → Int → Int
  | 0, factor => factor
  | fuel + 1, factor =>
    if fits step span maxPoints factor then factor
    else firstFitting step span maxPoints fuel (factor + 1)

/-- The multiple to start from: the points of the undivided grid over the points allowed. -/
def estimate (step span maxPoints : Int) : Int :=
  let predicted := span / step + 1
  if maxPoints < predicted then (predicted + maxPoints - 1) / maxPoints else 1

/-- The least multiple from the estimate on that fits. A multiple of more steps than the span holds
leaves two points, so the search ends there at the latest. -/
def factorFor (step span maxPoints : Int) : Int :=
  let start := estimate step span maxPoints
  firstFitting step span maxPoints (span / step + 2 - start).toNat start

/-- The points of a grid over a span, with the last sample appended where the grid misses it. -/
def grid (first last window : Int) : List Int :=
  let span := last - first
  let regular :=
    (List.range (span / window + 1).toNat).map fun (k : Nat) => first + (k : Int) * window
  if span % window = 0 then regular else regular ++ [last]

/-- The plan for ascending instants, with a step if there is one and a bound on the points, which is
meant to be below `2 ^ 63`: a signed word has to hold it. -/
def ofObserved (observed : List Int) (baseStep : Option Int) (maxPoints : Nat) : Plan :=
  match observed.head?, observed.getLast? with
  | some first, some last =>
    match baseStep with
    | some step =>
      if 0 < step ∧ first < last then
        let factor := factorFor step (last - first) (max maxPoints 2 : Nat)
        { baseStep, factor, points := grid first last (windowOf step factor) }
      else { baseStep, factor := 1, points := observed }
    | none => { baseStep, factor := 1, points := observed }
  | _, _ => { baseStep, factor := 1, points := [] }

/-- The distance of the grid points, where there is a step and more than one point. -/
def window (p : Plan) : Option Int :=
  if 1 < p.points.length then p.baseStep.map fun step => windowOf step p.factor else none

/-- The number of output points. -/
def size (p : Plan) : Nat :=
  p.points.length

/-- The place of the output point that owns an instant; instants before the first have none, and
neither has one that would have to be divided by a window of zero. -/
def slotOf (p : Plan) (time : Int) : Option Nat :=
  match p.points.head?, p.points.getLast? with
  | some first, some last =>
    if time < first then none
    else
      match p.window with
      | some window =>
        if last ≤ time then some (p.size - 1)
        else if window = 0 then none
        else
          let steps := (time - first).tdiv window
          some (if steps < 0 then p.size - 1 else min steps.toNat (p.size - 1))
      | none => some ((p.points.takeWhile fun t => t ≤ time).length - 1)
  | _, _ => none

variable {α : Type} [Count α]

/-- Adds a sample to the value of the point that owns its instant. -/
def addSample (p : Plan) (values : List α) (sample : Int × α) : List α :=
  match p.slotOf sample.1 with
  | some slot => values.modify slot fun v => Count.add v sample.2
  | none => values

/-- The sums of samples, one for each output point. -/
def accumulate (p : Plan) (samples : List (Int × α)) : List α :=
  samples.foldl p.addSample (List.replicate p.size Count.zero)

/-- There is one sum for each output point. -/
theorem length_accumulate (p : Plan) (samples : List (Int × α)) :
    (p.accumulate samples).length = p.size := by
  have step : ∀ (samples : List (Int × α)) (values : List α),
      (samples.foldl p.addSample values).length = values.length := by
    intro samples
    induction samples with
    | nil => intro values; rfl
    | cons sample rest ih =>
      intro values
      rw [List.foldl_cons, ih]
      unfold addSample
      split <;> simp
  rw [accumulate, step, List.length_replicate]

end Plan

end TrafficBoard
