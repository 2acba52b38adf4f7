import TrafficBoard.Json.Printer
import TrafficBoard.Series.Basic

namespace TrafficBoard

/-!
# Output checks — do the series keep to the budget, ascend, and keep every total?

* `Finding` is what one check found, `Check` a finding about a chart;
* `Drift` is a series whose total moved away from the raw total by more than the threshold;
* `Report.ofCategories` and `Report.ofCounter` check the series of a chart against its raw samples;
* `Report.toJson` is the document of a report.
-/

variable {α : Type} [Count α]

/-- How much a failed check matters. -/
inductive Severity where
  | info
  | warning
  | error
  deriving DecidableEq

/-- The name of a severity. -/
def Severity.label : Severity → String
  | .info => "info"
  | .warning => "warning"
  | .error => "error"

/-- What one check found. -/
inductive Finding where
  /-- The points of the longest series, and how many are allowed. -/
  | pointsPerSeries (longest limit : Nat)
  /-- The points of all series, the number of series, and how many points are allowed. -/
  | totalPoints (total seriesCount limit : Nat)
  /-- The series whose instants do not ascend. -/
  | ascending (unordered : List String)
  /-- The number of series whose total drifted. -/
  | massPreserved (drifted : Nat)
  deriving DecidableEq

namespace Finding

/-- The name of the check. -/
def label : Finding → String
  | .pointsPerSeries .. => "points_per_series"
  | .totalPoints .. => "total_points"
  | .ascending _ => "ascending"
  | .massPreserved _ => "mass_preserved"

/-- Whether the check passed. -/
def ok : Finding → Bool
  | .pointsPerSeries longest limit => longest ≤ limit
  | .totalPoints total _ limit => total ≤ limit
  | .ascending unordered => unordered.isEmpty
  | .massPreserved drifted => drifted = 0

/-- How much the finding matters: not at all where the check passed. -/
def severity (f : Finding) : Severity :=
  if f.ok then .info
  else
    match f with
    | .ascending _ => .warning
    | _ => .error

/-- The finding in words. -/
def details : Finding → String
  | .pointsPerSeries longest limit =>
    "longest series has " ++ toString longest ++ " points (limit " ++ toString limit ++ ")"
  | .totalPoints total seriesCount limit =>
    toString total ++ " points across " ++ toString seriesCount ++ " series (limit " ++
      toString limit ++ ")"
  | .ascending unordered =>
    if unordered.isEmpty then "timestamps strictly ascending"
    else "out-of-order timestamps in: " ++ String.intercalate ", " unordered
  | .massPreserved drifted =>
    if drifted = 0 then "every series sums to its raw total"
    else toString drifted ++ " series drifted from their raw totals"

/-- What to do about the finding, where there is something to do. -/
def suggestion? (f : Finding) : Option String :=
  match f with
  | .massPreserved drifted =>
    if drifted = 0 then none
    else some "check for raw samples before the first bucket of the range"
  | _ => none

end Finding

/-- A finding about a chart. -/
structure Check where
  chart : String
  finding : Finding
  deriving DecidableEq

namespace Check

/-- The chart and the check. -/
def label (c : Check) : String :=
  c.chart ++ "." ++ c.finding.label

/-- Whether the check passed. -/
def ok (c : Check) : Bool :=
  c.finding.ok

end Check

/-- A series whose total moved away from the raw total. -/
structure Drift (α : Type) where
  chart : String
  series : String
  rawTotal : α
  outputTotal : α
  delta : α
  deriving DecidableEq

/-- What the output is checked against. -/
structure CheckRules (α : Type) where
  budget : Budget := {}
  /-- The greatest difference of two totals that counts as none. -/
  threshold : α

/-- The checks of the output with the drifts that they found. -/
structure Report (α : Type) where
  checks : List Check
  drift : List (Drift α)

namespace Report

/-- A report of nothing. -/
def empty : Report α where
  checks := []
  drift := []

/-- Two reports, one after the other. -/
def append (r s : Report α) : Report α where
  checks := r.checks ++ s.checks
  drift := r.drift ++ s.drift

instance : Append (Report α) := ⟨append⟩

/-- The checks that did not pass. -/
def failed (r : Report α) : List Check :=
  r.checks.filter fun c => !c.ok

/-- Whether every check passed. -/
def allOk (r : Report α) : Bool :=
  r.checks.all Check.ok

/-- The number of checks of a severity that did not pass. -/
def countFailed (r : Report α) (severity : Severity) : Nat :=
  (r.failed.filter fun c => c.finding.severity = severity).length

end Report

/-- Whether the instants of points ascend strictly. -/
def ascends : List (Int × α) → Bool
  | p :: q :: rest => p.1 < q.1 && ascends (q :: rest)
  | _ => true

/-- The number of points of the longest series. -/
def longest (series : List (Series α)) : Nat :=
  (series.map Series.size).foldl max 0

/-- The number of points of all series. -/
def pointCount (series : List (Series α)) : Nat :=
  (series.map Series.size).foldr (· + ·) 0

/-- The findings about the shape of the series of a chart. -/
def shapeFindings (series : List (Series α)) (budget : Budget) : List Finding :=
  [.pointsPerSeries (longest series) budget.maxTimelinePoints,
    .totalPoints (pointCount series) series.length budget.maxTotalPoints,
    .ascending ((series.filter fun s => !ascends s.points).map Series.name)]

/-- The drift of a series from a raw total, if it is above the threshold. -/
def drift? (chart : String) (rules : CheckRules α) (s : Series α) (rawTotal : α) :
    Option (Drift α) :=
  let delta := Count.sub s.total rawTotal
  if Count.exceeds delta rules.threshold then
    some { chart, series := s.name, rawTotal, outputTotal := s.total, delta }
  else none

/-- The total of the raw counts of a label. -/
def rawTotal (raw : List (Bucket α)) (label : String) : α :=
  Count.sum (raw.filterMap fun b => b.counts.get? label)

/-- The report on the shape of a chart and on the drifts of its series. -/
def Report.ofFindings (chart : String) (rules : CheckRules α) (series : List (Series α))
    (drift : List (Drift α)) : Report α where
  checks :=
    (shapeFindings series rules.budget ++ [Finding.massPreserved drift.length]).map fun f =>
      ⟨chart, f⟩
  drift := drift

/-- The report on the series of a category against its buckets. -/
def Report.ofCategories (chart : String) (raw : List (Bucket α)) (series : List (Series α))
    (rules : CheckRules α) : Report α :=
  .ofFindings chart rules series
    (series.filterMap fun s => drift? chart rules s (rawTotal raw s.name))

/-- The report on the series of a counter against its samples. -/
def Report.ofCounter (chart : String) (raw : List (Int × α)) (s : Series α)
    (rules : CheckRules α) : Report α :=
  .ofFindings chart rules [s] (drift? chart rules s (Count.sum (raw.map Prod.snd))).toList

/-- The threshold for doubles, above the noise of rounding. -/
def noiseThreshold : Number.Double :=
  .ofDecimal 1 (-6)

/-- The document of a check, its members by name. -/
def Check.toJson (c : Check) : Json :=
  .object
    ([("details", .text c.finding.details), ("id", .text c.label), ("ok", .bool c.ok),
      ("severity", .text c.finding.severity.label)] ++
      (c.finding.suggestion?.map fun s => ("suggested_action", Json.text s)).toList)

/-- The document of a drift, its members by name. -/
def Drift.toJson (encode : α → Json) (d : Drift α) : Json :=
  .object
    [("chart", .text d.chart), ("delta", encode d.delta), ("output_total", encode d.outputTotal),
      ("raw_total", encode d.rawTotal), ("series", .text d.series)]

/-- The document of a report, its members by name. -/
def Report.toJson (encode : α → Json) (r : Report α) : Json :=
  .object
    [("checks", .ofList Check.toJson r.checks), ("drift", .ofList (Drift.toJson encode) r.drift),
      ("failures", .ofInt r.failed.length), ("ok", .bool r.allOk)]

end TrafficBoard
