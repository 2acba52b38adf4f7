import TrafficBoard.Dashboard.Document
import TrafficBoard.Label
import TrafficBoard.Series.Check
import TrafficBoard.Text.Digit

namespace TrafficBoard.Command

/-!
# Printed views — what a rendering shows, for people and as a document

* `Rendering` is a view with its device and the report on it;
* `Rendering.lines` is the text for people, `Rendering.toJson` the document;
* `rankingLines` are the lines of a ranking alone.
-/

/-- The counts that are printed. -/
abbrev Printed := Number.Double

/-- A view with its device and the report on it. -/
structure Rendering where
  device : Option Device
  view : DashboardView Printed
  report : Option (Report Printed)

/-- The lines of a text, each with its end. -/
def unlines (lines : List String) : String :=
  String.join (lines.map fun line => line ++ "\n")

/-- The lines of a ranking, the keys padded to a common width. -/
def rankingLines (rows : List (Row Printed)) : List String :=
  let width := (rows.map fun r => r.key.length).foldl max 0
  rows.map fun r => Text.padRight width r.key ++ "  " ++ Label.number r.value

/-- The line of the range. -/
def rangeLine (v : DashboardView Printed) : String :=
  "range    " ++ Label.dateTimeOf v.range.fromMs ++ " .. " ++ Label.dateTimeOf v.range.toMs ++
    "  (generation " ++ toString v.generation ++ ")"

/-- The line of the device. -/
def deviceLine : Option Device → String
  | some d => "device   " ++ d.displayName ++ " [" ++ d.mac ++ "]"
  | none => "device   (none)"

/-- The line of the traffic, if both of its series are there. -/
def trafficLines : List (Series Printed) → List String
  | [up, down] =>
    ["traffic  up " ++ Label.bytes up.total ++ "  down " ++ Label.bytes down.total ++ "  (" ++
      toString up.size ++ " points)"]
  | _ => []

/-- The line of the series of a category. -/
def seriesLine (label : String) (series : List (Series Printed)) : String :=
  let names := series.map fun s => s.name ++ " (" ++ Label.compact s.total ++ ")"
  Text.padRight 9 label ++ toString series.length ++ " series: " ++ String.intercalate ", " names

/-- The lines of a ranking with its title; an empty ranking has none. -/
def rowLines (title : String) (rows : List (Row Printed)) : List String :=
  if rows.isEmpty then []
  else title :: rows.map fun r => "  " ++ Text.padRight 32 r.key ++ " " ++ Label.number r.value

/-- The line of the totals, if they are known. -/
def totalsLines : Option (TrafficTotals Printed) → List String
  | some t => ["totals   up " ++ Label.bytes t.up ++ "  down " ++ Label.bytes t.down]
  | none => []

/-- The lines of a report: the checks that failed, or that none did. -/
def reportLines : Option (Report Printed) → List String
  | some r =>
    (r.failed.map fun c => "check    FAIL " ++ c.label ++ ": " ++ c.finding.details) ++
      if r.allOk then ["check    ok (" ++ toString r.checks.length ++ " checks)"] else []
  | none => []

namespace Rendering

/-- The lines of the charts. -/
def chartLines (v : ChartViews Printed) : List String :=
  trafficLines v.traffic ++
    [seriesLine "domains" v.domains, seriesLine "countries" v.countries,
      seriesLine "companies" v.companies, seriesLine "protos" v.protos]

/-- The lines of the rankings. -/
def rankings (v : DashboardView Printed) : List String :=
  rowLines "top domains" v.charts.topDomains ++ rowLines "top countries" v.charts.topCountries ++
    rowLines "top protos" v.charts.topProtos ++ rowLines "table domains" v.tables.domains ++
    rowLines "table countries" v.tables.countries ++ rowLines "table protos" v.tables.protos

/-- The text for people, line by line. -/
def lines (r : Rendering) : List String :=
  [rangeLine r.view, deviceLine r.device] ++ chartLines r.view.charts ++ rankings r.view ++
    totalsLines r.view.tables.traffic ++
    (r.view.errors.map fun e => "error    " ++ e) ++ reportLines r.report

/-- The document of a rendering. -/
def toJson (r : Rendering) : Json :=
  .object
    ((r.device.map fun d => ("device", d.toJson)).toList ++ r.view.members Json.ofDouble ++
      (r.report.map fun report => ("validation", report.toJson Json.ofDouble)).toList)

/-- What is printed of a rendering. -/
def print (json : Bool) (r : Rendering) : String :=
  if json then r.toJson.render ++ "\n" else unlines r.lines

end Rendering

end TrafficBoard.Command
