import TrafficBoard.Dashboard.Session
import TrafficBoard.Json.Printer
import TrafficBoard.Range.Selection

namespace TrafficBoard

/-!
# View documents — what the dashboard shows, as a document

* `DashboardView.members` are the members of the document of a view;
* the documents of its parts stand beside their types.

Every document takes the way in which counts are written as an argument.
-/

variable {α : Type}

/-- The document of a series: its points are pairs of milliseconds and value. -/
def Series.toJson (encode : α → Json) (s : Series α) : Json :=
  .object
    [("name", .text s.name),
      ("points", .ofList (fun p => .array [.ofInt p.1, encode p.2]) s.points)]

/-- The document of a row. -/
def Row.toJson (encode : α → Json) (r : Row α) : Json :=
  .object [("key", .text r.key), ("value", encode r.value)]

/-- The document of the traffic of a device. -/
def TrafficTotals.toJson (encode : α → Json) (t : TrafficTotals α) : Json :=
  .object [("up_bytes", encode t.up), ("down_bytes", encode t.down)]

/-- The document of a device. -/
def Device.toJson (d : Device) : Json :=
  .object
    [("mac", .text d.mac), ("ip", .ofOption .text d.ip), ("label", .ofOption .text d.label),
      ("hostname", .ofOption .text d.hostname)]

/-- The document of the charts of a device. -/
def ChartViews.toJson (encode : α → Json) (v : ChartViews α) : Json :=
  let series := Json.ofList (Series.toJson encode)
  let rows := Json.ofList (Row.toJson encode)
  .object
    [("traffic", series v.traffic), ("domains", series v.domains),
      ("countries", series v.countries), ("companies", series v.companies),
      ("protos", series v.protos), ("top_domains", rows v.topDomains),
      ("top_countries", rows v.topCountries), ("top_protos", rows v.topProtos)]

/-- The document of the tables of a device; unknown traffic is left out. -/
def TableViews.toJson (encode : α → Json) (v : TableViews α) : Json :=
  let rows := Json.ofList (Row.toJson encode)
  .object
    ((v.traffic.map fun t => ("traffic", t.toJson encode)).toList ++
      [("domains", rows v.domains), ("countries", rows v.countries), ("protos", rows v.protos)])

/-- The members of the document of a view; without errors that member is left out. -/
def DashboardView.members (encode : α → Json) (v : DashboardView α) : List (String × Json) :=
  [("range", v.range.toJson), ("generation", .ofInt v.generation),
    ("charts_stale", .bool v.chartsStale), ("charts", v.charts.toJson encode),
    ("tables", v.tables.toJson encode)] ++
    if v.errors.isEmpty then [] else [("errors", .ofList .text v.errors)]

/-- The document of a view. -/
def DashboardView.toJson (encode : α → Json) (v : DashboardView α) : Json :=
  .object (v.members encode)

end TrafficBoard
