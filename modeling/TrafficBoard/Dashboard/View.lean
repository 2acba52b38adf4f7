import TrafficBoard.Device.Basic
import TrafficBoard.Series.Gaps
import TrafficBoard.Series.Limit
import TrafficBoard.Series.Ranking

namespace TrafficBoard

/-!
# Device views — the charts and tables of one device

* `ChartViews.ofCharts` makes the charts and the rankings beside them, `TableViews.ofTables` the
  ranked tables;
* `tableRows` and `trafficTotals` read one table.

A view depends on the data of its own device only, and an unknown device has empty views.
-/

variable {α : Type} [Count α]

/-- The charts of a device, and the rankings over the same range. -/
structure ChartViews (α : Type) where
  traffic : List (Series α)
  domains : List (Series α)
  countries : List (Series α)
  companies : List (Series α)
  protos : List (Series α)
  topDomains : List (Row α)
  topCountries : List (Row α)
  topProtos : List (Row α)

/-- The rows of the ranking beside the chart of domains. -/
def topDomainRows : Nat := 12

/-- The rows of the ranking beside the chart of countries. -/
def topCountryRows : Nat := 10

/-- The rows of the ranking beside the chart of protocols. -/
def topProtoRows : Nat := 10

/-- The data of a device in a list of items; a device without an item has none. -/
def statsOf {β : Type} (items : List (DeviceItem (List β))) (mac : String) : List β :=
  ((findDevice items mac).map DeviceItem.stats).getD []

/-- The views of the charts of a device. The two traffic lines are there whenever the device has a
traffic item, even an empty one. -/
def ChartViews.ofCharts (charts : Charts α) (mac : String) (budget : Budget) : ChartViews α :=
  let domains := domainBuckets (statsOf charts.domains mac)
  let countries := countryBuckets (statsOf charts.countries mac)
  let companies := companyBuckets (statsOf charts.countries mac)
  let protos := protoBuckets (statsOf charts.protos mac)
  { traffic := match findDevice charts.traffic mac with
      | some item => { budget : GapFiller }.trafficSeries (trafficBuckets item.stats)
      | none => []
    domains := categoryTimeline domains .domains budget
    countries := categoryTimeline countries .countries budget
    companies := categoryTimeline companies .companies budget
    protos := categoryTimeline protos .protos budget
    topDomains := aggregateTop domains topDomainRows
    topCountries := aggregateTop countries topCountryRows
    topProtos := aggregateTop protos topProtoRows }

/-- The rows of a device in the table of a category, if the table is there. -/
def tableRows (table : Option (CategoryTable α)) (mac : String) (limit : Nat) : List (Row α) :=
  let item := table.bind fun items => findDevice items mac
  topRows (item.map fun item => item.stats.toCounts) limit

/-- The totals of a device in the traffic table, if both are there. -/
def trafficTotals (table : Option (TrafficTable α)) (mac : String) : Option (TrafficTotals α) :=
  let item := table.bind fun items => findDevice items mac
  item.map DeviceItem.stats

/-- The tables that are there. -/
structure TableSet (α : Type) where
  traffic : Option (TrafficTable α)
  domains : Option (CategoryTable α)
  countries : Option (CategoryTable α)
  protos : Option (CategoryTable α)

/-- The tables of a device. -/
structure TableViews (α : Type) where
  traffic : Option (TrafficTotals α)
  domains : List (Row α)
  countries : List (Row α)
  protos : List (Row α)

/-- The views of the tables of a device, with a number of rows or the default number. -/
def TableViews.ofTables (tables : TableSet α) (mac : String) (limit : Option Nat) :
    TableViews α :=
  let limit := limit.getD defaultTableLimit
  { traffic := trafficTotals tables.traffic mac
    domains := tableRows tables.domains mac limit
    countries := tableRows tables.countries mac limit
    protos := tableRows tables.protos mac limit }

end TrafficBoard
