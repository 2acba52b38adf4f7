import TrafficBoard.Dashboard.View
import TrafficBoard.Series.Check

namespace TrafficBoard

/-!
# View checks — the charts of a device against its samples

* `checkView` is the report on all charts of a device; a chart that has no item of the device is not
  checked.
-/

variable {α : Type} [Count α]

/-- The report on the two traffic lines of a device. -/
def checkTraffic (charts : Charts α) (mac : String) (views : ChartViews α) (rules : CheckRules α) :
    Report α :=
  match findDevice charts.traffic mac, views.traffic with
  | some item, [up, down] =>
    let raw := trafficBuckets item.stats
    Report.ofCounter "traffic.up" (raw.map fun b => (b.time, b.up)) up rules ++
      Report.ofCounter "traffic.down" (raw.map fun b => (b.time, b.down)) down rules
  | _, _ => .empty

/-- The report on one category of an item, if there is one. -/
def checkCategory {β : Type} (chart : String) (item : Option (DeviceItem (List β)))
    (buckets : List β → List (Bucket α)) (series : List (Series α)) (rules : CheckRules α) :
    Report α :=
  match item with
  | some item => Report.ofCategories chart (buckets item.stats) series rules
  | none => .empty

/-- The report on all charts of a device. -/
def checkView (charts : Charts α) (mac : String) (views : ChartViews α) (rules : CheckRules α) :
    Report α :=
  let domains := findDevice charts.domains mac
  let countries := findDevice charts.countries mac
  let protos := findDevice charts.protos mac
  checkTraffic charts mac views rules ++
    checkCategory "domains" domains domainBuckets views.domains rules ++
    checkCategory "countries" countries countryBuckets views.countries rules ++
    checkCategory "companies" countries companyBuckets views.companies rules ++
    checkCategory "protos" protos protoBuckets views.protos rules

end TrafficBoard
