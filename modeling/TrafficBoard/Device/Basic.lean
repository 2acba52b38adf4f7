import TrafficBoard.Json.Basic
import TrafficBoard.Series.Basic

namespace TrafficBoard

/-!
# Device data — what the data service reports for each monitored device

* `Device` names a device, `DeviceItem` pairs it with its data;
* `CategoryField` is a category in whichever shape it was sent, `CategoryField.toCounts` its counts;
* `TrafficSample`, `DomainSample`, `CountrySample` and `ProtoSample` are the samples of the four
  charts, `Charts` all charts of one refresh;
* `TrafficTotals` and `CategoryField` are the data of the tables, `Table` one table of a kind.
-/

/-- A monitored device. -/
structure Device where
  mac : String
  ip : Option String
  label : Option String
  hostname : Option String
  deriving DecidableEq

namespace Device

/-- A device of which only the address is known. -/
def ofMac (mac : String) : Device where
  mac := mac
  ip := none
  label := none
  hostname := none

instance : Inhabited Device := ⟨ofMac ""⟩

/-- The name to show: the label, else the host name, else the address; empty ones do not count. -/
def displayName (d : Device) : String :=
  (([d.label, d.hostname].filterMap id).find? fun s => !s.isEmpty).getD d.mac

end Device

/-- A device with its data. -/
structure DeviceItem (β : Type) where
  device : Device
  stats : β

/-- The item of the first device with an address. -/
def findDevice {β : Type} (items : List (DeviceItem β)) (mac : String) : Option (DeviceItem β) :=
  items.find? fun item => item.device.mac = mac

/-- A category in the shape in which it was sent. -/
inductive CategoryField (α : Type) where
  /-- Labels with counts, of which some may be missing; no label repeats. -/
  | counts (entries : List (String × Option α))
  /-- Labels, each of which counts once for every mention. -/
  | labels (mentions : List String)
  | missing
  | other (value : Json)

variable {α : Type} [Count α]

/-- The counts of a category; a missing count is zero, and an unknown shape has no labels. -/
def CategoryField.toCounts : CategoryField α → CountMap α
  | .counts entries => .ofPairs (entries.map fun entry => (entry.1, entry.2.getD Count.zero))
  | .labels mentions => .ofPairs (mentions.map fun label => (label, Count.one))
  | .missing => .empty
  | .other _ => .empty

/-- A sample of the traffic of a device. -/
structure TrafficSample (α : Type) where
  time : Int
  up : Option α
  down : Option α
  requests : Option α

/-- A sample of the domains that a device asked for. -/
structure DomainSample (α : Type) where
  time : Int
  domains : CategoryField α
  requests : Option α

/-- A sample of the countries and companies that a device talked to. -/
structure CountrySample (α : Type) where
  time : Int
  countries : CategoryField α
  companies : CategoryField α
  requests : Option α

/-- A sample of the protocols that a device used. -/
structure ProtoSample (α : Type) where
  time : Int
  protos : CategoryField α
  requests : Option α

/-- The charts of one refresh. -/
structure Charts (α : Type) where
  traffic : List (DeviceItem (List (TrafficSample α)))
  domains : List (DeviceItem (List (DomainSample α)))
  countries : List (DeviceItem (List (CountrySample α)))
  protos : List (DeviceItem (List (ProtoSample α)))

/-- The traffic of a device in a range. -/
structure TrafficTotals (α : Type) where
  up : α
  down : α

/-- The four tables. -/
inductive TableKind where
  | traffic
  | domains
  | countries
  | protos
  deriving DecidableEq

namespace TableKind

/-- The tables in the order in which they are shown. -/
def all : List TableKind :=
  [.traffic, .domains, .countries, .protos]

/-- The name of a table. -/
def label : TableKind → String
  | .traffic => "traffic"
  | .domains => "domains"
  | .countries => "countries"
  | .protos => "protos"

/-- The table of a name. -/
def ofLabel? (s : String) : Option TableKind :=
  all.find? fun k => k.label = s

end TableKind

/-- The table of the traffic of every device. -/
abbrev TrafficTable (α : Type) := List (DeviceItem (TrafficTotals α))

/-- The table of a category of every device. -/
abbrev CategoryTable (α : Type) := List (DeviceItem (CategoryField α))

/-- One table of a kind. -/
inductive Table (α : Type) where
  | traffic (items : TrafficTable α)
  | domains (items : CategoryTable α)
  | countries (items : CategoryTable α)
  | protos (items : CategoryTable α)

/-- The kind of a table. -/
def Table.kind : Table α → TableKind
  | .traffic _ => .traffic
  | .domains _ => .domains
  | .countries _ => .countries
  | .protos _ => .protos

/-! ### Samples as buckets -/

/-- The traffic samples as buckets; samples before 1970 are dropped. -/
def trafficBuckets (samples : List (TrafficSample α)) : List (CounterBucket α) :=
  (samples.filter fun s => 0 ≤ s.time).map fun s =>
    { time := s.time, up := s.up.getD Count.zero, down := s.down.getD Count.zero }

/-- The samples of a category as buckets; samples before 1970 are dropped. -/
def categoryBuckets {β : Type} (time : β → Int) (category : β → CategoryField α)
    (samples : List β) : List (Bucket α) :=
  (samples.filter fun s => 0 ≤ time s).map fun s =>
    { time := time s, counts := (category s).toCounts }

/-- The buckets of domains. -/
def domainBuckets (samples : List (DomainSample α)) : List (Bucket α) :=
  categoryBuckets DomainSample.time DomainSample.domains samples

/-- The buckets of countries. -/
def countryBuckets (samples : List (CountrySample α)) : List (Bucket α) :=
  categoryBuckets CountrySample.time CountrySample.countries samples

/-- The buckets of companies. -/
def companyBuckets (samples : List (CountrySample α)) : List (Bucket α) :=
  categoryBuckets CountrySample.time CountrySample.companies samples

/-- The buckets of protocols. -/
def protoBuckets (samples : List (ProtoSample α)) : List (Bucket α) :=
  categoryBuckets ProtoSample.time ProtoSample.protos samples

namespace Charts

/-- No charts. -/
def empty : Charts α where
  traffic := []
  domains := []
  countries := []
  protos := []

instance : Inhabited (Charts α) := ⟨empty⟩

/-- The items with the samples that a test keeps; an item left with none is dropped. -/
def scopeItems {β : Type} (keep : β → Bool) (items : List (DeviceItem (List β))) :
    List (DeviceItem (List β)) :=
  (items.map fun item => { item with stats := item.stats.filter keep }).filter fun item =>
    !item.stats.isEmpty

/-- Whether an instant in seconds lies in a window. -/
def inWindow (fromSec toSec time : Int) : Bool :=
  fromSec ≤ time && time < toSec

/-- The charts with the samples of a window only. -/
def scopedTo (charts : Charts α) (fromSec toSec : Int) : Charts α where
  traffic := scopeItems (fun s => inWindow fromSec toSec s.time) charts.traffic
  domains := scopeItems (fun s => inWindow fromSec toSec s.time) charts.domains
  countries := scopeItems (fun s => inWindow fromSec toSec s.time) charts.countries
  protos := scopeItems (fun s => inWindow fromSec toSec s.time) charts.protos

/-- The devices of the charts, chart by chart. -/
def devices (charts : Charts α) : List Device :=
  charts.traffic.map DeviceItem.device ++ charts.domains.map DeviceItem.device ++
    charts.countries.map DeviceItem.device ++ charts.protos.map DeviceItem.device

/-- The first device of an address. -/
def device? (charts : Charts α) (mac : String) : Option Device :=
  charts.devices.find? fun d => d.mac = mac

end Charts

end TrafficBoard
