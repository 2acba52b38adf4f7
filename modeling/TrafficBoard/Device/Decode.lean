import TrafficBoard.Device.Basic
import TrafficBoard.Json.Decode
import TrafficBoard.Json.Parser

namespace TrafficBoard

/-!
# Reading device data — from documents to charts and tables

* `deviceItems` reads the items of a generic value and skips what is no item;
* `CategoryField.ofJson?` reads a category, `Charts.ofJson?` the charts of a refresh and
  `Table.ofJson?` a table with its kind.

Data of the wrong shape degrade to their default instead of failing: an item whose device or data
cannot be read has an empty device or no data, and a list that is no list has no items.
-/

open Json

/-- The doubles that documents give. -/
private abbrev Value := Number.Double

/-- The device of a document. -/
def Device.ofJson? (document : Json) : Option Device := do
  match ← record ["mac", "ip", "label", "hostname"] document with
  | [mac, ip, label, hostname] =>
    let mac ← field asText "" mac
    let ip ← field (orNull asText) none ip
    let label ← field (orNull asText) none label
    let hostname ← field (orNull asText) none hostname
    return { mac, ip, label, hostname }
  | _ => none

/-- The item of a document; a device or data that cannot be read are replaced by their default. -/
def DeviceItem.ofJson? {β : Type} (decode : Json → Option β) (default : β) (document : Json) :
    Option (DeviceItem β) := do
  match ← record ["device", "stats"] document with
  | [device, stats] =>
    let device ← lenient Device.ofJson? (.ofMac "") device
    let stats ← lenient decode default stats
    return { device, stats }
  | _ => none

/-- The items of a list; what is no item is skipped, and what is no list has none. -/
def deviceItems {β : Type} (decode : Json → Option β) (default : β) : Json →
    List (DeviceItem β)
  | .array items => items.filterMap (DeviceItem.ofJson? decode default)
  | _ => []

/-! ### Categories -/

/-- Puts a count to the first place of its label, or last if the label is new. -/
def setCount {α : Type} (label : String) (count : Option α) :
    List (String × Option α) → List (String × Option α)
  | [] => [(label, count)]
  | (other, c) :: rest =>
    if other = label then (other, count) :: rest else (other, c) :: setCount label count rest

/-- The counts of the members of an object, if all of them are numbers or null; a repeated label
keeps its first place with its last count. -/
def countsOf? (members : List (String × Json)) : Option (List (String × Option Value)) :=
  members.foldlM
    (fun entries m => (orNull asReal m.2).map fun count => setCount m.1 count entries) []

/-- The category of a document, the first of these that fits: counts, labels, nothing, other. -/
def CategoryField.ofJson? (document : Json) : Option (CategoryField Value) :=
  document.canonical.map fun generic =>
    match document with
    | .object members =>
      match countsOf? members with
      | some entries => .counts entries
      | none => .other generic
    | .array items =>
      match items.mapM asText with
      | some mentions => .labels mentions
      | none => .other generic
    | .null => .missing
    | _ => .other generic

/-! ### Charts -/

/-- The traffic sample of a document. -/
def TrafficSample.ofJson? (document : Json) : Option (TrafficSample Value) := do
  match ← record ["bucket", "up_bytes", "down_bytes", "req_count"] document with
  | [time, up, down, requests] =>
    let time ← field asWhole 0 time
    let up ← field (orNull asReal) none up
    let down ← field (orNull asReal) none down
    let requests ← field (orNull asReal) none requests
    return { time, up, down, requests }
  | _ => none

/-- The domain sample of a document. -/
def DomainSample.ofJson? (document : Json) : Option (DomainSample Value) := do
  match ← record ["bucket", "domains", "req_count"] document with
  | [time, domains, requests] =>
    let time ← field asWhole 0 time
    let domains ← field CategoryField.ofJson? .missing domains
    let requests ← field (orNull asReal) none requests
    return { time, domains, requests }
  | _ => none

/-- The country sample of a document. -/
def CountrySample.ofJson? (document : Json) : Option (CountrySample Value) := do
  match ← record ["bucket", "countries", "companies", "req_count"] document with
  | [time, countries, companies, requests] =>
    let time ← field asWhole 0 time
    let countries ← field CategoryField.ofJson? .missing countries
    let companies ← field CategoryField.ofJson? .missing companies
    let requests ← field (orNull asReal) none requests
    return { time, countries, companies, requests }
  | _ => none

/-- The protocol sample of a document. -/
def ProtoSample.ofJson? (document : Json) : Option (ProtoSample Value) := do
  match ← record ["bucket", "protos", "req_count"] document with
  | [time, protos, requests] =>
    let time ← field asWhole 0 time
    let protos ← field CategoryField.ofJson? .missing protos
    let requests ← field (orNull asReal) none requests
    return { time, protos, requests }
  | _ => none

/-- The items of the traffic chart of a generic value. -/
def trafficChart (generic : Json) : List (DeviceItem (List (TrafficSample Value))) :=
  deviceItems (asList TrafficSample.ofJson?) [] generic

/-- The items of the domain chart of a generic value. -/
def domainChart (generic : Json) : List (DeviceItem (List (DomainSample Value))) :=
  deviceItems (asList DomainSample.ofJson?) [] generic

/-- The items of the country chart of a generic value. -/
def countryChart (generic : Json) : List (DeviceItem (List (CountrySample Value))) :=
  deviceItems (asList CountrySample.ofJson?) [] generic

/-- The items of the protocol chart of a generic value. -/
def protoChart (generic : Json) : List (DeviceItem (List (ProtoSample Value))) :=
  deviceItems (asList ProtoSample.ofJson?) [] generic

/-- The items of a field, read through its generic value; a missing field has none. -/
def chartField {β : Type} (chart : Json → List (DeviceItem β)) :
    Option Json → Option (List (DeviceItem β))
  | some v => v.canonical.map chart
  | none => some []

/-- The charts of a document. -/
def Charts.ofJson? (document : Json) : Option (Charts Value) := do
  match ← record ["traffic", "domains", "countries", "protos"] document with
  | [traffic, domains, countries, protos] =>
    let traffic ← chartField trafficChart traffic
    let domains ← chartField domainChart domains
    let countries ← chartField countryChart countries
    let protos ← chartField protoChart protos
    return { traffic, domains, countries, protos }
  | _ => none

/-! ### Tables -/

/-- The traffic totals of a document; a total that cannot be read is zero. -/
def TrafficTotals.ofJson? (document : Json) : Option (TrafficTotals Value) := do
  match ← record ["up_bytes", "down_bytes"] document with
  | [up, down] =>
    let up ← lenient asReal .zero up
    let down ← lenient asReal .zero down
    return { up, down }
  | _ => none

/-- The item of a traffic table. -/
def trafficItem? : Json → Option (DeviceItem (TrafficTotals Value)) :=
  DeviceItem.ofJson? TrafficTotals.ofJson? { up := .zero, down := .zero }

/-- The item of a category table. -/
def categoryItem? : Json → Option (DeviceItem (CategoryField Value)) :=
  DeviceItem.ofJson? CategoryField.ofJson? .missing

/-- The traffic table of a generic value. -/
def trafficTable (generic : Json) : TrafficTable Value :=
  deviceItems TrafficTotals.ofJson? { up := .zero, down := .zero } generic

/-- The category table of a generic value. -/
def categoryTable (generic : Json) : CategoryTable Value :=
  deviceItems CategoryField.ofJson? .missing generic

/-- The table of a kind of a generic value. -/
def Table.ofGeneric (kind : TableKind) (generic : Json) : Table Value :=
  match kind with
  | .traffic => .traffic (trafficTable generic)
  | .domains => .domains (categoryTable generic)
  | .countries => .countries (categoryTable generic)
  | .protos => .protos (categoryTable generic)

/-- The table of a kind whose items all have to be items. -/
def Table.ofItems? (kind : TableKind) (items : Json) : Option (Table Value) :=
  match kind with
  | .traffic => (asList trafficItem? items).map .traffic
  | .domains => (asList categoryItem? items).map .domains
  | .countries => (asList categoryItem? items).map .countries
  | .protos => (asList categoryItem? items).map .protos

/-- Whether every part of a value can be read. -/
def isReadable (v : Json) : Bool :=
  v.canonical.isSome

/-- Whether the items of a table stand before its kind, so that they are kept until it is known. -/
def itemsFirst : List (String × Json) → Bool
  | (name, _) :: rest =>
    if name = "items" then true else if name = "kind" then false else itemsFirst rest
  | [] => false

/-- The table of a document, which names its kind and lists its items. Items that stand before the
kind have to be readable in every part. -/
def Table.ofJson? (document : Json) : Option (Table Value) := do
  match document, ← record ["kind", "items"] document with
  | .object members, [some kind, some items] =>
    let kind ← tagged TableKind.ofLabel? kind
    if itemsFirst members && !isReadable items then none else Table.ofItems? kind items
  | .array _, [some kind, some items] =>
    let kind ← tagged TableKind.ofLabel? kind
    Table.ofItems? kind items
  | _, _ => none

end TrafficBoard
