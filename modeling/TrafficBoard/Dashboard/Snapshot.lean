import TrafficBoard.Dashboard.Source
import TrafficBoard.Device.Decode

namespace TrafficBoard

/-!
# Snapshots — a directory of captured documents as a source

* `Snapshot.source` reads the charts from `charts` and the tables from `tables` below a directory.

A chart without a file has no items, while a table without a file is an error. What is no item is
skipped, and the samples of charts are cut to the window.
-/

namespace Snapshot

/-- The generic value of a file. -/
def document (tree : FileTree) (path : Path) : Except SourceError Json :=
  match tree.read path with
  | .error fault => .error (.unreadable path fault)
  | .ok text =>
    match Json.generic? text with
    | some value => .ok value
    | none => .error (.undecodable path)

/-- The path of a document of some kind below a directory. -/
def documentPath (root : Path) (directory : String) (name : String) : Path :=
  (root.join directory).join (name ++ ".json")

/-- The items of one chart. -/
def chart {β : Type} (tree : FileTree) (root : Path) (read : Json → List (DeviceItem β))
    (name : String) : Except SourceError (List (DeviceItem β)) :=
  let path := documentPath root "charts" name
  if tree.contains path then (document tree path).map read else .ok []

/-- The charts of all time. -/
def charts (tree : FileTree) (root : Path) : Except SourceError (Charts Number.Double) := do
  let traffic ← chart tree root trafficChart "traffic"
  let domains ← chart tree root domainChart "domains"
  let countries ← chart tree root countryChart "countries"
  let protos ← chart tree root protoChart "protos"
  return { traffic, domains, countries, protos }

/-- One table. -/
def table (tree : FileTree) (root : Path) (kind : TableKind) :
    Except SourceError (Table Number.Double) :=
  (document tree (documentPath root "tables" kind.label)).map (Table.ofGeneric kind)

/-- The documents below a directory as a source. -/
def source (tree : FileTree) (root : Path) : Source Number.Double where
  charts fromSec toSec := (charts tree root).map fun c => c.scopedTo fromSec toSec
  table kind _ _ := table tree root kind

end Snapshot

end TrafficBoard
