import TrafficBoard.Json.Decode
import TrafficBoard.Json.Parser
import TrafficBoard.Json.Printer
import TrafficBoard.Range.Preset
import TrafficBoard.Range.TimeRange

namespace TrafficBoard

/-!
# Selections — what is kept of a range between two sessions

* `Selection` holds the mode with the stored state of all three modes;
* `Selection.toJson` and `ofJson?` are its document, `render` and `parse?` the text of that.

A document may leave out any field, which then has its default; it may also list the fields by
position.
-/

/-- The selected range with the stored state of every mode. -/
structure Selection where
  version : Nat
  preset : Preset
  mode : RangeMode
  fromExpr : String
  toExpr : String
  absoluteFrom : Option Int
  absoluteTo : Option Int
  deriving DecidableEq

namespace Selection

/-- The version of the documents that are written and understood. -/
def currentVersion : Nat := 1

/-- The first natural number past the versions. -/
def versionLimit : Nat := 0x100000000

/-- The last 24 hours. -/
def standard : Selection where
  version := currentVersion
  preset := .last24Hours
  mode := .preset
  fromExpr := "now-24h"
  toExpr := "now"
  absoluteFrom := none
  absoluteTo := none

instance : Inhabited Selection := ⟨standard⟩

/-- The names of the fields of a document, in order. -/
def fieldNames : List String :=
  ["v", "preset", "range_mode", "from_expr", "to_expr", "absolute_from_ms", "absolute_to_ms"]

/-- The document of a selection. -/
def toJson (s : Selection) : Json :=
  .object
    [("v", .ofInt s.version), ("preset", .text s.preset.label),
      ("range_mode", .text s.mode.label), ("from_expr", .text s.fromExpr),
      ("to_expr", .text s.toExpr), ("absolute_from_ms", .ofOption .ofInt s.absoluteFrom),
      ("absolute_to_ms", .ofOption .ofInt s.absoluteTo)]

/-- The selection of a document. -/
def ofJson? (document : Json) : Option Selection := do
  match ← Json.record fieldNames document with
  | [v, preset, mode, fromExpr, toExpr, absoluteFrom, absoluteTo] =>
    let version ← Json.field (Json.asSize versionLimit) standard.version v
    let preset ← Json.field (Json.tagged Preset.ofLabel?) standard.preset preset
    let mode ← Json.field (Json.tagged RangeMode.ofLabel?) standard.mode mode
    let fromExpr ← Json.field Json.asText standard.fromExpr fromExpr
    let toExpr ← Json.field Json.asText standard.toExpr toExpr
    let absoluteFrom ← Json.field (Json.orNull Json.asWhole) none absoluteFrom
    let absoluteTo ← Json.field (Json.orNull Json.asWhole) none absoluteTo
    return { version, preset, mode, fromExpr, toExpr, absoluteFrom, absoluteTo }
  | _ => none

/-- The text that is stored for a selection. -/
def render (s : Selection) : String :=
  s.toJson.render

/-- The selection of a text. -/
def parse? (text : String) : Option Selection :=
  (Json.parse? text).bind ofJson?

end Selection

namespace TimeRange

/-- The document of a range. -/
def toJson (r : TimeRange) : Json :=
  .object [("from_ms", .ofInt r.fromMs), ("to_ms", .ofInt r.toMs)]

/-- The range of a document, both bounds given and in order. -/
def ofJson? (document : Json) : Option TimeRange := do
  match ← Json.record ["from_ms", "to_ms"] document with
  | [fromMs, toMs] =>
    let fromMs ← Json.required Json.asWhole fromMs
    let toMs ← Json.required Json.asWhole toMs
    (TimeRange.ofBounds fromMs toMs).toOption
  | _ => none

end TimeRange

end TrafficBoard
