import TrafficBoard.Config.Basic
import TrafficBoard.Toml.Parser

namespace TrafficBoard

/-!
# Configuration files — settings as a TOML document

* `Config.parse?` reads the settings of a text;
* `Config.loadFrom` reads a file, `Config.load` adds the variables of the environment.

Every setting may be left out, and unknown ones are ignored. The budget may also be given as an
array of its two numbers.
-/

namespace Config

/-- A text. -/
def text? : Toml → Option String
  | .text s => some s
  | _ => none

/-- An unsigned word. -/
def word? : Toml → Option Nat
  | .integer n => if 0 ≤ n ∧ n < Number.sizeLimit then some n.toNat else none
  | _ => none

/-- Whether a value holds nothing. -/
def isUnit : Toml → Bool
  | .table [] => true
  | .array [] => true
  | _ => false

/-- A quick range by its name, or by a table whose only key is the name and holds nothing. -/
def preset? : Toml → Option Preset
  | .text s => Preset.ofLabel? s
  | .table [(name, v)] => if isUnit v then Preset.ofLabel? name else none
  | _ => none

/-- A setting with a default for where it is missing. -/
def setting {β : Type} (decode : Toml → Option β) (default : β) : Option Toml → Option β
  | some v => decode v
  | none => some default

/-- A path that may be missing. -/
def pathSetting (v : Option Toml) : Option (Option Path) :=
  setting (fun v => (text? v).map fun s => some ⟨s⟩) none v

/-- The budget of two settings. -/
def budgetOf? (timelinePoints totalPoints : Option Toml) : Option Budget := do
  let standard : Budget := {}
  let maxTimelinePoints ← setting word? standard.maxTimelinePoints timelinePoints
  let maxTotalPoints ← setting word? standard.maxTotalPoints totalPoints
  return { maxTimelinePoints, maxTotalPoints }

/-- A budget as a table, or as an array by position. -/
def budget? : Toml → Option Budget
  | .table entries =>
    budgetOf? (Toml.lookup "max_timeline_points" entries) (Toml.lookup "max_total_points" entries)
  | .array items => budgetOf? items[0]? items[1]?
  | _ => none

/-- The settings of a table. -/
def ofToml? (entries : List (String × Toml)) : Option Config := do
  let dataDir ← pathSetting (Toml.lookup "data_dir" entries)
  let statePath ← pathSetting (Toml.lookup "state_path" entries)
  let defaultPreset ← setting preset? .last24Hours (Toml.lookup "default_preset" entries)
  let tableLimit ← setting word? defaultTableLimit (Toml.lookup "table_limit" entries)
  let budget ← setting budget? {} (Toml.lookup "budget" entries)
  return { dataDir, statePath, defaultPreset, tableLimit, budget }

/-- The settings of a text. -/
def parse? (text : String) : Option Config :=
  (Toml.parse? text).bind ofToml?

/-- The valid settings of a file; without the file they are the standard ones. -/
def loadFrom (tree : FileTree) (path : Path) : Except ConfigError Config :=
  if tree.contains path then
    match tree.read path with
    | .error fault => .error (.unreadable fault)
    | .ok text =>
      match parse? text with
      | some config => config.validate.map fun _ => config
      | none => .error .malformed
  else .ok {}

/-- The valid settings of a file, or of the standard file, with the variables of the environment in
place. -/
def load (tree : FileTree) (lookup : Lookup) (path : Option Path) : Except ConfigError Config := do
  let path ← match path with
    | some path => .ok path
    | none => standardPath lookup
  let config ← loadFrom tree path
  let (result, config) := config.applyOverrides lookup
  result
  config.validate
  return config

end Config

end TrafficBoard
