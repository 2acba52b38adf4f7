import TrafficBoard.Files.Tree
import TrafficBoard.Number.Word
import TrafficBoard.Range.Preset
import TrafficBoard.Series.Basic
import TrafficBoard.Series.Ranking
import TrafficBoard.Text.Digit

namespace TrafficBoard

/-!
# Configuration — directories, limits and the budget of points

* `Config` holds the settings, `Config.validate` says whether they go together;
* `Config.applyOverrides` replaces settings by variables of the environment;
* `ConfigError` says why there is no configuration, `ConfigError.message` is its wording.
-/

/-- The variable that names the directory of captured documents. -/
def dataDirVariable : String := "SNIFFLY_DATA_DIR"

/-- The variable that names the file of the kept selection. -/
def statePathVariable : String := "SNIFFLY_STATE_PATH"

/-- The variable that gives the number of rows of a table. -/
def tableLimitVariable : String := "SNIFFLY_TABLE_LIMIT"

/-- The variable that names the file of the configuration. -/
def configVariable : String := "SNIFFLY_CONFIG"

/-- The variable that names the directory of configurations. -/
def configDirVariable : String := "XDG_CONFIG_HOME"

/-- The variable that names the home directory. -/
def homeVariable : String := "HOME"

/-- The variables of the environment that matter. -/
def variableNames : List String :=
  [dataDirVariable, statePathVariable, tableLimitVariable, configVariable, configDirVariable,
    homeVariable]

/-- The settings. -/
structure Config where
  /-- The directory of captured documents. -/
  dataDir : Option Path := none
  /-- The file that keeps the selected range. -/
  statePath : Option Path := none
  defaultPreset : Preset := .last24Hours
  tableLimit : Nat := defaultTableLimit
  budget : Budget := {}
  deriving DecidableEq

/-- What is wrong with a setting. -/
inductive ConfigFault where
  | tableLimit
  | timelinePoints
  | totalPoints
  /-- A variable for the number of rows that is no number. -/
  | tableLimitText (raw : String)
  deriving DecidableEq

/-- Why there is no configuration. -/
inductive ConfigError where
  | unreadable (fault : FileFault)
  /-- A file that is no document, or has a setting of the wrong kind. -/
  | malformed
  /-- A file is looked for in the directory of configurations, and there is none. -/
  | noDirectory
  | invalid (fault : ConfigFault)
  deriving DecidableEq

/-- The fault in words. -/
def ConfigFault.message : ConfigFault → String
  | .tableLimit => "table_limit must be at least 1"
  | .timelinePoints => "budget.max_timeline_points must be at least 2"
  | .totalPoints => "budget.max_total_points must be >= budget.max_timeline_points"
  | .tableLimitText raw => tableLimitVariable ++ " must be a positive integer, got `" ++ raw ++ "`"

/-- The error in words; what is wrong inside a document is not told. -/
def ConfigError.message : ConfigError → String
  | .unreadable fault => "Failed to read config file: " ++ fault.message
  | .malformed => "Failed to parse config file: <toml>"
  | .noDirectory => "Could not determine config directory"
  | .invalid fault => "Validation error: " ++ fault.message

namespace Config

/-- What is wrong with the settings, if anything is. -/
def fault? (config : Config) : Option ConfigFault :=
  if config.tableLimit = 0 then some .tableLimit
  else if config.budget.maxTimelinePoints < 2 then some .timelinePoints
  else if config.budget.maxTotalPoints < config.budget.maxTimelinePoints then some .totalPoints
  else none

/-- Whether the settings go together. -/
def validate (config : Config) : Except ConfigError Unit :=
  match config.fault? with
  | some fault => .error (.invalid fault)
  | none => .ok ()

/-- A variable of the environment, by its name. -/
abbrev Lookup := String → Option String

/-- The path that a variable names; an empty one names none. -/
def pathOf (lookup : Lookup) (name : String) : Option Path :=
  ((lookup name).filter fun s => !s.isEmpty).map Path.mk

/-- An unsigned word with blanks around it. -/
def size? (raw : String) : Option Nat :=
  (Text.unsigned? (Text.trimChars raw.toList)).filter fun n => n < Number.sizeLimit

/-- The settings with those paths that variables name. -/
def withPaths (lookup : Lookup) (config : Config) : Config :=
  { config with
    dataDir := (pathOf lookup dataDirVariable).or config.dataDir
    statePath := (pathOf lookup statePathVariable).or config.statePath }

/-- Replaces settings by variables. The paths are replaced even where the number of rows cannot
be. -/
def applyOverrides (lookup : Lookup) (config : Config) : Except ConfigError Unit × Config :=
  let config := config.withPaths lookup
  match lookup tableLimitVariable with
  | none => (.ok (), config)
  | some raw =>
    match size? raw with
    | some n => (.ok (), { config with tableLimit := n })
    | none => (.error (.invalid (.tableLimitText raw)), config)

/-- The path of the configuration that no option names: in the directory of configurations, or else
in the one below the home directory. -/
def standardPath (lookup : Lookup) : Except ConfigError Path :=
  let file (directory : Path) := (directory.join "sniffly").join "config.toml"
  match lookup configDirVariable, pathOf lookup homeVariable with
  | some directory, _ => .ok (file ⟨directory⟩)
  | none, some home => .ok (file (home.join ".config"))
  | none, none => .error .noDirectory

end Config

end TrafficBoard
