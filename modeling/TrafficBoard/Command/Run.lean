import TrafficBoard.Command.Failure
import TrafficBoard.Command.Invocation
import TrafficBoard.Command.Report
import TrafficBoard.Config.Document
import TrafficBoard.Dashboard.Check
import TrafficBoard.Dashboard.Snapshot

namespace TrafficBoard.Command

/-!
# Runs — what the commands print and keep

* `run` carries out an invocation on a file tree: what it prints and why it fails is an `Outcome`;
* `settle` selects the range of a rendering and keeps the selection;
* `render`, `resolve` and `top` are the commands.

Only the file of the kept selection is ever written, and only if it does not hold the selection
already.
-/

/-- What a command prints, and why it fails, if it does. -/
structure Outcome where
  output : String
  failure : Option Failure

namespace Outcome

/-- A command that succeeds. -/
def success (output : String) : Outcome where
  output := output
  failure := none

/-- A command that fails before it prints anything. -/
def failed (f : Failure) : Outcome where
  output := ""
  failure := some f

end Outcome

/-! ### Resolving -/

/-- The document of a resolved range. -/
def rangeDocument (r : TimeRange) : Json :=
  .object
    [("from_ms", .ofInt r.fromMs), ("to_ms", .ofInt r.toMs),
      ("from_seconds", .ofInt r.fromSeconds), ("to_seconds", .ofInt r.toSeconds),
      ("from", .text (Label.dateTimeOf r.fromMs)), ("to", .text (Label.dateTimeOf r.toMs))]

/-- The lines of a resolved range. -/
def rangeLines (r : TimeRange) : List String :=
  ["from  " ++ toString r.fromMs ++ "  (" ++ Label.dateTimeOf r.fromMs ++ ")",
    "to    " ++ toString r.toMs ++ "  (" ++ Label.dateTimeOf r.toMs ++ ")"]

/-- Resolves two time expressions. -/
def resolve (json : Bool) (fromExpr toExpr : String) (base : Int) : Outcome :=
  match TimeRange.resolve fromExpr toExpr base with
  | .error e => .failed (.range e)
  | .ok r => .success (if json then (rangeDocument r).render ++ "\n" else unlines (rangeLines r))

/-! ### Ranking -/

/-- The category in a file. -/
def readCategory (tree : FileTree) (path : Path) :
    Except SourceError (CategoryField Number.Double) :=
  match tree.read path with
  | .error fault => .error (.unreadable path fault)
  | .ok text =>
    match (Json.parse? text).bind CategoryField.ofJson? with
    | some field => .ok field
    | none => .error (.undecodable path)

/-- Ranks the counts of a category in a file. -/
def top (json : Bool) (tree : FileTree) (path : Path) (limit : Nat) : Outcome :=
  match readCategory tree path with
  | .error e => .failed (.source e)
  | .ok field =>
    let rows := topRows (some field.toCounts) limit
    .success (if json then (Json.ofList (Row.toJson Json.ofDouble) rows).render ++ "\n"
      else unlines (rankingLines rows))

/-! ### Rendering -/

/-- The request to the controller that a choice makes; the kept selection needs none. -/
def RangeChoice.operation? : RangeChoice → Option Controller.Operation
  | .kept => none
  | .preset p => some (.preset p)
  | .expressions fromExpr toExpr => some (.expressions fromExpr toExpr)
  | .absolute fromMs toMs => some (.absolute fromMs toMs)

/-- The selection to start from: the kept one, or else the standard one with a preset. -/
def startSelection (kept : Option Selection) (fallback : Preset) : Selection :=
  kept.getD { Selection.standard with preset := fallback }

/-- The controller after a choice. -/
def choose (now : Int) (choice : RangeChoice) (c : Controller) : Except RangeError Controller :=
  match choice.operation? with
  | none => .ok c
  | some op =>
    match c.apply now op with
    | (.ok _, c) => .ok c
    | (.error e, _) => .error e

/-- Keeps a selection in a file that does not hold it already. -/
def keep (store : Option Path) (s : Selection) (tree : FileTree) :
    Except SaveError Unit × FileTree :=
  match store with
  | none => (.ok (), tree)
  | some path => if Selection.load? path tree = some s then (.ok (), tree) else s.save path tree

/-- Selects the range of a rendering, starting from the kept selection, and keeps what it selects.
Where the choice has no range, nothing is kept. -/
def settle (now : Int) (store : Option Path) (fallback : Preset) (choice : RangeChoice)
    (tree : FileTree) : Except Failure Controller × FileTree :=
  let kept := store.bind fun path => Selection.load? path tree
  let start := Controller.ofSelection now (startSelection kept fallback)
  match choose now choice start with
  | .error e => (.error (.range e), tree)
  | .ok c =>
    match keep store c.selection tree with
    | (.ok (), tree) => (.ok c, tree)
    | (.error e, tree) => (.error (.state e), tree)

/-- The session of a source, with charts and all tables; failing charts are an error. -/
def loadSession (source : Source Number.Double) (c : Controller) (config : Config) :
    Except SourceError (Session Number.Double) :=
  let (_, s) := (Session.start c config.budget (some config.tableLimit)).reload source
  match s.chartError with
  | some e => .error e
  | none => .ok (TableKind.all.foldl (fun s kind => (s.ensureTable kind source).2) s)

/-- The device to show: the one asked for, whether or not it is known, or else the first one. -/
def shownDevice (charts : Charts Number.Double) (mac : Option String) : Option Device :=
  match mac with
  | some mac => some ((charts.device? mac).getD (.ofMac mac))
  | none => charts.devices.head?

/-- What is shown of a session. -/
def rendering (s : Session Number.Double) (mac : Option String) (validate : Bool) : Rendering :=
  let device := shownDevice s.charts mac
  let mac := (device.map Device.mac).getD ""
  let view := s.view mac
  let rules : CheckRules Number.Double := { budget := s.budget, threshold := noiseThreshold }
  { device, view
    report := if validate then some (checkView s.charts mac view.charts rules) else none }

/-- Why a rendering fails after all: its checks did not pass. -/
def Rendering.failure? (r : Rendering) : Option Failure :=
  if r.report.any fun report => !report.allOk then some .invalidOutput else none

/-- Shows the charts and tables of a selected range. -/
def present (json : Bool) (options : RenderOptions) (config : Config) (dataDir : Path)
    (tree : FileTree) (c : Controller) : Outcome :=
  match loadSession (Snapshot.source tree dataDir) c config with
  | .error e => .failed (.source e)
  | .ok s =>
    let r := rendering s options.mac options.validate
    { output := r.print json, failure := r.failure? }

/-- Renders with a configuration. -/
def renderWith (json : Bool) (options : RenderOptions) (config : Config) (now : Int)
    (tree : FileTree) : Outcome × FileTree :=
  match options.dataDir.or config.dataDir with
  | none => (.failed .noDataDir, tree)
  | some dataDir =>
    if tree.isDirectory dataDir then
      let store := options.statePath.or config.statePath
      match settle now store config.defaultPreset options.choice tree with
      | (.error f, tree) => (.failed f, tree)
      | (.ok c, tree) => (present json options config dataDir tree c, tree)
    else (.failed (.missingDataDir dataDir), tree)

/-- Renders with the configuration of a file and the environment. -/
def render (json : Bool) (options : RenderOptions) (configPath : Option Path)
    (lookup : Config.Lookup) (clock : Int) (tree : FileTree) : Outcome × FileTree :=
  match Config.load tree lookup configPath with
  | .error e => (.failed (.config e), tree)
  | .ok config => renderWith json options config (options.nowMs.getD clock) tree

/-- Carries out an invocation. -/
def run (lookup : Config.Lookup) (clock : Int) (invocation : Invocation) (tree : FileTree) :
    Outcome × FileTree :=
  match invocation.request with
  | .resolve fromExpr toExpr base =>
    (resolve invocation.json fromExpr toExpr (base.getD clock), tree)
  | .top file limit => (top invocation.json tree file (limit.getD defaultTableLimit), tree)
  | .render options =>
    render invocation.json options invocation.configPath lookup clock tree

end TrafficBoard.Command
