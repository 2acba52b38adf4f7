import Std.Time.DateTime.Timestamp
import TrafficBoard.Command.Run

namespace TrafficBoard.Command.Terminal

/-!
# The program — a command line, its environment and its files

* `main` reads the arguments, the environment and the files that a command may need, carries the
  command out, and brings the file of the kept selection up to date.

What a command does is decided by `Command.run` alone, on a tree of the files that were found.
-/

/-- The variables of the environment. -/
def environment : IO Config.Lookup := do
  let mut pairs : List (String × String) := []
  for name in variableNames do
    if let some value ← IO.getEnv name then
      pairs := (name, value) :: pairs
  let found := pairs
  return fun name => (found.find? fun p => p.1 = name).map Prod.snd

/-- The present instant in milliseconds. -/
def clock : IO Int := do
  let now ← Std.Time.Timestamp.now
  return now.toMillisecondsSinceUnixEpoch.val

/-! ### Files -/

/-- The name of a file at the end of some steps. -/
def fileName (steps : List String) : String :=
  match steps with
  | [] => "."
  | step :: rest =>
    if step = Path.root then Path.root ++ String.intercalate "/" rest
    else String.intercalate "/" steps

/-- The code of the system for reading a directory as a file. -/
def directoryCode : UInt32 := 21

/-- What stands at a name, as far as reading it tells. -/
def look (name : String) : IO (Option Entry) := do
  try
    return some (.file (.ofBytes (← IO.FS.readBinFile name)))
  catch
    | .inappropriateType _ code _ =>
      return if code = directoryCode then some .directory else none
    | .permissionDenied .. => return some (.file .locked)
    | _ => return none

/-- The files and directories along some paths. -/
def survey (paths : List Path) : IO FileTree := do
  let mut tree := FileTree.empty
  for path in paths do
    let steps := path.steps
    for count in List.range steps.length do
      let front := steps.take (count + 1)
      if let some entry ← look (fileName front) then
        tree := tree.put (front.foldl FileTree.follow []) entry
  return tree

/-- The paths of the documents below a directory. -/
def documentPaths (root : Path) : List Path :=
  TableKind.all.flatMap fun kind =>
    [Snapshot.documentPath root "charts" kind.label, Snapshot.documentPath root "tables" kind.label]

/-- The paths that a rendering with a configuration reads. -/
def renderPaths (options : RenderOptions) (config : Config) : List Path :=
  ((options.dataDir.or config.dataDir).map documentPaths).getD [] ++
    (options.statePath.or config.statePath).toList

/-- The files that an invocation may need. -/
def filesFor (lookup : Config.Lookup) (invocation : Invocation) : IO FileTree := do
  match invocation.request with
  | .resolve .. => return .empty
  | .top file _ => survey [file]
  | .render options =>
    let configPaths := (invocation.configPath.or (Config.standardPath lookup).toOption).toList
    let tree ← survey configPaths
    match Config.load tree lookup invocation.configPath with
    | .error _ => return tree
    | .ok config => survey (configPaths ++ renderPaths options config)

/-- Why a file operation failed. -/
def faultOf : IO.Error → FileFault
  | .noFileOrDirectory .. => .notFound
  | .alreadyExists .. => .exists
  | .inappropriateType .. => .notDirectory
  | _ => .denied

/-- Writes a file beside its place and puts it there. -/
def replaceFile (place : Place) (text : String) : IO Unit := do
  let name := fileName place
  let draft := fileName ((Path.sibling? ⟨name⟩ Selection.draftExtension).getD place)
  IO.FS.writeFile draft text
  IO.FS.rename draft name

/-- Makes the directories and files that are new in a tree. -/
def apply (before after : FileTree) : IO Unit := do
  for (place, entry) in after.entries.reverse do
    if before.entry? place ≠ some entry then
      match entry with
      | .directory => IO.FS.createDir (fileName place)
      | .file (.text text) => replaceFile place text
      | .file _ => pure ()

/-- Brings the files up to date; a failure is that of the file of the kept selection. -/
def applyOrFail (statePath : Option Path) (before after : FileTree) : IO (Option Failure) := do
  try
    apply before after
    return none
  catch e =>
    return statePath.map fun path => .state ⟨path, faultOf e⟩

/-! ### Output -/

/-- The answer to a request for help. -/
def helpText : String :=
  unlines
    ["Resolve dashboard time ranges and render bounded chart series", "",
      "  resolve FROM [TO] [--base-ms MS]",
      "  render [--data DIR] [--mac MAC] [--preset P | --from EXPR --to EXPR |",
      "         --abs-from MS --abs-to MS] [--state FILE] [--validate]",
      "  top --file FILE [--limit N]", "",
      "  --json         print documents",
      "  --config FILE  read the configuration of a file"]

/-- Writes a failure to the error stream. -/
def reportFailure (json : Bool) (f : Failure) : IO Unit :=
  IO.eprintln (if json then (Json.object [("error", f.toJson)]).renderLine else f.display)

/-- The file that an invocation keeps its selection in, as far as its options tell. -/
def statePath (invocation : Invocation) (lookup : Config.Lookup) (tree : FileTree) : Option Path :=
  match invocation.request with
  | .render options =>
    options.statePath.or
      ((Config.load tree lookup invocation.configPath).toOption.bind Config.statePath)
  | _ => none

/-- Carries out an invocation and answers with the exit code. -/
def perform (lookup : Config.Lookup) (invocation : Invocation) : IO UInt32 := do
  let before ← filesFor lookup invocation
  let (outcome, after) := run lookup (← clock) invocation before
  match ← applyOrFail (statePath invocation lookup before) before after with
  | some f =>
    reportFailure invocation.json f
    return f.code.toUInt32
  | none =>
    IO.print outcome.output
    match outcome.failure with
    | some f =>
      reportFailure invocation.json f
      return f.code.toUInt32
    | none => return 0

/-- Carries out a command line. -/
def program (arguments : List String) : IO UInt32 := do
  let lookup ← environment
  match Invocation.parse lookup arguments with
  | .ok invocation => perform lookup invocation
  | .error .help =>
    IO.print helpText
    return 0
  | .error .usage =>
    IO.eprint helpText
    return 2

end TrafficBoard.Command.Terminal

/-- Carries out the command line that the program is started with. -/
def main (arguments : List String) : IO UInt32 :=
  TrafficBoard.Command.Terminal.program arguments
