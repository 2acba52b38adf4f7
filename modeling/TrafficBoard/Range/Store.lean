import TrafficBoard.Files.Tree
import TrafficBoard.Range.Selection

namespace TrafficBoard

/-!
# Selection stores — the file that keeps a selection between two sessions

* `Selection.load?` reads the selection that a file keeps, if it keeps one of the current version;
* `Selection.save` writes it beside its file and puts the new file in place of the old one, so that
  the old one stays whole until the new one is;
* `SaveError` says which file could not be written, and why.
-/

/-- A selection that could not be saved. -/
structure SaveError where
  path : Path
  fault : FileFault
  deriving DecidableEq

/-- The error in words. -/
def SaveError.message (e : SaveError) : String :=
  "failed to write range state to " ++ e.path.text ++ ": " ++ e.fault.message

namespace Selection

/-- The selection in a text, if it has the current version. -/
def parseCurrent? (text : String) : Option Selection :=
  (parse? text).filter fun s => s.version = currentVersion

/-- The selection that a file keeps; an unreadable or foreign file keeps none. -/
def load? (path : Path) (tree : FileTree) : Option Selection :=
  match tree.read path with
  | .ok text => parseCurrent? text
  | .error _ => none

/-- The extension of the file that is written first. -/
def draftExtension : String := "json.tmp"

/-- The steps to the file that is written first: the one beside the path, or the path itself if it
has no last name. -/
def draftSteps (path : Path) : List String :=
  (path.sibling? draftExtension).getD path.steps

/-- The place of the file that is written first. -/
def draftPlace (path : Path) (tree : FileTree) : Except FileFault Place :=
  if path.text.isEmpty then .error .notFound else tree.walk [] (draftSteps path)

/-- Puts the draft in place of the file. -/
def replace (path : Path) (draft : Place) (tree : FileTree) : Except FileFault FileTree :=
  match tree.locate path with
  | .error fault => .error fault
  | .ok place =>
    if path.namesDirectory then .error .notDirectory else tree.rename draft place

/-- Writes a text to the draft and puts that in place of the file. A draft that cannot be put there
stays. -/
def writeVia (path : Path) (text : String) (tree : FileTree) :
    Except FileFault Unit × FileTree :=
  match tree.createDirs [] path.steps.dropLast with
  | .error fault => (.error fault, tree)
  | .ok tree =>
    match draftPlace path tree with
    | .error fault => (.error fault, tree)
    | .ok draft =>
      match tree.write draft text with
      | .error fault => (.error fault, tree)
      | .ok written =>
        match replace path draft written with
        | .error fault => (.error fault, written)
        | .ok replaced => (.ok (), replaced)

/-- Saves a selection to a file; its directory is made if it is not there. -/
def save (path : Path) (s : Selection) (tree : FileTree) : Except SaveError Unit × FileTree :=
  match writeVia path s.render tree with
  | (.ok (), tree) => (.ok (), tree)
  | (.error fault, tree) => (.error ⟨path, fault⟩, tree)

end Selection

end TrafficBoard
