import TrafficBoard.Files.Path

namespace TrafficBoard

/-!
# File trees — directories and files below a working directory

* `FileTree` maps places to entries; `Content` is the text of a file, or bytes that are no text;
* `FileTree.locate` follows a path to a place, `entryAt` to an entry;
* `FileTree.read` gives the text of a file, `createDirs`, `write` and `rename` change the tree;
* `FileFault` says why one of them fails, `FileFault.message` is its wording.

A place is the list of steps that lead to it without detours.
-/

/-- Why a file operation fails. -/
inductive FileFault where
  | notFound
  | denied
  | exists
  | notDirectory
  | isDirectory
  /-- The bytes of a file are no text. -/
  | notText
  deriving DecidableEq

/-- The fault in words. -/
def FileFault.message : FileFault → String
  | .notFound => "No such file or directory (os error 2)"
  | .denied => "Permission denied (os error 13)"
  | .exists => "File exists (os error 17)"
  | .notDirectory => "Not a directory (os error 20)"
  | .isDirectory => "Is a directory (os error 21)"
  | .notText => "stream did not contain valid UTF-8"

/-- What a file holds. -/
inductive Content where
  | text (s : String)
  /-- Bytes that are no text. -/
  | bytes (data : List UInt8)
  /-- A file that may not be read. -/
  | locked
  deriving DecidableEq

/-- The content of some bytes. -/
def Content.ofBytes (data : ByteArray) : Content :=
  match String.fromUTF8? data with
  | some s => .text s
  | none => .bytes data.toList

/-- What stands at a place. -/
inductive Entry where
  | directory
  | file (content : Content)
  deriving DecidableEq

/-- The steps that lead to an entry without detours. -/
abbrev Place := List String

/-- Directories and files by their places. -/
structure FileTree where
  entries : List (Place × Entry)

namespace FileTree

/-- No entries but the working directory and what is above it. -/
def empty : FileTree where
  entries := []

instance : Inhabited FileTree := ⟨empty⟩

/-- Whether a place is the root of all files, the working directory, or above that. -/
def isFixed (place : Place) : Bool :=
  place = [Path.root] || place.all (· = Path.up)

/-- The entry at a place. -/
def entry? (tree : FileTree) (place : Place) : Option Entry :=
  if isFixed place then some .directory
  else (tree.entries.find? fun e => e.1 = place).map Prod.snd

/-- Removes the entry at a place. -/
def erase (tree : FileTree) (place : Place) : FileTree where
  entries := tree.entries.filter fun e => e.1 ≠ place

/-- Puts an entry to a place. -/
def put (tree : FileTree) (place : Place) (entry : Entry) : FileTree where
  entries := (place, entry) :: (tree.erase place).entries

/-- The place above a place; nothing is above the root. -/
def parent (place : Place) : Place :=
  if place = [Path.root] then place
  else if place.all (· = Path.up) then place ++ [Path.up]
  else place.dropLast

/-- The place that one step leads to. -/
def follow (here : Place) (step : String) : Place :=
  if step = Path.up then parent here else here ++ [step]

/-- The place at the end of some steps. Each step but the last has to lead to a directory. -/
def walk (tree : FileTree) : Place → List String → Except FileFault Place
  | here, [] => .ok here
  | here, [step] => .ok (follow here step)
  | here, step :: rest =>
    let next := follow here step
    match tree.entry? next with
    | some .directory => tree.walk next rest
    | some (.file _) => .error .notDirectory
    | none => .error .notFound

/-- The place that a path names; the empty path names none. -/
def locate (tree : FileTree) (path : Path) : Except FileFault Place :=
  if path.text.isEmpty then .error .notFound else tree.walk [] path.steps

/-- The entry that a path names. -/
def entryAt (tree : FileTree) (path : Path) : Except FileFault Entry :=
  match tree.locate path with
  | .error fault => .error fault
  | .ok place =>
    match tree.entry? place with
    | none => .error .notFound
    | some .directory => .ok .directory
    | some (.file content) =>
      if path.namesDirectory then .error .notDirectory else .ok (.file content)

/-- Whether a path names an entry. -/
def contains (tree : FileTree) (path : Path) : Bool :=
  match tree.entryAt path with
  | .ok _ => true
  | .error _ => false

/-- Whether a path names a directory. -/
def isDirectory (tree : FileTree) (path : Path) : Bool :=
  match tree.entryAt path with
  | .ok .directory => true
  | _ => false

/-- The text of the file that a path names. -/
def read (tree : FileTree) (path : Path) : Except FileFault String :=
  match tree.entryAt path with
  | .error fault => .error fault
  | .ok .directory => .error .isDirectory
  | .ok (.file (.text s)) => .ok s
  | .ok (.file (.bytes _)) => .error .notText
  | .ok (.file .locked) => .error .denied

/-- Makes the directories along some steps that are not there. -/
def createDirs (tree : FileTree) : Place → List String → Except FileFault FileTree
  | _, [] => .ok tree
  | here, step :: rest =>
    let next := follow here step
    match tree.entry? next with
    | some .directory => tree.createDirs next rest
    | some (.file _) => .error (if rest.isEmpty then .exists else .notDirectory)
    | none => (tree.put next .directory).createDirs next rest

/-- Writes the text of a file, in place of an earlier one. -/
def write (tree : FileTree) (place : Place) (text : String) : Except FileFault FileTree :=
  match tree.entry? place with
  | some .directory => .error .isDirectory
  | some (.file .locked) => .error .denied
  | _ => .ok (tree.put place (.file (.text text)))

/-- Moves the file at one place to another, in place of a file there. -/
def rename (tree : FileTree) (source target : Place) : Except FileFault FileTree :=
  match tree.entry? source, tree.entry? target with
  | none, _ => .error .notFound
  | some _, some .directory => .error .isDirectory
  | some entry, _ => .ok ((tree.erase source).put target entry)

/-- The files with their places. -/
def files (tree : FileTree) : List (Place × Content) :=
  tree.entries.filterMap fun e =>
    match e.2 with
    | .file content => some (e.1, content)
    | .directory => none

end FileTree

end TrafficBoard
