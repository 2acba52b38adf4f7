import TrafficBoard.Toml.Basic

namespace TrafficBoard.Toml

/-!
# Outlines — the tables of a document while it is read

* `Node` is a finished value, a table that may still grow, or an array of such tables;
* `Node.assign` gives a dotted key its value, `openTable` and `openElement` carry out a header;
* `Node.toValue` is the value of a finished outline.

A key gets a value once. A header may name a table that earlier headers have only passed through,
but not one that has a header or that dotted keys have made; a dotted key may go through the
latter two kinds, but not through a table with a header of its own. Both go through the last
element of an array of tables.
-/

/-- How a table came to be. -/
inductive Origin where
  /-- By a header of its own. -/
  | header
  /-- By a longer header that goes through it. -/
  | passed
  /-- By a dotted key that goes through it. -/
  | dotted
  deriving DecidableEq

/-- A part of a document while it is read. -/
inductive Node where
  | value (v : Toml)
  | table (origin : Origin) (members : List (String × Node))
  /-- The tables of an array, the last one first. -/
  | tables (elements : List (List (String × Node)))

/-- The keys of a table while it is read. -/
abbrev Members := List (String × Node)

namespace Node

/-- Gives a key a node, in place of the one that it has. -/
def set (key : String) (node : Node) : Members → Members
  | [] => [(key, node)]
  | (other, n) :: rest =>
    if other = key then (key, node) :: rest else (other, n) :: set key node rest

/-- Changes the table at the end of some keys, which makes the tables on the way that are not
there. -/
def changeAt (way : Origin) (change : Members → Option Members) :
    List String → Members → Option Members
  | [], members => change members
  | key :: keys, members =>
    match lookup key members with
    | none => (changeAt way change keys []).map fun inner => set key (.table way inner) members
    | some (.table origin inner) =>
      if way = .dotted ∧ origin = .header then none
      else
        (changeAt way change keys inner).map fun inner => set key (.table origin inner) members
    | some (.tables (last :: earlier)) =>
      (changeAt way change keys last).map fun last => set key (.tables (last :: earlier)) members
    | some (.tables []) => none
    | some (.value _) => none

/-- Gives a key without a node its value. -/
def define (key : String) (v : Toml) (members : Members) : Option Members :=
  match lookup key members with
  | none => some (set key (.value v) members)
  | some _ => none

/-- Gives a dotted key its value. -/
def assign (path : List String) (v : Toml) (members : Members) : Option Members :=
  match path.getLast? with
  | some key => changeAt .dotted (define key v) path.dropLast members
  | none => none

/-- Opens a table at a key. -/
def openTable (key : String) (members : Members) : Option Members :=
  match lookup key members with
  | none => some (set key (.table .header []) members)
  | some (.table .passed inner) => some (set key (.table .header inner) members)
  | some _ => none

/-- Opens a new element of the array of tables at a key. -/
def openElement (key : String) (members : Members) : Option Members :=
  match lookup key members with
  | none => some (set key (.tables [[]]) members)
  | some (.tables elements) => some (set key (.tables ([] :: elements)) members)
  | some _ => none

/-- Carries out a header, by `openTable` or `openElement`. -/
def openAt (opening : String → Members → Option Members) (path : List String)
    (members : Members) : Option Members :=
  match path.getLast? with
  | some key => changeAt .passed (opening key) path.dropLast members
  | none => none

/-- Changes the table that a header has opened. -/
def within (change : Members → Option Members) : List String → Members → Option Members
  | [], members => change members
  | key :: keys, members =>
    match lookup key members with
    | some (.table origin inner) =>
      (within change keys inner).map fun inner => set key (.table origin inner) members
    | some (.tables (last :: earlier)) =>
      (within change keys last).map fun last => set key (.tables (last :: earlier)) members
    | _ => none

mutual

/-- The value of a node. -/
def toValue : Node → Toml
  | .value v => v
  | .table _ members => .table (entries members)
  | .tables elements => .array (tableValues elements).reverse

/-- The entries of a table. -/
def entries : List (String × Node) → List (String × Toml)
  | [] => []
  | (key, node) :: rest => (key, toValue node) :: entries rest

/-- The values of some tables. -/
def tableValues : List (List (String × Node)) → List Toml
  | [] => []
  | members :: rest => .table (entries members) :: tableValues rest

end

end Node

end TrafficBoard.Toml
