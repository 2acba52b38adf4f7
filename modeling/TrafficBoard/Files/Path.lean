namespace TrafficBoard

/-!
# Paths — the names of files and directories

* `Path` is a path as it was given, which is also how messages show it;
* `Path.steps` are the names to follow, `Path.join` adds one;
* `Path.sibling` replaces the extension of the last name.
-/

/-- A path as it was given. -/
structure Path where
  text : String
  deriving DecidableEq, Inhabited

namespace Path

/-- The pieces of a text between slashes. -/
def pieces : List Char → List (List Char)
  | [] => [[]]
  | '/' :: rest => [] :: pieces rest
  | c :: rest =>
    match pieces rest with
    | piece :: others => (c :: piece) :: others
    | [] => [[c]]

/-- The first step of a path that starts at the root of all files. -/
def root : String := "/"

/-- The step to the parent directory. -/
def up : String := ".."

/-- Whether a piece is a name to follow; an empty piece and a single dot stay where they are. -/
def isStep (piece : List Char) : Bool :=
  piece ≠ [] && piece ≠ ['.']

/-- The names to follow from the working directory, or from the root. -/
def steps (p : Path) : List String :=
  let names := ((pieces p.text.toList).filter isStep).map String.ofList
  if p.text.toList.head? = some '/' then root :: names else names

/-- Whether the path can only name a directory: its last piece is no name. -/
def namesDirectory (p : Path) : Bool :=
  !(((pieces p.text.toList).getLast?.map isStep).getD false)

/-- The path of an entry of a directory. -/
def join (p : Path) (name : String) : Path :=
  if p.text.isEmpty || p.text.toList.getLast? = some '/' then ⟨p.text ++ name⟩
  else ⟨p.text ++ "/" ++ name⟩

/-- A name without its extension; a dot at the front starts no extension. -/
def stem (name : String) : String :=
  let start := (name.toList.reverse.dropWhile fun c => c ≠ '.').drop 1
  if start.isEmpty then name else String.ofList start.reverse

/-- The steps to the file beside this one with another extension; a path without a last name has no
such file. -/
def sibling? (p : Path) (extension : String) : Option (List String) :=
  match p.steps.reverse with
  | [] => none
  | name :: parents =>
    if name = up ∨ name = root then none
    else some ((stem name ++ "." ++ extension) :: parents).reverse

example : (Path.mk "a//b/./c.json").steps = ["a", "b", "c.json"] := by decide +kernel
example : (Path.mk "/a").steps = ["/", "a"] ∧ (Path.mk "a/").namesDirectory := by decide +kernel
example : stem "x.tar.gz" = "x.tar" ∧ stem ".hidden" = ".hidden" := by decide +kernel

end Path

end TrafficBoard
