import TrafficBoard.Range.Expr
import TrafficBoard.Range.Selection

namespace TrafficBoard

/-!
# Range controllers — the active range and the ways to change it

* `Controller` holds the state of all three modes, the range of the active one and its generation;
* `Controller.Operation` is a request to change the selection, `Controller.apply` carries it out;
* `Controller.ofSelection` starts from what was kept, `Controller.selection` is what to keep.

The generation counts the changes of the range. A request that fails leaves mode, range and
generation as they are and is remembered as the error; the texts of two expressions are kept all
the same, so that they can be corrected. Every operation takes the present instant as an argument.
-/

/-- The active range selection. -/
structure Controller where
  mode : RangeMode
  preset : Preset
  fromExpr : String
  toExpr : String
  absoluteFrom : Option Int
  absoluteTo : Option Int
  range : TimeRange
  /-- The number of changes of the range so far. -/
  generation : Nat
  /-- Why the last request failed, if it did. -/
  error : Option RangeError
  deriving DecidableEq

namespace Controller

/-- What a request that succeeds does to the range. -/
inductive Update where
  | changed (range : TimeRange) (generation : Nat)
  | unchanged
  deriving DecidableEq

/-- A request to change the selection. -/
inductive Operation where
  | preset (preset : Preset)
  | expressions (fromExpr toExpr : String)
  | absolute (fromMs toMs : Int)
  /-- Go back to a mode with what is stored for it. -/
  | activate (mode : RangeMode)
  /-- Resolve the active mode anew. -/
  | refresh
  deriving DecidableEq

/-- What a request answers: the update or the error. -/
abbrev Answer := Except RangeError Update

/-- A failed request: the error is remembered. -/
def fail (c : Controller) (e : RangeError) : Answer × Controller :=
  (.error e, { c with error := some e })

/-- A resolved request: the error is cleared, the selection stored by `store`, and the range taken
over. The first range ever counts as a change. -/
def commit (c : Controller) (resolved : Except RangeError TimeRange)
    (store : Controller → Controller) : Answer × Controller :=
  match resolved with
  | .error e => c.fail e
  | .ok range =>
    let stored := store { c with error := none }
    if range = c.range ∧ 0 < c.generation then (.ok .unchanged, stored)
    else
      (.ok (.changed range (c.generation + 1)),
        { stored with range, generation := c.generation + 1 })

/-- Selects a preset. -/
def selectPreset (now : Int) (p : Preset) (c : Controller) : Answer × Controller :=
  c.commit (TimeRange.resolve p.fromExpr "now" now) fun c =>
    { c with preset := p, mode := .preset }

/-- Selects the range between two expressions, which are stored in any case. -/
def applyExpressions (now : Int) (fromExpr toExpr : String) (c : Controller) :
    Answer × Controller :=
  { c with fromExpr, toExpr }.commit (TimeRange.resolve fromExpr toExpr now) fun c =>
    { c with mode := .expr }

/-- Selects the range between two fixed bounds. -/
def applyAbsolute (fromMs toMs : Int) (c : Controller) : Answer × Controller :=
  c.commit (TimeRange.ofBounds fromMs toMs) fun c =>
    { c with absoluteFrom := some fromMs, absoluteTo := some toMs, mode := .absolute }

/-- Goes back to a mode with what is stored for it. -/
def activate (now : Int) (mode : RangeMode) (c : Controller) : Answer × Controller :=
  match mode with
  | .preset => c.selectPreset now c.preset
  | .expr => c.applyExpressions now c.fromExpr c.toExpr
  | .absolute =>
    match c.absoluteFrom, c.absoluteTo with
    | some fromMs, some toMs => c.applyAbsolute fromMs toMs
    | fromMs, toMs => c.fail (.bounds fromMs toMs .noneSelected)

/-- Carries out a request at an instant. -/
def apply (now : Int) (op : Operation) (c : Controller) : Answer × Controller :=
  match op with
  | .preset p => c.selectPreset now p
  | .expressions fromExpr toExpr => c.applyExpressions now fromExpr toExpr
  | .absolute fromMs toMs => c.applyAbsolute fromMs toMs
  | .activate mode => c.activate now mode
  | .refresh => c.activate now c.mode

/-- Carries out requests, each at its own instant, up to the first that fails, and answers as the
last of them does. -/
def applyAll : List (Int × Operation) → Controller → Answer × Controller
  | [], c => (.ok .unchanged, c)
  | [(now, op)], c => c.apply now op
  | (now, op) :: requests, c =>
    match c.apply now op with
    | (.error e, c) => (.error e, c)
    | (.ok _, c) => applyAll requests c

/-- A controller that has resolved nothing yet, on the last 24 hours. -/
def blank (now : Int) (s : Selection) : Controller where
  mode := .preset
  preset := s.preset
  fromExpr := s.fromExpr
  toExpr := s.toExpr
  absoluteFrom := s.absoluteFrom
  absoluteTo := s.absoluteTo
  range := .lastDay now
  generation := 0
  error := none

/-- The request that repeats a kept selection; fixed bounds that are not both there fall back to
the preset. -/
def replay (s : Selection) : Operation :=
  match s.mode, s.absoluteFrom, s.absoluteTo with
  | .absolute, some fromMs, some toMs => .absolute fromMs toMs
  | .expr, _, _ => .expressions s.fromExpr s.toExpr
  | _, _, _ => .preset s.preset

/-- The controller that repeats a kept selection at an instant. -/
def ofSelection (now : Int) (s : Selection) : Controller :=
  ((blank now s).apply now (replay s)).2

/-- The controller of the standard selection. -/
def start (now : Int) : Controller :=
  ofSelection now .standard

/-- What to keep of a controller. -/
def selection (c : Controller) : Selection where
  version := Selection.currentVersion
  preset := c.preset
  mode := c.mode
  fromExpr := c.fromExpr
  toExpr := c.toExpr
  absoluteFrom := c.absoluteFrom
  absoluteTo := c.absoluteTo

/-- The wording of the remembered error. -/
def errorMessage (c : Controller) : Option String :=
  c.error.map RangeError.message

end Controller

end TrafficBoard
