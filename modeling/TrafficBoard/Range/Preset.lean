import TrafficBoard.Text.Blank

namespace TrafficBoard

/-!
# Presets and modes — the quick ranges, and the three ways to select a range

* `Preset` is a stretch of time that ends now, by its `label`;
* `RangeMode` says whether a preset, two expressions or two fixed bounds are selected.
-/

/-- A quick range that ends now. -/
inductive Preset where
  | lastHour
  | last6Hours
  | last24Hours
  | last7Days
  deriving DecidableEq, Repr

namespace Preset

/-- The quick ranges, shortest first. -/
def all : List Preset :=
  [.lastHour, .last6Hours, .last24Hours, .last7Days]

/-- The name of a quick range. -/
def label : Preset → String
  | .lastHour => "1h"
  | .last6Hours => "6h"
  | .last24Hours => "24h"
  | .last7Days => "7d"

/-- The expression of its lower bound; the upper one is `now`. -/
def fromExpr : Preset → String
  | .lastHour => "now-1h"
  | .last6Hours => "now-6h"
  | .last24Hours => "now-24h"
  | .last7Days => "now-7d"

/-- The quick range of a name. -/
def ofLabel? (s : String) : Option Preset :=
  all.find? fun p => p.label = s

@[simp] theorem ofLabel?_label (p : Preset) : ofLabel? p.label = some p := by
  cases p <;> decide

/-- The quick range of a name with blanks around it. -/
def parse (s : String) : Except String Preset :=
  match ofLabel? (Text.trim s) with
  | some p => .ok p
  | none => .error ("unknown preset `" ++ s ++ "` (expected 1h, 6h, 24h or 7d)")

end Preset

/-- How a range is selected. -/
inductive RangeMode where
  | preset
  | expr
  | absolute
  deriving DecidableEq, Repr

namespace RangeMode

/-- The modes. -/
def all : List RangeMode :=
  [.preset, .expr, .absolute]

/-- The name of a mode. -/
def label : RangeMode → String
  | .preset => "preset"
  | .expr => "expr"
  | .absolute => "absolute"

/-- The mode of a name. -/
def ofLabel? (s : String) : Option RangeMode :=
  all.find? fun m => m.label = s

@[simp] theorem ofLabel?_label (m : RangeMode) : ofLabel? m.label = some m := by
  cases m <;> decide

end RangeMode

end TrafficBoard
