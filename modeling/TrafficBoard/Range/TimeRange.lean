import TrafficBoard.Number.Double
import TrafficBoard.Number.Word
import TrafficBoard.Range.Error

namespace TrafficBoard

/-!
# Time ranges — a half-open stretch of time that is not empty

* `TimeRange` holds the two bounds in milliseconds with the proof that they are in order;
* `TimeRange.ofBounds` and `ofDoubles` build one where the bounds allow it;
* `TimeRange.lastDay` is the day that ends at an instant.
-/

/-- The instants from `fromMs` up to but not including `toMs`. -/
structure TimeRange where
  fromMs : Int
  toMs : Int
  ordered : fromMs < toMs := by omega
  deriving DecidableEq

namespace TimeRange

/-- The range between two bounds in order. -/
def ofBounds (fromMs toMs : Int) : Except RangeError TimeRange :=
  if h : fromMs < toMs then .ok { fromMs, toMs, ordered := h }
  else .error (.bounds (some fromMs) (some toMs) .order)

@[simp] theorem ofBounds_of_lt {fromMs toMs : Int} (h : fromMs < toMs) :
    ofBounds fromMs toMs = .ok ⟨fromMs, toMs, h⟩ := by
  simp [ofBounds, h]

@[simp] theorem ofBounds_of_not_lt {fromMs toMs : Int} (h : ¬ fromMs < toMs) :
    ofBounds fromMs toMs = .error (.bounds (some fromMs) (some toMs) .order) := by
  simp [ofBounds, h]

/-- The milliseconds of a bound given as a double, cut toward zero; a bound has to be finite and
smaller in magnitude than the least signed word. -/
def bound? (x : Number.Double) : Option Int :=
  if x.isFinite ∧ x.truncate.natAbs < Number.wordMin.natAbs then some x.truncate else none

/-- The range between two bounds given as doubles. -/
def ofDoubles (fromMs toMs : Number.Double) : Except RangeError TimeRange :=
  match bound? fromMs, bound? toMs with
  | some a, some b => ofBounds a b
  | a, b => .error (.bounds a b .notFinite)

/-- The milliseconds of 24 hours. -/
def dayMs : Int := 86400000

/-- The 24 hours before an instant. -/
def lastDay (nowMs : Int) : TimeRange :=
  { fromMs := nowMs - dayMs, toMs := nowMs, ordered := by simp only [dayMs]; omega }

/-- The lower bound in whole seconds, rounded down. -/
def fromSeconds (r : TimeRange) : Int :=
  r.fromMs / 1000

/-- The upper bound in whole seconds, rounded down. -/
def toSeconds (r : TimeRange) : Int :=
  r.toMs / 1000

/-- The length in milliseconds. -/
def durationMs (r : TimeRange) : Int :=
  r.toMs - r.fromMs

/-- A range is not empty. -/
theorem durationMs_pos (r : TimeRange) : 0 < r.durationMs := by
  have := r.ordered
  simp only [durationMs]
  omega

end TimeRange

end TrafficBoard
