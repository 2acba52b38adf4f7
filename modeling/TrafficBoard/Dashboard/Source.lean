import TrafficBoard.Device.Basic
import TrafficBoard.Files.Tree

namespace TrafficBoard

/-!
# Sources — where charts and tables come from

* `Source` answers requests for the charts and for one table of a window of time;
* `SourceError` says why it cannot, `SourceError.message` is its wording.
-/

/-- Why charts or a table cannot be had. -/
inductive SourceError where
  | unreadable (path : Path) (fault : FileFault)
  /-- A file that is no document, or not one of the expected kind. -/
  | undecodable (path : Path)
  | unavailable (reason : String)
  deriving DecidableEq

namespace SourceError

/-- The error in words; what is wrong inside a document is not told. -/
def message : SourceError → String
  | .unreadable path fault => "failed to read " ++ path.text ++ ": " ++ fault.message
  | .undecodable path => "failed to decode " ++ path.text ++ ": <json>"
  | .unavailable reason => "source unavailable: " ++ reason

end SourceError

/-- A supplier of charts and tables for a window of seconds, its upper bound left out. -/
structure Source (α : Type) where
  charts : (fromSec toSec : Int) → Except SourceError (Charts α)
  table : (kind : TableKind) → (fromSec toSec : Int) → Except SourceError (Table α)

end TrafficBoard
