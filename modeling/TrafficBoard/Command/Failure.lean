import TrafficBoard.Config.Basic
import TrafficBoard.Dashboard.Source
import TrafficBoard.Json.Basic
import TrafficBoard.Range.Error
import TrafficBoard.Range.Store

namespace TrafficBoard.Command

/-!
# Failures — why a command does not succeed

* `Failure` is the cause;
* `Failure.code` is the exit code, `kind`, `message` and `hint?` its wording;
* `Failure.display` is the text for people, `Failure.toJson` the document.
-/

/-- Why a command does not succeed. -/
inductive Failure where
  | range (e : RangeError)
  | config (e : ConfigError)
  | source (e : SourceError)
  | state (e : SaveError)
  /-- No directory of captured documents is named. -/
  | noDataDir
  | missingDataDir (path : Path)
  /-- The output did not pass its checks. -/
  | invalidOutput
  deriving DecidableEq

namespace Failure

/-- The exit code. -/
def code : Failure → Nat
  | .noDataDir => 2
  | .config _ => 3
  | .range _ => 4
  | .invalidOutput => 5
  | .source _ => 6
  | .missingDataDir _ => 6
  | .state _ => 7

/-- The name of the kind of failure. -/
def kind : Failure → String
  | .noDataDir => "usage"
  | .config _ => "config"
  | .range _ => "range"
  | .invalidOutput => "validation"
  | .source _ => "source"
  | .missingDataDir _ => "source"
  | .state _ => "state"

/-- The failure in words. -/
def message : Failure → String
  | .noDataDir => "no capture directory given"
  | .config e => e.message
  | .range e => e.message
  | .invalidOutput => "output failed validation"
  | .source e => e.message
  | .missingDataDir path => "capture directory " ++ path.text ++ " does not exist"
  | .state e => e.message

/-- What to do about the failure, where that is known. -/
def hint? : Failure → Option String
  | .noDataDir => some ("pass --data DIR or set " ++ dataDirVariable)
  | .range _ =>
    some "expressions look like now-24h, now-1y+6m, 1705276800, or 2024-01-15T00:00Z"
  | _ => none

/-- The text for people. -/
def display (f : Failure) : String :=
  match f.hint? with
  | some hint => f.message ++ "\nhint: " ++ hint
  | none => f.message

/-- The document of a failure; trying again helps against none of them. -/
def toJson (f : Failure) : Json :=
  .object
    [("code", .ofInt f.code), ("hint", .ofOption .text f.hint?), ("kind", .text f.kind),
      ("message", .text f.message), ("retryable", .bool false)]

end Failure

end TrafficBoard.Command
