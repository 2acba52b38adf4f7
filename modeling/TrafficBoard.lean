import TrafficBoard.Calendar.Date
import TrafficBoard.Calendar.Format
import TrafficBoard.Calendar.Instant
import TrafficBoard.Calendar.Literal
import TrafficBoard.Command.Arguments
import TrafficBoard.Command.Failure
import TrafficBoard.Command.Invocation
import TrafficBoard.Command.Report
import TrafficBoard.Command.Run
import TrafficBoard.Config.Basic
import TrafficBoard.Config.Document
import TrafficBoard.Dashboard.Check
import TrafficBoard.Dashboard.Document
import TrafficBoard.Dashboard.Session
import TrafficBoard.Dashboard.Snapshot
import TrafficBoard.Dashboard.Source
import TrafficBoard.Dashboard.View
import TrafficBoard.Device.Basic
import TrafficBoard.Device.Decode
import TrafficBoard.Files.Path
import TrafficBoard.Files.Tree
import TrafficBoard.Json.Basic
import TrafficBoard.Json.Decode
import TrafficBoard.Json.Numeral
import TrafficBoard.Json.Parser
import TrafficBoard.Json.Printer
import TrafficBoard.Json.Quoted
import TrafficBoard.Label
import TrafficBoard.Main
import TrafficBoard.Number.Double
import TrafficBoard.Number.Fixed
import TrafficBoard.Number.Rounding
import TrafficBoard.Number.Shortest
import TrafficBoard.Number.Word
import TrafficBoard.Proofs.Calendar.Days
import TrafficBoard.Proofs.Calendar.Fronts
import TrafficBoard.Proofs.Calendar.Tails
import TrafficBoard.Proofs.Calendar.OnePass
import TrafficBoard.Proofs.Calendar.Literals
import TrafficBoard.Proofs.Command.StateFile
import TrafficBoard.Proofs.Dashboard.Cancellation
import TrafficBoard.Proofs.Dashboard.CategoryChecks
import TrafficBoard.Proofs.Dashboard.Failures
import TrafficBoard.Proofs.Dashboard.Fetches
import TrafficBoard.Proofs.Dashboard.Invalidation
import TrafficBoard.Proofs.Device.Isolation
import TrafficBoard.Proofs.Device.Items
import TrafficBoard.Proofs.Device.LabelOrder
import TrafficBoard.Proofs.Files.Tree
import TrafficBoard.Proofs.Json.Canonical
import TrafficBoard.Proofs.Json.RoundTrip
import TrafficBoard.Proofs.Json.Tokens
import TrafficBoard.Proofs.Range.Generations
import TrafficBoard.Proofs.Range.Grammar
import TrafficBoard.Proofs.Range.History
import TrafficBoard.Proofs.Range.Presets
import TrafficBoard.Proofs.Range.Requests
import TrafficBoard.Proofs.Range.Restart
import TrafficBoard.Proofs.Range.Store
import TrafficBoard.Proofs.Series.ArrivalOrder
import TrafficBoard.Proofs.Series.Budgets
import TrafficBoard.Proofs.Series.Checks
import TrafficBoard.Proofs.Series.Exact
import TrafficBoard.Proofs.Series.Grid
import TrafficBoard.Proofs.Series.Rankings
import TrafficBoard.Proofs.Series.Selection
import TrafficBoard.Proofs.Series.Timeline
import TrafficBoard.Proofs.Series.Totals
import TrafficBoard.Proofs.Series.Trimming
import TrafficBoard.Proofs.Series.UnusableSteps
import TrafficBoard.Proofs.Series.WindowSums
import TrafficBoard.Proofs.Series.Windows
import TrafficBoard.Proofs.Text.Digits
import TrafficBoard.Range.Controller
import TrafficBoard.Range.Error
import TrafficBoard.Range.Expr
import TrafficBoard.Range.Preset
import TrafficBoard.Range.Selection
import TrafficBoard.Range.Store
import TrafficBoard.Range.Term
import TrafficBoard.Range.TimeRange
import TrafficBoard.Series.Basic
import TrafficBoard.Series.Builder
import TrafficBoard.Series.Check
import TrafficBoard.Series.Count
import TrafficBoard.Series.CountMap
import TrafficBoard.Series.Gaps
import TrafficBoard.Series.Limit
import TrafficBoard.Series.Plan
import TrafficBoard.Series.Ranking
import TrafficBoard.Series.Step
import TrafficBoard.Text.Blank
import TrafficBoard.Text.Digit
import TrafficBoard.Toml.Basic
import TrafficBoard.Toml.Outline
import TrafficBoard.Toml.Parser
import TrafficBoard.Toml.Quoted
import TrafficBoard.Toml.Scalar
import TrafficBoard.Proofs.Calendar.Dates
import TrafficBoard.Proofs.Calendar.Months
import TrafficBoard.Proofs.Range.Offsets
import TrafficBoard.Proofs.Range.Direction
import TrafficBoard.Proofs.Range.CalendarTerms
import TrafficBoard.Proofs.Series.Spacing
import TrafficBoard.Proofs.Series.FinestGrid
import TrafficBoard.Proofs.Series.GapFilling
import TrafficBoard.Proofs.Series.Refilling
import TrafficBoard.Proofs.Series.Resampling
import TrafficBoard.Proofs.Dashboard.TrafficChecks
import TrafficBoard.Proofs.Series.TopRows
import TrafficBoard.Proofs.Series.Tallies
import TrafficBoard.Proofs.Series.Reports
import TrafficBoard.Proofs.Device.AdjacentRanges
import TrafficBoard.Proofs.Device.Elements
import TrafficBoard.Proofs.Number.Values
import TrafficBoard.Proofs.Number.Packing
import TrafficBoard.Proofs.Label.Instants
import TrafficBoard.Proofs.Number.Quotients
import TrafficBoard.Proofs.Number.Decimals
import TrafficBoard.Proofs.Label.Readings
import TrafficBoard.Proofs.Label.Scales
