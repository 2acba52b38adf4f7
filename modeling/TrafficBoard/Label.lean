import TrafficBoard.Calendar.Instant
import TrafficBoard.Number.Fixed
import TrafficBoard.Number.Word

namespace TrafficBoard.Label

/-!
# Labels — byte counts, numbers and instants for people to read

* `bytes` scales by 1024 up to terabytes, `compact` by 1000 up to billions; `bytesWith` leaves the
  sign of a negative zero open;
* `number` groups the digits by three and keeps up to three decimals;
* `dateTime` gives the date and the minute.

What is not finite, and an instant without a place in the calendar, is a dash.
-/

/-- The label of what has none. -/
def placeholder : String := "—"

/-- The text with `f` of a finite number. -/
def ofFinite (f : Number.Double → String) (x : Number.Double) : String :=
  if x.isFinite then f x else placeholder

/-- The double of 1024. -/
def kibi : Number.Double := .ofNat 1024

/-- Divides by 1024 for as long as the value is at least that and a larger unit is left. -/
def scaleBytes (x : Number.Double) (unit : String) : List String → Number.Double × String
  | [] => (x, unit)
  | larger :: units =>
    if kibi.le x then scaleBytes (x.div kibi) larger units else (x, unit)

/-- The number of decimals of a byte count: none of plain bytes, two below 10, one below 100. -/
def bytePlaces (x : Number.Double) (unit : String) : Nat :=
  if unit = "B" then 0
  else if x.lt (.ofNat 10) then 2
  else if x.lt (.ofNat 100) then 1
  else 0

/-- The larger of a number and zero. Of two zeros either may count as the larger one, so whether a
negative zero keeps its sign is left open. -/
def clamp (keepSign : Bool) (x : Number.Double) : Number.Double :=
  let reaches := if keepSign then Number.Double.le .zero x else Number.Double.lt .zero x
  if reaches then x else .zero

/-- A byte count in its unit; what is below zero counts as zero. -/
def bytesWith (keepSign : Bool) : Number.Double → String :=
  ofFinite fun x =>
    let (scaled, unit) := scaleBytes (clamp keepSign x) "B" ["KB", "MB", "GB", "TB"]
    scaled.fixed (bytePlaces scaled unit) ++ " " ++ unit

/-- A byte count in its unit, with both zeros alike. -/
def bytes : Number.Double → String :=
  bytesWith false

/-- A run of digits with a comma before every group of three from the right. -/
def grouped (digits : List Char) : List Char :=
  match digits with
  | [] => []
  | c :: rest =>
    if rest.length % 3 = 0 && !rest.isEmpty then c :: ',' :: grouped rest else c :: grouped rest

/-- The decimals without the zeros at the end. -/
def significant (decimals : String) : String :=
  String.ofList (decimals.toList.reverse.dropWhile fun c => c = '0').reverse

/-- A number with its digits in groups and at most three decimals. -/
def number : Number.Double → String :=
  ofFinite fun x =>
    let whole := x.wholePart 3
    let decimals := significant (x.decimals 3)
    let shown := whole ≠ "0" ∨ decimals ≠ ""
    let sign := if x.lt .zero ∧ shown then "-" else ""
    let fraction := if decimals = "" then "" else "." ++ decimals
    sign ++ String.ofList (grouped whole.toList) ++ fraction

/-- The scale of a compact number with its letter. -/
def compactScale (magnitude : Number.Double) : Option (Number.Double × String) :=
  if Number.Double.le (.ofNat 1000000000) magnitude then some (.ofNat 1000000000, "B")
  else if Number.Double.le (.ofNat 1000000) magnitude then some (.ofNat 1000000, "M")
  else if Number.Double.le (.ofNat 1000) magnitude then some (.ofNat 1000, "K")
  else none

/-- One decimal, or none where it is zero. -/
def shortDecimal (x : Number.Double) : String :=
  let text := x.fixed 1
  if x.decimals 1 = "0" then String.ofList (text.toList.take (text.length - 2)) else text

/-- A number in thousands, millions or billions with one decimal. -/
def compact : Number.Double → String :=
  ofFinite fun x =>
    match compactScale x.abs with
    | some (scale, letter) => shortDecimal (x.div scale) ++ letter
    | none => shortDecimal x

/-- The date and the minute of an instant in milliseconds. -/
def dateTimeOf (ms : Int) : String :=
  (Calendar.stamp ms).getD placeholder

/-- The date and the minute of an instant given as a double, cut toward zero. -/
def dateTime : Number.Double → String :=
  ofFinite fun x => dateTimeOf (Number.clampWord x.truncate)

end TrafficBoard.Label
