import TrafficBoard.Number.Double
import TrafficBoard.Text.Digit

namespace TrafficBoard.Number.Double

/-!
# Shortest decimals — the fewest digits that still denote the same number

* `Decimals` is a whole number of decimal units, `digits · 10 ^ exponent`;
* `shortest` finds the one with the fewest digits among those that round to a given number, and
  the nearest of these;
* `Notation` says how such a number is laid out, and `json` is the layout of documents.

The numbers that round to `m · 2 ^ e` lie between the midpoints to its neighbours; the ends belong
to them where `m` is even. Of each grid of decimal units, coarsest first, only the two points
beside the value need a look: if any point of the grid lies between the midpoints, one of these
does.
-/

/-- A magnitude in decimal: `digits · 10 ^ exponent`. -/
structure Decimals where
  digits : Nat
  exponent : Int
  deriving DecidableEq, Repr

/-- The magnitude of a finite number with the midpoints to its neighbours: value, lower and upper
end are whole multiples of one quarter of the last binary place. -/
structure Interval where
  low : Nat
  value : Nat
  high : Nat
  /-- The exponent of two of the unit that the three are counted in. -/
  exponent : Int
  /-- Whether the ends round to the number as well. -/
  closed : Bool

/-- The interval of magnitudes that round to a finite number. -/
def interval (x : Double) : Interval :=
  let (m, e) := x.parts
  let narrow := m = fractionLimit ∧ -1074 < e
  { low := if narrow then 4 * m - 1 else 4 * m - 2
    value := 4 * m
    high := 4 * m + 2
    exponent := e - 2
    closed := m % 2 = 0 }

/-- How often the decimal unit `10 ^ exponent` goes into the value, rounded down. -/
def Interval.quotient (i : Interval) (exponent : Int) : Nat :=
  let (binaryNum, binaryDen) := powers 2 i.exponent
  let (decimalNum, decimalDen) := powers 10 exponent
  i.value * binaryNum * decimalDen / (binaryDen * decimalNum)

/-- A decimal magnitude and the three of the interval, as multiples of one common unit. -/
def Interval.common (i : Interval) (d : Decimals) : Nat × Nat × Nat × Nat :=
  let (binaryNum, binaryDen) := powers 2 i.exponent
  let (decimalNum, decimalDen) := powers 10 d.exponent
  let unit := binaryNum * decimalDen
  (d.digits * decimalNum * binaryDen, i.low * unit, i.value * unit, i.high * unit)

/-- Whether a decimal magnitude rounds to the number of the interval. -/
def Interval.contains (i : Interval) (d : Decimals) : Bool :=
  let (point, low, _, high) := i.common d
  if i.closed then low ≤ point && point ≤ high else low < point && point < high

/-- How far a decimal magnitude is from the value, as a multiple of the common unit. -/
def Interval.distance (i : Interval) (d : Decimals) : Nat :=
  let (point, _, value, _) := i.common d
  (point - value) + (value - point)

/-- The point of the grid of `10 ^ exponent` that stands for the interval, if one does. -/
def Interval.onGrid (i : Interval) (exponent : Int) : Option Decimals :=
  let below : Decimals := ⟨i.quotient exponent, exponent⟩
  let above : Decimals := ⟨below.digits + 1, exponent⟩
  match i.contains below, i.contains above with
  | true, true =>
    if i.distance below < i.distance above then some below
    else if i.distance above < i.distance below then some above
    else if below.digits % 2 = 0 then some below else some above
  | true, false => some below
  | false, true => some above
  | false, false => none

/-- The number of decimal digits of a natural number, one for zero. -/
def digitCount (n : Nat) : Nat :=
  (toString n).length

/-- The decimal exponent of a unit that is at least the value: one above its leading digit. -/
def Interval.ceiling (i : Interval) : Int :=
  let whole := i.quotient 0
  if 0 < whole then digitCount whole
  else
    let (_, binaryDen) := powers 2 i.exponent
    (digitCount i.value : Int) - digitCount binaryDen + 1

/-- The first grid with a point in the interval, from `exponent` down. -/
def Interval.search (i : Interval) : Nat → Int → Decimals
  | 0, exponent => ⟨i.quotient exponent, exponent⟩
  | fuel + 1, exponent => (i.onGrid exponent).getD (i.search fuel (exponent - 1))

/-- The shortest decimal magnitude of a finite number; zero has the digit zero. -/
def shortest (x : Double) : Decimals :=
  if x.isZero then ⟨0, 0⟩ else x.interval.search 20 x.interval.ceiling

/-- How a decimal magnitude is laid out. -/
structure Layout where
  /-- The least exponent of the leading digit that is written without an exponent. -/
  leastPlain : Int
  /-- The first exponent of the leading digit that is written with one. -/
  firstScientific : Int

/-- Documents write an exponent from `10 ^ 16` up and below `10 ^ -5`. -/
def documentLayout : Layout := ⟨-5, 16⟩

/-- The digits of a magnitude around the point, with at least one digit on either side. -/
def plain (digits : String) (exponent : Int) : String :=
  let point := (digits.length : Int) + exponent
  if 0 ≤ exponent then digits ++ String.ofList (List.replicate exponent.toNat '0') ++ ".0"
  else if 0 < point then
    String.ofList (digits.toList.take point.toNat) ++ "." ++
      String.ofList (digits.toList.drop point.toNat)
  else "0." ++ String.ofList (List.replicate (-point).toNat '0') ++ digits

/-- The digits of a magnitude with the point after the first and a signed exponent. -/
def scientific (digits : String) (lead : Int) : String :=
  let rest := digits.toList.drop 1
  let fraction := if rest.isEmpty then "" else "." ++ String.ofList rest
  let sign := if lead < 0 then "-" else "+"
  String.ofList (digits.toList.take 1) ++ fraction ++ "e" ++ sign ++ toString lead.natAbs

/-- A finite number in its shortest form. -/
def written (layout : Layout) (x : Double) : String :=
  let d := x.shortest
  let digits := toString d.digits
  let lead := (digits.length : Int) - 1 + d.exponent
  let sign := if x.isNegative then "-" else ""
  let positional := decide (layout.leastPlain ≤ lead ∧ lead < layout.firstScientific)
  sign ++ if positional || x.isZero then plain digits d.exponent else scientific digits lead

end TrafficBoard.Number.Double
