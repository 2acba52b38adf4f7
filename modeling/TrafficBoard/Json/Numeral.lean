import TrafficBoard.Json.Basic
import TrafficBoard.Number.Word
import TrafficBoard.Text.Digit

namespace TrafficBoard.Json

/-!
# Numerals — the written form of the numbers of a document

* `Numeral` is the written form, `lexNumeral` finds one at the front of a text;
* `Numeral.value` is the number that it denotes, if a double can hold it.

The digits of a numeral are gathered into one significand for as long as it fits a word of
sixty-four bits. Digits past that move the exponent where they stand before the point and are
dropped where they stand after it. A significand with an exponent becomes a double by one rounding
of the significand and one multiplication or division by a power of ten at a time, so the result
can be a unit away from the nearest double: the steps are part of the format of these documents.
-/

/-- The written form of a number. -/
structure Numeral where
  negative : Bool
  whole : List Char
  /-- The digits after the point, if there is one. -/
  fraction : Option (List Char)
  /-- The sign and the digits of the exponent, if there is one. -/
  exponent : Option (Bool × List Char)

/-- A run of digits at the front of a text, and the rest. -/
def lexDigits (s : List Char) : List Char × List Char :=
  (s.takeWhile Text.isDigit, s.dropWhile Text.isDigit)

/-- A non-empty run of digits at the front of a text. -/
def lexDigits1 (s : List Char) : Option (List Char × List Char) :=
  match lexDigits s with
  | ([], _) => none
  | found => some found

/-- The digits before the point: a zero alone, or a run that does not start with one. -/
def lexWhole : List Char → Option (List Char × List Char)
  | '0' :: rest => some (['0'], rest)
  | s => lexDigits1 s

/-- The point and the digits after it, if the text goes on with a point. -/
def lexFraction : List Char → Option (Option (List Char) × List Char)
  | '.' :: rest => (lexDigits1 rest).map fun (digits, rest) => (some digits, rest)
  | s => some (none, s)

/-- The digits of an exponent after its letter. -/
def lexSignedDigits : List Char → Option ((Bool × List Char) × List Char)
  | '+' :: rest => (lexDigits1 rest).map fun (digits, rest) => ((false, digits), rest)
  | '-' :: rest => (lexDigits1 rest).map fun (digits, rest) => ((true, digits), rest)
  | s => (lexDigits1 s).map fun (digits, rest) => ((false, digits), rest)

/-- The exponent, if the text goes on with its letter. -/
def lexExponent : List Char → Option (Option (Bool × List Char) × List Char)
  | 'e' :: rest => (lexSignedDigits rest).map fun (exponent, rest) => (some exponent, rest)
  | 'E' :: rest => (lexSignedDigits rest).map fun (exponent, rest) => (some exponent, rest)
  | s => some (none, s)

/-- A numeral after its sign. -/
def lexMagnitude (negative : Bool) (s : List Char) : Option (Numeral × List Char) := do
  let (whole, s) ← lexWhole s
  let (fraction, s) ← lexFraction s
  let (exponent, s) ← lexExponent s
  return ({ negative, whole, fraction, exponent }, s)

/-- The numeral at the front of a text, and the rest. -/
def lexNumeral : List Char → Option (Numeral × List Char)
  | '-' :: rest => lexMagnitude true rest
  | s => lexMagnitude false s

/-- The significand and the count of the digits that no longer fit it. -/
def gather (significand : Nat) : List Char → Nat × Nat
  | [] => (significand, 0)
  | c :: rest =>
    let next := significand * 10 + Text.digitValue c
    if next < Number.sizeLimit then gather next rest else (significand, rest.length + 1)

/-- The greatest exponent that is read as a number; a longer one counts as unbounded. -/
def maxExponent : Nat := 0x7fffffff

/-- The least exponent that a sum of exponents keeps. -/
def minExponent : Int := -0x80000000

/-- The greatest power of ten that one step multiplies or divides by. -/
def maxPower : Nat := 308

/-- Ten to a natural power, as a double. -/
def tenTo (n : Nat) : Number.Double :=
  .ofDecimal 1 n

/-- `x · 10 ^ exponent` in steps of the greatest power; nothing where it leaves the doubles. -/
def scale : Nat → Number.Double → Int → Option Number.Double
  | 0, x, _ => some x
  | fuel + 1, x, exponent =>
    if exponent.natAbs ≤ maxPower then
      if 0 ≤ exponent then
        let y := x.mul (tenTo exponent.natAbs)
        if y.isFinite then some y else none
      else some (x.div (tenTo exponent.natAbs))
    else if x.isZero then some x
    else if 0 ≤ exponent then none
    else scale fuel (x.div (tenTo maxPower)) (exponent + maxPower)

/-- A significand with a decimal exponent as a double. Sixty-four bits vanish well before the tenth
step, so the count of steps is no bound on the exponent. -/
def ofParts (negative : Bool) (significand : Nat) (exponent : Int) : Option Number.Double :=
  (scale 10 (.ofNat significand) exponent).map fun x => if negative then x.neg else x

/-- The double that a significand with a shifted exponent denotes, the written exponent included. -/
def withExponent (negative : Bool) (significand : Nat) (shift : Int) :
    Option (Bool × List Char) → Option Number.Double
  | none => ofParts negative significand shift
  | some (below, digits) =>
    let written := Text.natOfDigits digits
    if maxExponent < written then
      if significand ≠ 0 ∧ !below then none
      else some (if negative then .negZero else .zero)
    else
      let exponent : Int := if below then shift - written else shift + written
      ofParts negative significand (max minExponent (min exponent maxExponent))

/-- The number that a numeral denotes; there is none beyond the doubles. -/
def Numeral.value (n : Numeral) : Option Num :=
  let (significand, extra) := gather 0 n.whole
  match n.fraction, n.exponent, extra with
  | none, none, 0 =>
    if !n.negative then some (.whole significand)
    else if significand = 0 ∨ Number.Double.signBit < significand then
      some (.real (Number.Double.ofNat significand).neg)
    else some (.whole (-significand))
  | fraction, exponent, _ =>
    let digits := fraction.getD []
    let (significand, dropped) := gather significand digits
    let shift : Int := (extra : Int) - (digits.length - dropped : Nat)
    (withExponent n.negative significand shift exponent).map .real

end TrafficBoard.Json
