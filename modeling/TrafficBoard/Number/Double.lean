import TrafficBoard.Number.Rounding

namespace TrafficBoard.Number

/-!
# Double-precision numbers — sixty-four bits with both signs of every value

* `Double` holds the bits of a number in the interchange format: a sign, eleven bits of exponent
  and fifty-two of fraction;
* `Double.add`, `sub`, `mul` and `div` are the rounded operations;
* `Double.totalKey` orders all of them, not-a-number included;
* `Double.parts` reads a finite one as a whole number times a power of two.

The sign of not-a-number matters here, since it decides where a count ranks. An operand that is
not a number passes through unchanged, the first one first; an operation without a result, such as
`∞ − ∞`, gives the negative one.
-/

/-- A double-precision number, as its bits. -/
structure Double where
  bits : UInt64
  deriving DecidableEq

namespace Double

/-- The value of the sign bit. -/
def signBit : Nat := 0x8000000000000000

/-- The bits of exponent and fraction, which order the magnitudes. -/
def magnitude (x : Double) : Nat :=
  x.bits.toNat % signBit

/-- Whether the sign bit is set. -/
def isNegative (x : Double) : Bool :=
  signBit ≤ x.bits.toNat

/-- The magnitude of the infinities, above every finite one and below every not-a-number. -/
def infiniteMagnitude : Nat := 0x7ff0000000000000

/-- Whether `x` is not a number. -/
def isNaN (x : Double) : Bool :=
  infiniteMagnitude < x.magnitude

/-- Whether `x` is a number other than the infinities. -/
def isFinite (x : Double) : Bool :=
  x.magnitude < infiniteMagnitude

/-- Whether `x` is one of the two zeros. -/
def isZero (x : Double) : Bool :=
  x.magnitude = 0

/-- Positive zero. -/
def zero : Double := ⟨0⟩

/-- Negative zero, the neutral value of addition. -/
def negZero : Double := ⟨0x8000000000000000⟩

/-- One. -/
def one : Double := ⟨0x3ff0000000000000⟩

/-- The result of an operation that has none. -/
def invalid : Double := ⟨0xfff8000000000000⟩

/-- The number of the machine with these bits. -/
def toFloat (x : Double) : Float :=
  Float.ofBits x.bits

/-- The bits of a number of the machine. -/
def ofFloat (x : Float) : Double :=
  ⟨x.toBits⟩

/-- An operation of the machine on the numbers it is meant for, with the rule for the others. -/
def lift (op : Float → Float → Float) (x y : Double) : Double :=
  if x.isNaN then x
  else if y.isNaN then y
  else
    let result := ofFloat (op x.toFloat y.toFloat)
    if result.isNaN then invalid else result

/-- The sum, rounded to nearest. -/
def add : Double → Double → Double := lift (· + ·)

/-- The difference, rounded to nearest. -/
def sub : Double → Double → Double := lift (· - ·)

/-- The product, rounded to nearest. -/
def mul : Double → Double → Double := lift (· * ·)

/-- The quotient, rounded to nearest. -/
def div : Double → Double → Double := lift (· / ·)

/-- The same magnitude with the other sign. -/
def neg (x : Double) : Double :=
  ⟨x.bits ^^^ 0x8000000000000000⟩

/-- The same magnitude without a sign. -/
def abs (x : Double) : Double :=
  ⟨x.bits &&& 0x7fffffffffffffff⟩

/-- The place of a number in the total order: negative not-a-number, negative numbers, negative
zero, positive zero, positive numbers, positive not-a-number. -/
def totalKey (x : Double) : Int :=
  if x.isNegative then -(x.magnitude : Int) - 1 else x.magnitude

/-- The place of a number in the order of values, where the two zeros are one. -/
def valueKey (x : Double) : Int :=
  if x.isNegative then -(x.magnitude : Int) else x.magnitude

/-- Whether the value of `x` is below that of `y`; never where one is not a number. -/
def lt (x y : Double) : Bool :=
  !x.isNaN && !y.isNaN && x.valueKey < y.valueKey

/-- Whether the value of `x` is at most that of `y`; never where one is not a number. -/
def le (x y : Double) : Bool :=
  !x.isNaN && !y.isNaN && x.valueKey ≤ y.valueKey

/-- The value of the lowest exponent bit: two to the number of fraction bits. -/
def fractionLimit : Nat := 0x10000000000000

/-- The whole number `m` and the exponent `e` with `m · 2 ^ e` the magnitude of a finite number. -/
def parts (x : Double) : Nat × Int :=
  let exponent : Nat := x.magnitude / fractionLimit
  let fraction := x.magnitude % fractionLimit
  if exponent = 0 then (fraction, -1074) else (fractionLimit + fraction, (exponent : Int) - 1075)

/-- The magnitude of a finite number as a fraction of whole numbers. -/
def ratio (x : Double) : Nat × Nat :=
  let (m, e) := x.parts
  if 0 ≤ e then (m * Nat.pow 2 e.toNat, 1) else (m, Nat.pow 2 (-e).toNat)

/-- The whole part of a finite number, cut toward zero. -/
def truncate (x : Double) : Int :=
  let (num, den) := x.ratio
  let whole := num / den
  if x.isNegative then -(whole : Int) else whole

/-- Two powers with natural exponents whose quotient is `base ^ exponent`. -/
def powers (base : Nat) (exponent : Int) : Nat × Nat :=
  if 0 ≤ exponent then (Nat.pow base exponent.toNat, 1) else (1, Nat.pow base (-exponent).toNat)

/-- The quotient `num / den` in units of `2 ^ exponent`, as a fraction. -/
def inUnits (num den : Nat) (exponent : Int) : Nat × Nat :=
  let (unitNum, unitDen) := powers 2 exponent
  (num * unitDen, den * unitNum)

/-- The exponent of the last binary place that a double near `num / den` has. -/
def lastPlace (num den : Nat) : Int :=
  let estimate := max (-1074) ((Nat.log2 num : Int) - Nat.log2 den - 53)
  let (top, bottom) := inUnits num den estimate
  if 2 * fractionLimit ≤ top / bottom then estimate + 1 else estimate

/-- The double nearest to `num / den`, a tie going to the even one. -/
def ofRatio (num den : Nat) : Double :=
  if num = 0 then zero
  else
    let exponent := lastPlace num den
    let (top, bottom) := inUnits num den exponent
    let code := (exponent + 1074).toNat * fractionLimit + roundDiv top bottom
    ⟨UInt64.ofNat (min code infiniteMagnitude)⟩

/-- The double nearest to `digits · 10 ^ exponent`. -/
def ofDecimal (digits : Nat) (exponent : Int) : Double :=
  let (num, den) := powers 10 exponent
  ofRatio (digits * num) den

/-- The double nearest to a natural number. -/
def ofNat (n : Nat) : Double :=
  ofRatio n 1

/-- The double nearest to an integer; zero has no sign. -/
def ofInt (n : Int) : Double :=
  if n < 0 then (ofNat n.natAbs).neg else ofNat n.natAbs

example : totalKey negZero < totalKey zero := by decide
example : lt negZero zero = false ∧ le negZero zero = true := by decide
example : (ofInt (-3)).truncate = -3 := by decide +kernel
example : ofDecimal 1 (-1) = ⟨0x3fb999999999999a⟩ := by decide +kernel
example : ofDecimal 5 (-324) = ⟨1⟩ := by decide +kernel

end Double

end TrafficBoard.Number
