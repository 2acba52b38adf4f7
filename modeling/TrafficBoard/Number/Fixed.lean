import TrafficBoard.Number.Double
import TrafficBoard.Number.Rounding
import TrafficBoard.Text.Digit

namespace TrafficBoard.Number.Double

/-!
# Fixed places — a finite number with a given number of decimals

* `scaled places x` is the magnitude of `x` in units of `10 ^ -places`, rounded;
* `wholePart` and `decimals` are the two halves of the written number;
* `fixed` joins them, with a minus sign wherever the sign bit is set.

The exact binary value is rounded, and an exact tie goes to the even digit.
-/

/-- The magnitude in units of `10 ^ -places`, to the nearest unit. -/
def scaled (places : Nat) (x : Double) : Nat :=
  let (num, den) := x.ratio
  roundDiv (num * Nat.pow 10 places) den

/-- The digits before the point. -/
def wholePart (places : Nat) (x : Double) : String :=
  toString (x.scaled places / Nat.pow 10 places)

/-- The digits after the point. -/
def decimals (places : Nat) (x : Double) : String :=
  if places = 0 then "" else Text.padded places (x.scaled places % Nat.pow 10 places)

/-- The number with `places` decimals, and no point where there are none. -/
def fixed (places : Nat) (x : Double) : String :=
  let sign := if x.isNegative then "-" else ""
  let point := if places = 0 then "" else "."
  sign ++ x.wholePart places ++ point ++ x.decimals places

end TrafficBoard.Number.Double
