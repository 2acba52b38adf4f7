import TrafficBoard.Calendar.Literal
import TrafficBoard.Range.Term
import TrafficBoard.Range.TimeRange

namespace TrafficBoard

/-!
# Time expressions — literals and offsets from now

* `TimeExpr.resolve` is the instant that an expression names;
* `TimeRange.resolve` is the range between two of them.

Ten digits are seconds since 1970 and thirteen milliseconds; a text that starts like a date-time
literal has to be one; anything else has to be `now` and relative terms, which move the present
instant one after the other. Blanks around an expression do not count, and errors show it without
them.
-/

namespace TimeExpr

/-- Whether a text is exactly `count` digits of any script. -/
def isDigits (count : Nat) (s : List Char) : Bool :=
  s.length = count && s.all Text.isDecimal

/-- The number of a text of digits, if they all are ASCII. -/
def digits? (fault : ExprFault) (s : List Char) : Except ExprFault Int :=
  if s.all Text.isDigit then .ok (Text.natOfDigits s) else .error fault

/-- The offsets after `now`, applied to the present instant. -/
def relative (base : Int) : List Char → Except ExprFault Int
  | 'n' :: 'o' :: 'w' :: rest =>
    match Term.parseAll rest with
    | .ok terms => Term.applyAll terms base
    | .error fault => .error fault
  | _ => .error .notNow

/-- The instant that an expression without blanks around it names. -/
def resolveTrimmed (base : Int) (s : List Char) : Except ExprFault Int :=
  if s.isEmpty then .error .empty
  else if isDigits 10 s then (digits? .unixSeconds s).map (· * 1000)
  else if isDigits 13 s then digits? .unixMillis s
  else if Calendar.looksLikeLiteral s then
    match Calendar.parse? s with
    | some ms => .ok ms
    | none => .error .date
  else relative base s

/-- The instant that an expression names when `base` is the present instant. -/
def resolve (expr : String) (base : Int) : Except RangeError Int :=
  let trimmed := Text.trimChars expr.toList
  (resolveTrimmed base trimmed).mapError (.expression (String.ofList trimmed))

end TimeExpr

/-- The terms of a text, as part of an expression that errors name. -/
def Term.parse (rest expr : String) : Except RangeError (List Term) :=
  (parseAll rest.toList).mapError (.expression expr)

/-- The range between two expressions that share the present instant. -/
def TimeRange.resolve (fromExpr toExpr : String) (base : Int) : Except RangeError TimeRange := do
  let fromMs ← TimeExpr.resolve fromExpr base
  let toMs ← TimeExpr.resolve toExpr base
  TimeRange.ofBounds fromMs toMs

end TrafficBoard
