namespace TrafficBoard

/-!
# Range errors — why no range of time comes out

* `ExprFault` says what is wrong with a time expression, `BoundsFault` what with two bounds;
* `RangeError` adds the expression or the bounds, `RangeError.message` is its wording.
-/

/-- What is wrong with a time expression. -/
inductive ExprFault where
  /-- Nothing but blanks. -/
  | empty
  /-- Ten digits, not all of them ASCII. -/
  | unixSeconds
  /-- Thirteen digits, not all of them ASCII. -/
  | unixMillis
  /-- The start of a date-time literal without the rest of one. -/
  | date
  /-- None of the literals, and no `now` at the front. -/
  | notNow
  /-- A term whose amount is no unsigned word. -/
  | amount (term : String)
  /-- Something after the last term. -/
  | trailing (rest : String)
  /-- An offset that leaves the words or the calendar. -/
  | outOfRange
  deriving DecidableEq, Repr

/-- What is wrong with two bounds. -/
inductive BoundsFault where
  | order
  | notFinite
  | noneSelected
  deriving DecidableEq, Repr

/-- Why no range of time comes out. -/
inductive RangeError where
  | expression (expr : String) (fault : ExprFault)
  | bounds (fromMs toMs : Option Int) (fault : BoundsFault)
  deriving DecidableEq, Repr

/-- The reason in words. -/
def ExprFault.reason : ExprFault → String
  | .empty => "empty time expression"
  | .unixSeconds => "invalid unix seconds"
  | .unixMillis => "invalid unix milliseconds"
  | .date => "invalid date"
  | .notNow => "expression must start with \"now\""
  | .amount term => "invalid amount in `" ++ term ++ "`"
  | .trailing rest => "unexpected trailing input `" ++ rest ++ "`"
  | .outOfRange => "offset out of range"

/-- The reason in words. -/
def BoundsFault.reason : BoundsFault → String
  | .order => "from must be < to"
  | .notFinite => "bounds must be finite"
  | .noneSelected => "no absolute range selected"

/-- The reason in words. -/
def RangeError.reason : RangeError → String
  | .expression _ fault => fault.reason
  | .bounds _ _ fault => fault.reason

/-- The error in words. -/
def RangeError.message : RangeError → String
  | .expression expr fault => "invalid time expression `" ++ expr ++ "`: " ++ fault.reason
  | .bounds _ _ fault => "invalid range: " ++ fault.reason

end TrafficBoard
