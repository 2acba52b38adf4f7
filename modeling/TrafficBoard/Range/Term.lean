import TrafficBoard.Calendar.Instant
import TrafficBoard.Number.Word
import TrafficBoard.Range.Error
import TrafficBoard.Text.Digit

namespace TrafficBoard

/-!
# Relative terms — signed amounts of a unit of time

* `Term` is one offset such as `-2min`;
* `Term.apply` moves an instant by it;
* `Term.parseAll` reads a run of terms, `Term.write` writes one.

Weeks to seconds have a fixed length, and an offset in them is exact or refused: neither the amount
times the unit nor the sum may leave the signed words. Years and months move along the calendar.
-/

/-- A unit of time. -/
inductive TimeUnit where
  | year
  | month
  | week
  | day
  | hour
  | minute
  | second
  deriving DecidableEq, Repr

namespace TimeUnit

/-- The letters of a unit: `m` is a month and `min` a minute. -/
def letters : TimeUnit → String
  | .year => "y"
  | .month => "m"
  | .week => "w"
  | .day => "d"
  | .hour => "h"
  | .minute => "min"
  | .second => "s"

/-- The length of a unit in milliseconds, for the units that have one. -/
def fixedMs : TimeUnit → Option Int
  | .year => none
  | .month => none
  | .week => some 604800000
  | .day => some 86400000
  | .hour => some 3600000
  | .minute => some 60000
  | .second => some 1000

/-- The count of calendar months in a year or a month. -/
def months : TimeUnit → Int
  | .year => 12
  | _ => 1

/-- The unit at the front of a text, and the rest; the letters of a minute go before that of a
month. -/
def lex? : List Char → Option (TimeUnit × List Char)
  | 'y' :: rest => some (.year, rest)
  | 'm' :: 'i' :: 'n' :: rest => some (.minute, rest)
  | 'm' :: rest => some (.month, rest)
  | 'w' :: rest => some (.week, rest)
  | 'd' :: rest => some (.day, rest)
  | 'h' :: rest => some (.hour, rest)
  | 's' :: rest => some (.second, rest)
  | _ => none

/-- A unit takes at least one letter. -/
theorem length_lt_of_lex? {s rest : List Char} {u : TimeUnit} (h : lex? s = some (u, rest)) :
    rest.length < s.length := by
  unfold lex? at h
  split at h <;> simp at h
  all_goals
    obtain ⟨-, rfl⟩ := h
    simp only [List.length_cons]
    omega

end TimeUnit

/-- One signed offset. -/
structure Term where
  negative : Bool
  amount : Nat
  unit : TimeUnit
  deriving DecidableEq, Repr

namespace Term

/-- The amount with its sign. -/
def signed (t : Term) : Int :=
  if t.negative then -(t.amount : Int) else t.amount

/-- An instant moved by a term. -/
def apply (t : Term) (ms : Int) : Except ExprFault Int :=
  match t.unit.fixedMs with
  | some unit =>
    if Number.InWord (t.amount * unit) ∧ Number.InWord (ms + t.signed * unit) then
      .ok (ms + t.signed * unit)
    else .error .outOfRange
  | none =>
    match Calendar.monthsLater (t.signed * t.unit.months) ms with
    | some ms => .ok ms
    | none => .error .outOfRange

/-- An instant moved by terms one after the other. -/
def applyAll (terms : List Term) (ms : Int) : Except ExprFault Int :=
  terms.foldlM (fun at_ t => t.apply at_) ms

/-- Whether a character is the sign of a term, and which. -/
def sign? : Char → Option Bool
  | '+' => some false
  | '-' => some true
  | _ => none

/-- The parts of a term at the front of a text: the sign, the digits of any script, the unit, and
the rest of the text. -/
def lex? (s : List Char) : Option (Bool × List Char × TimeUnit × List Char) :=
  match Text.dropBlank s with
  | c :: body =>
    match sign? c with
    | some negative =>
      let digits := body.takeWhile Text.isDecimal
      match TimeUnit.lex? (body.dropWhile Text.isDecimal) with
      | some (unit, rest) => if digits.isEmpty then none else some (negative, digits, unit, rest)
      | none => none
    | none => none
  | [] => none

/-- A term takes at least one character. -/
theorem length_lt_of_lex? {s digits rest : List Char} {negative : Bool} {unit : TimeUnit}
    (h : lex? s = some (negative, digits, unit, rest)) : rest.length < s.length := by
  have hdrop : ∀ (p : Char → Bool) (l : List Char), (l.dropWhile p).length ≤ l.length :=
    fun p l => (List.dropWhile_sublist p).length_le
  have hs := hdrop Text.isBlank s
  unfold lex? at h
  split at h
  · rename_i c body hbody
    have hlen : (Text.dropBlank s).length = body.length + 1 := by rw [hbody]; rfl
    simp only [Text.dropBlank] at hlen
    split at h
    · split at h
      · rename_i found hfound
        have h1 := TimeUnit.length_lt_of_lex? hfound
        have h2 := hdrop Text.isDecimal body
        dsimp only at h
        split at h
        · simp at h
        · simp only [Option.some.injEq, Prod.mk.injEq] at h
          obtain ⟨-, -, -, rfl⟩ := h
          omega
      · simp at h
    · simp at h
  · simp at h

/-- The terms that make up a text, with blanks allowed before each term and at the end. -/
def parseAll (s : List Char) : Except ExprFault (List Term) :=
  match h : lex? s with
  | some (negative, digits, unit, rest) =>
    have := length_lt_of_lex? h
    let amount := Text.natOfDigits digits
    if digits.all Text.isDigit ∧ amount < Number.sizeLimit then
      match parseAll rest with
      | .ok terms => .ok ({ negative, amount, unit } :: terms)
      | .error fault => .error fault
    else .error (.amount (String.ofList (s.take (s.length - rest.length))))
  | none =>
    let left := Text.trimChars s
    if left.isEmpty then .ok [] else .error (.trailing (String.ofList left))
termination_by s.length

/-- A term as it is written. -/
def write (t : Term) : String :=
  (if t.negative then "-" else "+") ++ toString t.amount ++ t.unit.letters

end Term

end TrafficBoard
