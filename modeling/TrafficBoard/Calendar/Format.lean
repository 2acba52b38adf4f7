import TrafficBoard.Calendar.Instant
import TrafficBoard.Text.Digit

namespace TrafficBoard.Calendar

/-!
# Formats — dates and times read off a text

* `Fields` are what a text gives of a date and a time, `Fields.instant?` is the instant they name;
* `Item` is one piece of a pattern, `items?` takes a pattern such as `%H:%M` apart;
* `zoned?` reads a text by a pattern with an offset in it, `civil?` by one without;
* `rfc3339?` reads the profile of RFC 3339.

A pattern skips blanks before a number or an offset, and reads a number of fewer digits than its
width. The profile skips nothing, wants every digit, and knows `Z` for no offset. A sixtieth second
reaches into the next minute, and of a fraction nine digits count.
-/

/-! ### Fields -/

/-- What a text gives of a date and a time. Seconds that are not given count as zero. -/
structure Fields where
  year : Option Int := none
  month : Option Nat := none
  day : Option Nat := none
  hour : Option Nat := none
  minute : Option Nat := none
  second : Nat := 0
  nanosecond : Nat := 0
  /-- The seconds by which the clocks are ahead. -/
  offset : Option Int := none
  deriving DecidableEq

/-- A part of a date and a time that is a number of two digits. -/
inductive Part where
  | month
  | day
  | hour
  | minute
  | second
  deriving DecidableEq

/-- The least number of a part. -/
def Part.least : Part → Nat
  | .month => 1
  | .day => 1
  | _ => 0

/-- The greatest number of a part. -/
def Part.greatest : Part → Nat
  | .month => 12
  | .day => 31
  | .hour => 23
  | .minute => 59
  | .second => 60

namespace Fields

/-- Fields with a number for one part. -/
def put (part : Part) (n : Nat) (f : Fields) : Fields :=
  match part with
  | .month => { f with month := some n }
  | .day => { f with day := some n }
  | .hour => { f with hour := some n }
  | .minute => { f with minute := some n }
  | .second => { f with second := n }

/-- Fields with a number for one part, if the part can have it. -/
def set? (part : Part) (n : Nat) (f : Fields) : Option Fields :=
  if part.least ≤ n ∧ n ≤ part.greatest then some (f.put part n) else none

/-- The instant of a date and a time on clocks that are ahead by some seconds. Both the date and the
day of the instant have to be supported. -/
def instant? (offset : Int) (f : Fields) : Option Int := do
  let year ← f.year
  let month ← f.month
  let day ← f.day
  let hour ← f.hour
  let minute ← f.minute
  let date : Date := { year, month, day }
  let start := ofDayAndTime date.dayNumber ((hour * 60 + minute : Nat) * 60000) - offset * 1000
  if date.Valid ∧ SupportedDay date.dayNumber ∧ Supported start then
    some (start + (f.second * 1000 + f.nanosecond / 1000000 : Nat))
  else none

/-- The instant of a date and a time with an offset, which has to be less than a day. -/
def zonedInstant? (f : Fields) : Option Int := do
  let offset ← f.offset
  if -86400 < offset ∧ offset < 86400 then f.instant? offset else none

end Fields

/-! ### Pieces of a text -/

/-- The number of the ASCII digits at the front of a text, and the rest. At least `least` digits
have to be there, and at most `most` are read. -/
def number? (least most : Nat) (s : List Char) : Option (Nat × List Char) :=
  let digits := (s.take most).takeWhile Text.isDigit
  if digits.length < least then none
  else some (Text.natOfDigits digits, s.drop digits.length)

/-- The text after one character of a kind. -/
def skip? (p : Char → Bool) : List Char → Option (List Char)
  | c :: rest => if p c then some rest else none
  | [] => none

/-- The text after a colon. -/
def colon? : List Char → Option (List Char) :=
  skip? fun c => c = ':'

/-- The text after any colons and blanks. -/
def colons? (s : List Char) : Option (List Char) :=
  some (s.dropWhile fun c => c = ':' || Text.isBlank c)

/-- The nanoseconds of a fraction of a second. -/
def nanoseconds (digits : List Char) : Nat :=
  Text.natOfDigits (digits.take 9) * Nat.pow 10 (9 - digits.length)

/-- The nanoseconds of the fraction at the front of a text, if there is one, and the rest. -/
def fraction? : List Char → Option (Nat × List Char)
  | '.' :: rest =>
    let digits := rest.takeWhile Text.isDigit
    if digits.isEmpty then none else some (nanoseconds digits, rest.dropWhile Text.isDigit)
  | s => some (0, s)

/-- The sign of an offset: a plus, a hyphen or the minus sign U+2212. -/
def offsetSign? : Char → Option Int
  | '+' => some 1
  | '-' => some (-1)
  | '\u2212' => some (-1)
  | _ => none

/-- The seconds of the offset at the front of a text, and the rest. Something separates its hours
from its minutes, and a letter may stand for no offset. -/
def offset? (letter : Bool) (separator? : List Char → Option (List Char)) :
    List Char → Option (Int × List Char)
  | c :: rest =>
    if letter ∧ (c = 'Z' ∨ c = 'z') then some (0, rest)
    else do
      let sign ← offsetSign? c
      let (hours, rest) ← number? 2 2 rest
      let rest ← separator? rest
      let (minutes, rest) ← number? 2 2 rest
      if minutes ≤ 59 then some (sign * (hours * 3600 + minutes * 60 : Nat), rest) else none
  | [] => none

/-! ### Patterns -/

/-- A piece of a pattern. -/
inductive Item where
  /-- A year in up to four digits, or in any number of digits after a sign. -/
  | year
  | number (part : Part)
  /-- A point and digits after it, or nothing. -/
  | fraction
  | offset
  | literal (c : Char)
  deriving DecidableEq

/-- The pieces of a pattern, if all of its directives are known. -/
def items? : List Char → Option (List Item)
  | [] => some []
  | '%' :: 'Y' :: rest => (items? rest).map (.year :: ·)
  | '%' :: 'm' :: rest => (items? rest).map (.number .month :: ·)
  | '%' :: 'd' :: rest => (items? rest).map (.number .day :: ·)
  | '%' :: 'H' :: rest => (items? rest).map (.number .hour :: ·)
  | '%' :: 'M' :: rest => (items? rest).map (.number .minute :: ·)
  | '%' :: 'S' :: rest => (items? rest).map (.number .second :: ·)
  | '%' :: '.' :: 'f' :: rest => (items? rest).map (.fraction :: ·)
  | '%' :: ':' :: 'z' :: rest => (items? rest).map (.offset :: ·)
  | '%' :: _ => none
  | c :: rest => (items? rest).map (.literal c :: ·)

/-- The year at the front of a text, and the rest. -/
def year? : List Char → Option (Int × List Char)
  | '-' :: rest => (number? 1 rest.length rest).map fun p => (-(p.1 : Int), p.2)
  | '+' :: rest => (number? 1 rest.length rest).map fun p => ((p.1 : Int), p.2)
  | s => (number? 1 4 s).map fun p => ((p.1 : Int), p.2)

/-- Reads a piece of a pattern off the front of a text. -/
def Item.read? (f : Fields) (s : List Char) : Item → Option (Fields × List Char)
  | .year => (year? (Text.dropBlank s)).map fun p => ({ f with year := some p.1 }, p.2)
  | .number part => do
    let (n, rest) ← number? 1 2 (Text.dropBlank s)
    let f ← f.set? part n
    some (f, rest)
  | .fraction => (fraction? s).map fun p => ({ f with nanosecond := p.1 }, p.2)
  | .offset =>
    (offset? false colons? (Text.dropBlank s)).map fun p => ({ f with offset := some p.1 }, p.2)
  | .literal c => (skip? (fun d => d = c) s).map fun rest => (f, rest)

/-- The fields of a text that the pieces of a pattern use up. -/
def readAll (f : Fields) : List Item → List Char → Option Fields
  | [], [] => some f
  | [], _ :: _ => none
  | item :: items, s => do
    let (f, s) ← item.read? f s
    readAll f items s

/-- The fields of a text that a pattern describes. -/
def fields? (pattern : String) (s : List Char) : Option Fields := do
  let items ← items? pattern.toList
  readAll {} items s

/-- The instant of a text by a pattern with an offset. -/
def zoned? (pattern : String) (s : List Char) : Option Int := do
  let f ← fields? pattern s
  f.zonedInstant?

/-- The instant of a text by a pattern without an offset, in Coordinated Universal Time. -/
def civil? (pattern : String) (s : List Char) : Option Int := do
  let f ← fields? pattern s
  f.instant? 0

/-! ### The profile of RFC 3339 -/

/-- Reads a part in just two digits off the front of a text. -/
def Part.twoDigits? (part : Part) (f : Fields) (s : List Char) : Option (Fields × List Char) := do
  let (n, rest) ← number? 2 2 s
  let f ← f.set? part n
  some (f, rest)

/-- The time of a day after the minute: seconds with a fraction, and an offset. -/
def rfc3339Seconds? (f : Fields) (s : List Char) : Option Fields := do
  let s ← colon? s
  let (f, s) ← Part.second.twoDigits? f s
  let (nanosecond, s) ← fraction? s
  let (offset, s) ← offset? true colon? s
  if s.isEmpty then some { f with nanosecond, offset := some offset } else none

/-- The instant of a text in the profile. -/
def rfc3339? (s : List Char) : Option Int := do
  let (year, s) ← number? 4 4 s
  let s ← skip? (fun c => c = '-') s
  let (f, s) ← Part.month.twoDigits? { year := some year } s
  let s ← skip? (fun c => c = '-') s
  let (f, s) ← Part.day.twoDigits? f s
  let s ← skip? (fun c => c = 'T' || c = 't' || c = ' ') s
  let (f, s) ← Part.hour.twoDigits? f s
  let s ← colon? s
  let (f, s) ← Part.minute.twoDigits? f s
  let f ← rfc3339Seconds? f s
  f.zonedInstant?

end TrafficBoard.Calendar
