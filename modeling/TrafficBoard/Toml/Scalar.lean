import TrafficBoard.Calendar.Date
import TrafficBoard.Json.Quoted
import TrafficBoard.Text.Digit
import TrafficBoard.Toml.Basic

namespace TrafficBoard.Toml

/-!
# Bare scalars — numbers, truth values, dates and times

* `integer?` reads decimal, hexadecimal, octal and binary whole numbers;
* `isReal`, `isDate`, `isTime` and `isMoment` decide the form of the others;
* `scalar?` is the value of a word without marks.

One underscore may stand between two digits. A whole number has to fit one hundred and twenty-eight
bits, with or without a sign, and a real number the doubles.
-/

/-- The digits of a run in which single underscores may stand between digits. -/
def plainDigits? (isDigit : Char → Bool) : List Char → Option (List Char)
  | [] => none
  | [c] => if isDigit c then some [c] else none
  | c :: '_' :: rest =>
    if isDigit c then (plainDigits? isDigit rest).map (c :: ·) else none
  | c :: rest => if isDigit c then (plainDigits? isDigit rest).map (c :: ·) else none

/-- A digit of a base up to sixteen. -/
def isDigitOf (base : Nat) (c : Char) : Bool :=
  (Json.hexValue? c).any fun d => d < base

/-- The number that a run of digits denotes in a base. -/
def natOfBase? (base : Nat) (s : List Char) : Option Nat :=
  (plainDigits? (isDigitOf base) s).map fun digits =>
    digits.foldl (fun n c => n * base + (Json.hexValue? c).getD 0) 0

/-- The digits of a decimal number without needless zeros at the front. -/
def decimalDigits? (s : List Char) : Option (List Char) :=
  (plainDigits? Text.isDigit s).filter fun digits => digits = ['0'] || digits.head? ≠ some '0'

/-- A word after its sign. -/
def unsignedPart : List Char → Bool × List Char
  | '+' :: rest => (false, rest)
  | '-' :: rest => (true, rest)
  | s => (false, s)

/-- The whole number of a decimal numeral. -/
def decimal? (s : List Char) : Option Int :=
  let (negative, digits) := unsignedPart s
  (decimalDigits? digits).map fun digits =>
    let n : Int := Text.natOfDigits digits
    if negative then -n else n

/-- Two to the one hundred and twenty-seventh power. -/
def integerBound : Int := 0x80000000000000000000000000000000

/-- The whole number of a numeral, if it fits the bits. -/
def integer? (s : List Char) : Option Int :=
  let n : Option Int := match s with
    | '0' :: 'x' :: digits => (natOfBase? 16 digits).map Int.ofNat
    | '0' :: 'o' :: digits => (natOfBase? 8 digits).map Int.ofNat
    | '0' :: 'b' :: digits => (natOfBase? 2 digits).map Int.ofNat
    | s => decimal? s
  n.filter fun n => -integerBound ≤ n ∧ n < 2 * integerBound

/-- The written exponent of a word, if there is one, and what stands before it. -/
def splitExponent (s : List Char) : List Char × Option (List Char) :=
  let front := s.takeWhile fun c => c ≠ 'e' && c ≠ 'E'
  if front.length = s.length then (front, none) else (front, some (s.drop (front.length + 1)))

/-- The digits after the point of a word, if there is one, and what stands before it. -/
def splitPoint (s : List Char) : List Char × Option (List Char) :=
  let front := s.takeWhile fun c => c ≠ '.'
  if front.length = s.length then (front, none) else (front, some (s.drop (front.length + 1)))

/-- Whether some digits with an exponent stay within the doubles. -/
def fitsDouble (whole fraction : List Char) (exponent : Int) : Bool :=
  let digits := (whole ++ fraction).dropWhile fun c => c = '0'
  let size := (digits.length : Int) - fraction.length + exponent
  if digits.isEmpty ∨ size ≤ 308 then true
  else if 309 < size then false
  else
    (Number.Double.ofDecimal (Text.natOfDigits digits) (exponent - fraction.length)).isFinite

/-- The exponent that some digits after a sign denote. -/
def exponent? (s : List Char) : Option Int :=
  let (negative, digits) := unsignedPart s
  (plainDigits? Text.isDigit digits).map fun digits =>
    let n : Int := Text.natOfDigits digits
    if negative then -n else n

/-- Whether a word is a real number with a point, an exponent or both. -/
def isDecimalReal (s : List Char) : Bool :=
  let (mantissa, exponent) := splitExponent (unsignedPart s).2
  let (whole, fraction) := splitPoint mantissa
  let found := do
    let whole ← decimalDigits? whole
    let fraction ← match fraction with
      | some digits => plainDigits? Text.isDigit digits
      | none => some []
    let exponent ← match exponent with
      | some digits => exponent? digits
      | none => some 0
    return fitsDouble whole fraction exponent
  (fraction.isSome || exponent.isSome) && found.getD false

/-- Whether a word is a real number. -/
def isReal (s : List Char) : Bool :=
  let unsigned := (unsignedPart s).2
  unsigned = "inf".toList || unsigned = "nan".toList || isDecimalReal s

/-! ### Dates and times -/

/-- The number of exactly `count` digits. -/
def numberOf? (count : Nat) (s : List Char) : Option Nat :=
  if s.length = count then Text.natOfChars? s else none

/-- Whether a word is a date of the calendar. -/
def isDate (s : List Char) : Bool :=
  let found := do
    let year ← numberOf? 4 (s.take 4)
    let month ← numberOf? 2 ((s.drop 5).take 2)
    let day ← numberOf? 2 ((s.drop 8).take 2)
    let date : Calendar.Date := { year, month, day }
    return decide (date.Valid ∧ s[4]? = some '-' ∧ s[7]? = some '-' ∧ s.length = 10)
  found.getD false

/-- Whether a word is an hour and a minute. -/
def isHourMinute (s : List Char) : Bool :=
  let found := do
    let hour ← numberOf? 2 (s.take 2)
    let minute ← numberOf? 2 (s.drop 3)
    return decide (hour ≤ 23 ∧ minute ≤ 59 ∧ s[2]? = some ':')
  found.getD false

/-- Whether a word is a number of seconds, a fraction of which may follow a point. -/
def isSeconds (s : List Char) : Bool :=
  let (whole, fraction) := splitPoint s
  (numberOf? 2 whole).any (fun n => n ≤ 60) &&
    match fraction with
    | some digits => !digits.isEmpty && digits.all Text.isDigit
    | none => true

/-- Whether a word is a time of day; the seconds may be left out. -/
def isTime (s : List Char) : Bool :=
  isHourMinute (s.take 5) &&
    match s.drop 5 with
    | [] => true
    | ':' :: seconds => isSeconds seconds
    | _ => false

/-- Whether a word is an offset from Coordinated Universal Time. -/
def isOffset : List Char → Bool
  | ['Z'] => true
  | ['z'] => true
  | '+' :: rest => isHourMinute rest
  | '-' :: rest => isHourMinute rest
  | _ => false

/-- Whether a word is a time of day, with an offset or without. -/
def isZonedTime (s : List Char) : Bool :=
  let time := s.takeWhile fun c => c ≠ 'Z' && c ≠ 'z' && c ≠ '+' && c ≠ '-'
  isTime time && (time.length = s.length || isOffset (s.drop time.length))

/-- Whether a word is a date, a time, or a date and a time. -/
def isMoment (s : List Char) : Bool :=
  isDate s || isTime s ||
    (isDate (s.take 10) && isZonedTime (s.drop 11) &&
      ((s[10]?).any fun c => c = 'T' || c = 't' || c = ' '))

/-! ### Words -/

/-- The value of a word without marks. -/
def scalar? (s : List Char) : Option Toml :=
  if s = "true".toList then some (.boolean true)
  else if s = "false".toList then some (.boolean false)
  else if isMoment s then some (.moment (String.ofList s))
  else if isReal s then some (.real (String.ofList s))
  else (integer? s).map .integer

/-- A character of a word. -/
def isWordChar (c : Char) : Bool :=
  c.isAlphanum || c = '_' || c = '+' || c = '-' || c = '.' || c = ':'

/-- The word at the front of a text, and the rest. A space between a date and a time belongs to the
word. -/
def lexWord (s : List Char) : List Char × List Char :=
  let word := s.takeWhile isWordChar
  match s.drop word.length with
  | ' ' :: c :: rest =>
    if isDate word && Text.isDigit c then
      let time := (c :: rest).takeWhile isWordChar
      (word ++ ' ' :: time, (c :: rest).drop time.length)
    else (word, ' ' :: c :: rest)
  | rest => (word, rest)

/-- The value of the word at the front of a text, and the rest. -/
def lexScalar (s : List Char) : Option (Toml × List Char) :=
  let (word, rest) := lexWord s
  (scalar? word).map fun v => (v, rest)

example : integer? "1_000".toList = some 1000 ∧ integer? "05".toList = none := by decide +kernel
example : isMoment "1979-05-27 07:32:00Z".toList = true := by decide +kernel
example : isReal "6.02e+2_3".toList = true ∧ isReal "1.".toList = false := by decide +kernel

end TrafficBoard.Toml
