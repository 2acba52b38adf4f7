import TrafficBoard.Text.Blank

namespace TrafficBoard.Text

/-!
# Decimal digits — the ASCII ten, and every character of the category `Nd`

* `isDigit` and `digitValue` know the ten ASCII digits;
* `isDecimal` knows the decimal digits of every script;
* `natOfDigits` reads a run of ASCII digits.

A literal is recognised by its decimal digits of any script, but only ASCII digits have a value
here: a literal in another script is seen and then refused.
-/

/-- The code points of the general category `Nd`. -/
def decimalRanges : List (Nat × Nat) :=
  [(0x0030, 0x0039), (0x0660, 0x0669), (0x06f0, 0x06f9), (0x07c0, 0x07c9), (0x0966, 0x096f),
    (0x09e6, 0x09ef), (0x0a66, 0x0a6f), (0x0ae6, 0x0aef), (0x0b66, 0x0b6f), (0x0be6, 0x0bef),
    (0x0c66, 0x0c6f), (0x0ce6, 0x0cef), (0x0d66, 0x0d6f), (0x0de6, 0x0def), (0x0e50, 0x0e59),
    (0x0ed0, 0x0ed9), (0x0f20, 0x0f29), (0x1040, 0x1049), (0x1090, 0x1099), (0x17e0, 0x17e9),
    (0x1810, 0x1819), (0x1946, 0x194f), (0x19d0, 0x19d9), (0x1a80, 0x1a89), (0x1a90, 0x1a99),
    (0x1b50, 0x1b59), (0x1bb0, 0x1bb9), (0x1c40, 0x1c49), (0x1c50, 0x1c59), (0xa620, 0xa629),
    (0xa8d0, 0xa8d9), (0xa900, 0xa909), (0xa9d0, 0xa9d9), (0xa9f0, 0xa9f9), (0xaa50, 0xaa59),
    (0xabf0, 0xabf9), (0xff10, 0xff19), (0x104a0, 0x104a9), (0x10d30, 0x10d39),
    (0x10d40, 0x10d49), (0x11066, 0x1106f), (0x110f0, 0x110f9), (0x11136, 0x1113f),
    (0x111d0, 0x111d9), (0x112f0, 0x112f9), (0x11450, 0x11459), (0x114d0, 0x114d9),
    (0x11650, 0x11659), (0x116c0, 0x116c9), (0x116d0, 0x116e3), (0x11730, 0x11739),
    (0x118e0, 0x118e9), (0x11950, 0x11959), (0x11bf0, 0x11bf9), (0x11c50, 0x11c59),
    (0x11d50, 0x11d59), (0x11da0, 0x11da9), (0x11f50, 0x11f59), (0x16130, 0x16139),
    (0x16a60, 0x16a69), (0x16ac0, 0x16ac9), (0x16b50, 0x16b59), (0x16d70, 0x16d79),
    (0x1ccf0, 0x1ccf9), (0x1d7ce, 0x1d7ff), (0x1e140, 0x1e149), (0x1e2f0, 0x1e2f9),
    (0x1e4f0, 0x1e4f9), (0x1e5f1, 0x1e5fa), (0x1e950, 0x1e959), (0x1fbf0, 0x1fbf9)]

/-- Whether `c` is a decimal digit of some script. -/
def isDecimal (c : Char) : Bool :=
  inRanges decimalRanges c.toNat

/-- Whether `c` is one of `0` to `9`. -/
def isDigit (c : Char) : Bool :=
  '0' ≤ c && c ≤ '9'

example : (decimalRanges.map fun range => range.2 + 1 - range.1).sum = 760 := rfl

/-- The value of an ASCII digit. -/
def digitValue (c : Char) : Nat :=
  c.toNat - 48

/-- The number that a run of ASCII digits denotes, after `start` of it has been read. -/
def natOfDigitsFrom (start : Nat) (digits : List Char) : Nat :=
  digits.foldl (fun n c => n * 10 + digitValue c) start

/-- The number that a run of ASCII digits denotes; the empty run denotes zero. -/
def natOfDigits (digits : List Char) : Nat :=
  natOfDigitsFrom 0 digits

@[simp] theorem natOfDigits_nil : natOfDigits [] = 0 := rfl

/-- The number denoted by a text that is a non-empty run of ASCII digits. -/
def natOfChars? (s : List Char) : Option Nat :=
  if !s.isEmpty && s.all isDigit then some (natOfDigits s) else none

/-- The number denoted by a text that is a run of ASCII digits with an optional `+` before it. -/
def unsigned? (s : List Char) : Option Nat :=
  match s with
  | '+' :: rest => natOfChars? rest
  | _ => natOfChars? s

/-- The number denoted by a text that is a run of ASCII digits with an optional sign before it. -/
def signed? (s : List Char) : Option Int :=
  match s with
  | '-' :: rest => (natOfChars? rest).map fun n => -(n : Int)
  | _ => (unsigned? s).map fun n => (n : Int)

/-- The ASCII digits of a number, padded with zeros on the left to a least width. -/
def padded (width n : Nat) : String :=
  let digits := toString n
  String.ofList (List.replicate (width - digits.length) '0') ++ digits

/-- A text followed by as many spaces as it lacks to a least width in characters. -/
def padRight (width : Nat) (s : String) : String :=
  s ++ String.ofList (List.replicate (width - s.length) ' ')

end TrafficBoard.Text
