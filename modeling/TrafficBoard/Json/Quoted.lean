import TrafficBoard.Text.Digit

namespace TrafficBoard.Json

/-!
# Quoted texts — the escapes of a text between quotation marks

* `encodeText` writes the characters of a text between the marks, `lexText` reads them back;
* a `TextUnit` is a character as it stands or a code written as `\u` and four hexadecimal digits;
* `assemble` joins the two codes of a surrogate pair and refuses half of one.
-/

/-- One part of a quoted text: a character, or a code of sixteen bits. -/
inductive TextUnit where
  | char (c : Char)
  | code (n : Nat)

/-- The value of a hexadecimal digit. -/
def hexValue? (c : Char) : Option Nat :=
  if '0' ≤ c ∧ c ≤ '9' then some (c.toNat - 48)
  else if 'a' ≤ c ∧ c ≤ 'f' then some (c.toNat - 87)
  else if 'A' ≤ c ∧ c ≤ 'F' then some (c.toNat - 55)
  else none

/-- The value of a run of hexadecimal digits. -/
def hexNumber? (digits : List Char) : Option Nat :=
  digits.foldlM (fun n c => (hexValue? c).map fun d => n * 16 + d) 0

/-- The character that a backslash and one letter stand for. -/
def shortEscape? : Char → Option Char
  | '"' => some '"'
  | '\\' => some '\\'
  | '/' => some '/'
  | 'b' => some '\x08'
  | 'f' => some '\x0c'
  | 'n' => some '\n'
  | 'r' => some '\r'
  | 't' => some '\t'
  | _ => none

/-- The parts of a quoted text up to its closing mark, and what follows the mark. -/
def lexText : List Char → Option (List TextUnit × List Char)
  | [] => none
  | '"' :: rest => some ([], rest)
  | '\\' :: 'u' :: a :: b :: c :: d :: rest => do
    let code ← hexNumber? [a, b, c, d]
    let (units, rest) ← lexText rest
    return (.code code :: units, rest)
  | '\\' :: c :: rest => do
    let c ← shortEscape? c
    let (units, rest) ← lexText rest
    return (.char c :: units, rest)
  | c :: rest =>
    if c.toNat < 0x20 ∨ c = '\\' then none
    else do
      let (units, rest) ← lexText rest
      return (.char c :: units, rest)

/-- Whether a code is the first half of a surrogate pair. -/
def isHigh (code : Nat) : Bool :=
  0xd800 ≤ code && code < 0xdc00

/-- Whether a code is the second half of a surrogate pair. -/
def isLow (code : Nat) : Bool :=
  0xdc00 ≤ code && code < 0xe000

/-- The characters of a quoted text; there are none where half of a surrogate pair is left. -/
def assemble : List TextUnit → Option (List Char)
  | [] => some []
  | .char c :: rest => (assemble rest).map (c :: ·)
  | .code high :: .code low :: rest =>
    if isHigh high && isLow low then
      let c := Char.ofNat (0x10000 + (high - 0xd800) * 0x400 + (low - 0xdc00))
      (assemble rest).map (c :: ·)
    else if isHigh high || isLow high then none
    else (assemble (.code low :: rest)).map (Char.ofNat high :: ·)
  | .code code :: rest =>
    if isHigh code || isLow code then none
    else (assemble rest).map (Char.ofNat code :: ·)

/-- A hexadecimal digit in lower case. -/
def hexDigit (n : Nat) : Char :=
  Char.ofNat (if n < 10 then 48 + n else 87 + n)

/-- One character between quotation marks. -/
def encodeChar (c : Char) : List Char :=
  match c with
  | '"' => ['\\', '"']
  | '\\' => ['\\', '\\']
  | '\x08' => ['\\', 'b']
  | '\x0c' => ['\\', 'f']
  | '\n' => ['\\', 'n']
  | '\r' => ['\\', 'r']
  | '\t' => ['\\', 't']
  | c =>
    if c.toNat < 0x20 then
      ['\\', 'u', '0', '0', hexDigit (c.toNat / 16), hexDigit (c.toNat % 16)]
    else [c]

/-- The characters of a text as they stand between quotation marks. -/
def encodeText (s : List Char) : List Char :=
  s.flatMap encodeChar

@[simp] theorem encodeText_nil : encodeText [] = [] := rfl

@[simp] theorem encodeText_cons (c : Char) (s : List Char) :
    encodeText (c :: s) = encodeChar c ++ encodeText s := rfl

/-- A text between its quotation marks. -/
def quote (s : String) : String :=
  "\"" ++ String.ofList (encodeText s.toList) ++ "\""

end TrafficBoard.Json
