import TrafficBoard.Json.Numeral
import TrafficBoard.Json.Quoted

namespace TrafficBoard.Json

/-!
# Reading documents — from a text to the value that it denotes

* `value` reads one value at the front of a text, `elements` and `members` the inside of a
  container;
* `parse?` reads a whole text.

Every step of the reader takes a character, so twice the length of the text is fuel enough. The
level of a container is known when it opens; one below the greatest depth is read to its end, for
the text has to be well formed, and then denotes nothing.
-/

/-- The characters that may stand between the parts of a document. -/
def isSpace (c : Char) : Bool :=
  c = ' ' || c = '\n' || c = '\t' || c = '\r'

/-- A text without its leading space. -/
def skipSpace (s : List Char) : List Char :=
  s.dropWhile isSpace

/-- A container at a level, if it can be read there. -/
def atLevel (level : Nat) (container : Json) : Json :=
  if level ≤ maxDepth then container else .unreadable

/-- An object of members, if all of their names can be read. -/
def objectOf (members : List (Option String × Json)) : Json :=
  match members.mapM fun (name, v) => name.map fun name => (name, v) with
  | some members => .object members
  | none => .unreadable

/-- The text of a quoted part, if it can be read. -/
def textOf (units : List TextUnit) : Option String :=
  (assemble units).map String.ofList

/-- A numeral at the front of a text as a value. -/
def lexNumber (s : List Char) : Option (Json × List Char) := do
  let (numeral, rest) ← lexNumeral s
  return (match numeral.value with | some n => .number n | none => .unreadable, rest)

mutual

/-- The value at the front of a text, whose containers are at `level`, and the rest. -/
def value : Nat → Nat → List Char → Option (Json × List Char)
  | 0, _, _ => none
  | fuel + 1, level, s =>
    match skipSpace s with
    | 'n' :: 'u' :: 'l' :: 'l' :: rest => some (.null, rest)
    | 't' :: 'r' :: 'u' :: 'e' :: rest => some (.bool true, rest)
    | 'f' :: 'a' :: 'l' :: 's' :: 'e' :: rest => some (.bool false, rest)
    | '"' :: rest => do
      let (units, rest) ← lexText rest
      return (match textOf units with | some t => .text t | none => .unreadable, rest)
    | '[' :: rest =>
      match skipSpace rest with
      | ']' :: rest => some (atLevel level (.array []), rest)
      | rest => do
        let (items, rest) ← elements fuel (level + 1) rest
        return (atLevel level (.array items), rest)
    | '\x7b' :: rest =>
      match skipSpace rest with
      | '\x7d' :: rest => some (atLevel level (.object []), rest)
      | rest => do
        let (ms, rest) ← members fuel (level + 1) rest
        return (atLevel level (objectOf ms), rest)
    | rest => lexNumber rest

/-- The items of a non-empty array up to its closing bracket, and the rest. -/
def elements : Nat → Nat → List Char → Option (List Json × List Char)
  | 0, _, _ => none
  | fuel + 1, level, s => do
    let (v, rest) ← value fuel level s
    match skipSpace rest with
    | ',' :: rest => do
      let (vs, rest) ← elements fuel level rest
      return (v :: vs, rest)
    | ']' :: rest => return ([v], rest)
    | _ => none

/-- The members of a non-empty object up to its closing brace, and the rest. -/
def members : Nat → Nat → List Char → Option (List (Option String × Json) × List Char)
  | 0, _, _ => none
  | fuel + 1, level, s =>
    match skipSpace s with
    | '"' :: rest => do
      let (units, rest) ← lexText rest
      match skipSpace rest with
      | ':' :: rest => do
        let (v, rest) ← value fuel level rest
        match skipSpace rest with
        | ',' :: rest => do
          let (ms, rest) ← members fuel level rest
          return ((textOf units, v) :: ms, rest)
        | '\x7d' :: rest => return ([(textOf units, v)], rest)
        | _ => none
      | _ => none
    | _ => none

end

/-- The value that the characters of a text denote, if they form a document. -/
def parseChars? (s : List Char) : Option Json :=
  match value (2 * s.length + 2) 1 s with
  | some (v, rest) => if (skipSpace rest).isEmpty then some v else none
  | none => none

/-- The value that a text denotes, if it is a document. -/
def parse? (s : String) : Option Json :=
  parseChars? s.toList

/-- The generic reading of a text: every part of it has to be readable. -/
def generic? (s : String) : Option Json :=
  (parse? s).bind canonical

end TrafficBoard.Json
