import TrafficBoard.Toml.Outline
import TrafficBoard.Toml.Quoted
import TrafficBoard.Toml.Scalar

namespace TrafficBoard.Toml

/-!
# Reading settings — from the text of a TOML document to its table

* `lexKey` reads a dotted key, `lexValue` a value;
* `Line` is what one line of a document says: a header or a key with its value;
* `parse?` reads a whole text to the entries of its table.

Every step of the reader of values takes a character, so twice the length of the text is fuel
enough.
-/

/-- A text without the blanks of a line at its front. -/
def skipInline (s : List Char) : List Char :=
  s.dropWhile isInlineBlank

/-- A text without a comment at its front, if that holds no control character. -/
def skipComment : List Char → Option (List Char)
  | '#' :: rest =>
    let after := rest.dropWhile isPrintable
    if after.isEmpty || atLineBreak after then some after else none
  | s => some s

/-- A text without blanks, comments and line breaks at its front. -/
def skipLines : Nat → List Char → Option (List Char)
  | 0, s => some s
  | fuel + 1, s => do
    let s ← skipComment (skipInline s)
    if atLineBreak s then skipLines fuel (skipLineBreak s) else some s

/-- A text without blanks, comments and line breaks at its front. -/
def skipSpace (s : List Char) : Option (List Char) :=
  skipLines (s.length + 1) s

/-- A character of a key without marks. -/
def isKeyChar (c : Char) : Bool :=
  c.isAlphanum || c = '_' || c = '-'

/-- One part of a dotted key, and the rest. -/
def lexKeyPart (s : List Char) : Option (String × List Char) :=
  match lexLine s with
  | some (key, rest) => some (String.ofList key, rest)
  | none =>
    let key := s.takeWhile isKeyChar
    if key.isEmpty then none else some (String.ofList key, s.drop key.length)

/-- The parts of a dotted key, and the rest, which starts with no blank. -/
def lexKeyParts : Nat → List Char → Option (List String × List Char)
  | 0, _ => none
  | fuel + 1, s => do
    let (key, rest) ← lexKeyPart (skipInline s)
    match skipInline rest with
    | '.' :: rest => do
      let (keys, rest) ← lexKeyParts fuel rest
      return (key :: keys, rest)
    | rest => return ([key], rest)

/-- A dotted key, and the rest, which starts with no blank. -/
def lexKey (s : List Char) : Option (List String × List Char) :=
  lexKeyParts (s.length + 1) s

/-- A dotted key with its equals sign, and the rest, which starts with no blank. -/
def lexKeyEquals (s : List Char) : Option (List String × List Char) := do
  let (key, rest) ← lexKey s
  match rest with
  | '=' :: rest => return (key, skipInline rest)
  | _ => none

mutual

/-- The value at the front of a text, with `depth` levels left, and the rest. -/
def lexValue : Nat → (depth : Nat) → List Char → Option (Toml × List Char)
  | 0, _, _ => none
  | fuel + 1, depth, s =>
    match s with
    | '[' :: rest =>
      if depth = 0 then none
      else do
        let (items, rest) ← lexItems fuel (depth - 1) rest
        return (.array items, rest)
    | '\x7b' :: rest =>
      if depth = 0 then none
      else do
        let (members, rest) ← lexMembers fuel (depth - 1) [] rest
        return (.table (Node.entries members), rest)
    | '"' :: _ => (lexString s).map fun (t, rest) => (.text (String.ofList t), rest)
    | '\'' :: _ => (lexString s).map fun (t, rest) => (.text (String.ofList t), rest)
    | s => lexScalar s

/-- The items of an array up to its closing bracket, and the rest. -/
def lexItems : Nat → (depth : Nat) → List Char → Option (List Toml × List Char)
  | 0, _, _ => none
  | fuel + 1, depth, s => do
    match ← skipSpace s with
    | ']' :: rest => return ([], rest)
    | s => do
      let (v, rest) ← lexValue fuel depth s
      match ← skipSpace rest with
      | ',' :: rest => do
        let (vs, rest) ← lexItems fuel depth rest
        return (v :: vs, rest)
      | ']' :: rest => return ([v], rest)
      | _ => none

/-- The members of an inline table up to its closing brace, and the rest. -/
def lexMembers : Nat → (depth : Nat) → Members → List Char → Option (Members × List Char)
  | 0, _, _, _ => none
  | fuel + 1, depth, members, s => do
    match ← skipSpace s with
    | '\x7d' :: rest => return (members, rest)
    | s => do
      let (key, rest) ← lexKeyEquals s
      let (v, rest) ← lexValue fuel depth rest
      let members ← Node.assign key v members
      match ← skipSpace rest with
      | ',' :: rest => lexMembers fuel depth members rest
      | '\x7d' :: rest => return (members, rest)
      | _ => none

end

/-- What one line of a document says. -/
inductive Line where
  | tableHeader (path : List String)
  | elementHeader (path : List String)
  | entry (path : List String) (v : Toml)

/-- The line at the front of a text, and the rest. -/
def lexEntry (s : List Char) : Option (Line × List Char) :=
  match s with
  | '[' :: '[' :: rest => do
    let (path, rest) ← lexKey rest
    match rest with
    | ']' :: ']' :: rest => return (.elementHeader path, rest)
    | _ => none
  | '[' :: rest => do
    let (path, rest) ← lexKey rest
    match rest with
    | ']' :: rest => return (.tableHeader path, rest)
    | _ => none
  | s => do
    let (path, rest) ← lexKeyEquals s
    let (v, rest) ← lexValue (2 * rest.length + 2) maxDepth rest
    return (.entry path v, rest)

/-- The lines of a text, each of which ends with a line break or the text. -/
def lexDocument : Nat → List Char → Option (List Line)
  | 0, _ => none
  | fuel + 1, s => do
    match ← skipSpace s with
    | [] => return []
    | s => do
      let (line, rest) ← lexEntry s
      let rest ← skipComment (skipInline rest)
      if rest.isEmpty || atLineBreak rest then
        let lines ← lexDocument fuel rest
        return line :: lines
      else none

/-- The outline that some lines add to another, below the header `here`. -/
def outline : (here : List String) → List Line → Members → Option Members
  | _, [], members => some members
  | _, .tableHeader path :: rest, members => do
    let members ← Node.openAt Node.openTable path members
    outline path rest members
  | _, .elementHeader path :: rest, members => do
    let members ← Node.openAt Node.openElement path members
    outline path rest members
  | here, .entry path v :: rest, members => do
    let members ← Node.within (Node.assign path v) here members
    outline here rest members

/-- A text without a byte order mark at its front. -/
def skipMark : List Char → List Char
  | '\ufeff' :: rest => rest
  | s => s

/-- The entries of the table that a text denotes, if it is a document. -/
def parse? (text : String) : Option (List (String × Toml)) := do
  let s := skipMark text.toList
  let lines ← lexDocument (s.length + 1) s
  let members ← outline [] lines []
  return Node.entries members

end TrafficBoard.Toml
