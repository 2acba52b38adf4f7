import TrafficBoard.Number.Double

namespace TrafficBoard

/-!
# Documents — the values that a JSON text denotes

* `Json` is a value as it stands in the text: members of an object keep their order and may repeat
  a name, and a part that is well formed but denotes nothing is `Json.unreadable`;
* `Json.canonical` is the generic reading of a value, in which an object maps each name to the
  last member of that name and lists its names in the order of their code points.

A record that is read straight from a text sees the first form; whatever passes through the
generic reading on its way sees the second.
-/

/-- A number of a document: whole where it is written without point and exponent and fits the
sixty-four bit words, else the double read from it. -/
inductive Json.Num where
  | whole (n : Int)
  | real (x : Number.Double)
  deriving DecidableEq

/-- The number as a double. -/
def Json.Num.toDouble : Json.Num → Number.Double
  | .whole n => .ofInt n
  | .real x => x

/-- A value of a document. -/
inductive Json where
  | null
  | bool (b : Bool)
  | number (n : Json.Num)
  | text (s : String)
  | array (items : List Json)
  | object (members : List (String × Json))
  /-- A well-formed part without a value: a number beyond the doubles, a text with half of a
  surrogate pair, or a container below the greatest depth. -/
  | unreadable

instance : Inhabited Json := ⟨.null⟩

namespace Json

/-- The deepest level at which an array or object can be read. -/
def maxDepth : Nat := 127

/-- Puts a member into a list sorted by name, in place of one of the same name. -/
def insertMember (name : String) (v : Json) : List (String × Json) → List (String × Json)
  | [] => [(name, v)]
  | (other, w) :: rest =>
    if name = other then (name, v) :: rest
    else if name < other then (name, v) :: (other, w) :: rest
    else (other, w) :: insertMember name v rest

/-- The members by name, each with its last value. -/
def sortMembers (members : List (String × Json)) : List (String × Json) :=
  members.foldl (fun sorted m => insertMember m.1 m.2 sorted) []

mutual

/-- The generic reading of a value; there is none if any part of it is unreadable. -/
def canonical : Json → Option Json
  | .array items => (canonicalItems items).map .array
  | .object members => (canonicalMembers members).map fun ms => .object (sortMembers ms)
  | .unreadable => none
  | .null => some .null
  | .bool b => some (.bool b)
  | .number n => some (.number n)
  | .text s => some (.text s)

/-- The generic readings of the items of an array. -/
def canonicalItems : List Json → Option (List Json)
  | [] => some []
  | v :: rest => do
    let v ← canonical v
    let rest ← canonicalItems rest
    return v :: rest

/-- The generic readings of the members of an object, in their order. -/
def canonicalMembers : List (String × Json) → Option (List (String × Json))
  | [] => some []
  | (name, v) :: rest => do
    let v ← canonical v
    let rest ← canonicalMembers rest
    return (name, v) :: rest

end

/-- A whole number as a value. -/
def ofInt (n : Int) : Json :=
  .number (.whole n)

/-- A double as a value; what is not finite is written as null. -/
def ofDouble (x : Number.Double) : Json :=
  if x.isFinite then .number (.real x) else .null

/-- An optional value; nothing is written as null. -/
def ofOption {α : Type} (encode : α → Json) : Option α → Json
  | some a => encode a
  | none => .null

/-- The values of a list as an array. -/
def ofList {α : Type} (encode : α → Json) (xs : List α) : Json :=
  .array (xs.map encode)

end Json

end TrafficBoard
