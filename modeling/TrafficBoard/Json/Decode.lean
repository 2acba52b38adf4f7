import TrafficBoard.Json.Basic
import TrafficBoard.Number.Word

namespace TrafficBoard.Json

/-!
# Reading values — from a document to the types of the domain

* `asText`, `asWhole`, `asSize`, `asReal` and `asList` read values of one shape and refuse the rest;
* `orNull` reads a value that may be null;
* `record` finds the fields of a record, `tagged` the choice of an enumeration;
* `lenient` takes the default for whatever cannot be read.

A record is an object with its field names, in any order and with other members among them, or an
array of the field values by position. A name that stands twice is refused.
-/

variable {α : Type}

/-- A text. -/
def asText : Json → Option String
  | .text s => some s
  | _ => none

/-- A whole number that is a signed word. -/
def asWhole : Json → Option Int
  | .number (.whole n) => Number.word? n
  | _ => none

/-- A natural number below a limit. -/
def asSize (limit : Nat) : Json → Option Nat
  | .number (.whole n) => if 0 ≤ n ∧ n < limit then some n.toNat else none
  | _ => none

/-- A number of any form, as a double. -/
def asReal : Json → Option Number.Double
  | .number n => some n.toDouble
  | _ => none

/-- An array of values of one kind. -/
def asList (decode : Json → Option α) : Json → Option (List α)
  | .array items => items.mapM decode
  | _ => none

/-- A value that may be null. -/
def orNull (decode : Json → Option α) : Json → Option (Option α)
  | .null => some none
  | v => (decode v).map some

/-- The choice named by a text, or by an object whose single member has the name and is null. -/
def tagged (choose : String → Option α) : Json → Option α
  | .text s => choose s
  | .object [(name, .null)] => choose name
  | _ => none

/-- The values of the members of one name. -/
def valuesOf (name : String) (members : List (String × Json)) : List Json :=
  (members.filter fun m => m.1 = name).map Prod.snd

/-- The value of the only member of a name, if there is one; nothing where there are several. -/
def soleValue? (members : List (String × Json)) (name : String) : Option (Option Json) :=
  match valuesOf name members with
  | [] => some none
  | [v] => some (some v)
  | _ => none

/-- The fields of a record by their names, each with its value if it is there. -/
def record (names : List String) : Json → Option (List (Option Json))
  | .object members => names.mapM (soleValue? members)
  | .array items =>
    if items.length ≤ names.length then
      some (items.map some ++ List.replicate (names.length - items.length) none)
    else none
  | _ => none

/-- A field that takes a default where it is missing, and has to be readable where it is there. -/
def field (decode : Json → Option α) (default : α) : Option Json → Option α
  | some v => decode v
  | none => some default

/-- A field that has to be there. -/
def required (decode : Json → Option α) : Option Json → Option α
  | some v => decode v
  | none => none

/-- A field read through its generic value, with a default for null, for what cannot be decoded and
for a missing one; only a field without a generic value is refused. -/
def lenient (decode : Json → Option α) (default : α) : Option Json → Option α
  | none => some default
  | some v => v.canonical.map fun v => (decode v).getD default

end TrafficBoard.Json
