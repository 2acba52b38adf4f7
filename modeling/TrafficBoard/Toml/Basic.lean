import TrafficBoard.Number.Double

namespace TrafficBoard

/-!
# Settings values — what a TOML document can hold

* `Toml` is a value; tables keep their keys in the order of first mention, each key once.

Real numbers, dates and times stay as they are written: no setting has one, so only their form
matters.
-/

/-- A value of a TOML document. -/
inductive Toml where
  | text (s : String)
  | integer (n : Int)
  | real (numeral : String)
  | boolean (b : Bool)
  /-- A date, a time, or both. -/
  | moment (literal : String)
  | array (items : List Toml)
  | table (entries : List (String × Toml))

namespace Toml

instance : Inhabited Toml := ⟨.table []⟩

/-- The value of a key. -/
def lookup {β : Type} (key : String) (entries : List (String × β)) : Option β :=
  (entries.find? fun e => e.1 = key).map Prod.snd

/-- The deepest level at which an array or an inline table may stand. -/
def maxDepth : Nat := 80

end Toml

end TrafficBoard
