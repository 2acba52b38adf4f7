import TrafficBoard.Json.Basic
import TrafficBoard.Json.Quoted
import TrafficBoard.Number.Shortest

namespace TrafficBoard.Json

/-!
# Writing documents — indented by two spaces a level, or on one line

* `render` gives a value one member or item a line, indented by its level;
* `renderLine` gives it without any space;
* numbers have their shortest form, and a double always has a point or an exponent.
-/

/-- A number of a document. -/
def Num.render : Num → String
  | .whole n => toString n
  | .real x => x.written Number.Double.documentLayout

/-- A new line with the indentation of a level. -/
def newLine (level : Nat) : String :=
  String.ofList ('\n' :: List.replicate (2 * level) ' ')

/-- Parts between two brackets, one a line, the closing bracket on the line of `level`. -/
def bracket (opening closing : String) (level : Nat) (parts : List String) : String :=
  if parts.isEmpty then opening ++ closing
  else
    opening ++ newLine (level + 1) ++ String.intercalate ("," ++ newLine (level + 1)) parts ++
      newLine level ++ closing

mutual

/-- A value at a level of indentation. -/
def renderAt (level : Nat) : Json → String
  | .null => "null"
  | .unreadable => "null"
  | .bool true => "true"
  | .bool false => "false"
  | .number n => n.render
  | .text s => quote s
  | .array items => bracket "[" "]" level (renderItems (level + 1) items)
  | .object members => bracket "\x7b" "\x7d" level (renderMembers (level + 1) members)

/-- The items of an array at their level. -/
def renderItems (level : Nat) : List Json → List String
  | [] => []
  | v :: rest => renderAt level v :: renderItems level rest

/-- The members of an object at their level. -/
def renderMembers (level : Nat) : List (String × Json) → List String
  | [] => []
  | (name, v) :: rest => (quote name ++ ": " ++ renderAt level v) :: renderMembers level rest

end

/-- A value with its parts on lines of their own. -/
def render (v : Json) : String :=
  renderAt 0 v

mutual

/-- A value on one line. -/
def renderLine : Json → String
  | .null => "null"
  | .unreadable => "null"
  | .bool true => "true"
  | .bool false => "false"
  | .number n => n.render
  | .text s => quote s
  | .array items => "[" ++ String.intercalate "," (itemLines items) ++ "]"
  | .object members => "\x7b" ++ String.intercalate "," (memberLines members) ++ "\x7d"

/-- The items of an array, each on one line. -/
def itemLines : List Json → List String
  | [] => []
  | v :: rest => renderLine v :: itemLines rest

/-- The members of an object, each on one line. -/
def memberLines : List (String × Json) → List String
  | [] => []
  | (name, v) :: rest => (quote name ++ ":" ++ renderLine v) :: memberLines rest

end

end TrafficBoard.Json
