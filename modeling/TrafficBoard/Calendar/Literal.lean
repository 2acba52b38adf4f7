import TrafficBoard.Calendar.Format

namespace TrafficBoard.Calendar

/-!
# Date-time literals — `2024-01-15T08:30`, with seconds, fraction and zone where they are given

* `looksLikeLiteral` recognises a text by its first sixteen characters;
* `readers` are the ways to read such a text, and `parse?` is the instant by the first that works.

The profile of RFC 3339 goes first, then come the patterns with an offset, and at last those without
one, for which a `Z` at the end of the text is dropped.
-/

/-- Whether the front of a text follows a pattern, in which `0` stands for a digit of any script
and every other character for itself. -/
def matchesFront : List Char → List Char → Bool
  | [], _ => true
  | _, [] => false
  | p :: pattern, c :: s => (if p = '0' then Text.isDecimal c else c = p) && matchesFront pattern s

/-- Whether a text starts like a date-time literal. -/
def looksLikeLiteral (s : List Char) : Bool :=
  matchesFront "0000-00-00T00:00".toList s

/-- The patterns of a literal with an offset. -/
def zonedPatterns : List String :=
  ["%Y-%m-%dT%H:%M%:z", "%Y-%m-%dT%H:%M:%S%:z", "%Y-%m-%dT%H:%M:%S%.f%:z"]

/-- The patterns of a literal without an offset. -/
def civilPatterns : List String :=
  ["%Y-%m-%dT%H:%M", "%Y-%m-%dT%H:%M:%S", "%Y-%m-%dT%H:%M:%S%.f"]

/-- A text without the `Z` at its end. -/
def withoutZulu (s : List Char) : List Char :=
  if s.getLast? = some 'Z' then s.dropLast else s

/-- The ways to read a literal, in the order in which they are tried. -/
def readers : List (List Char → Option Int) :=
  rfc3339? :: zonedPatterns.map zoned? ++
    civilPatterns.map fun pattern s => civil? pattern (withoutZulu s)

/-- The instant that a date-time literal denotes. -/
def parse? (s : List Char) : Option Int :=
  readers.findSome? fun reader => reader s

end TrafficBoard.Calendar
