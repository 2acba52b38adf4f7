namespace TrafficBoard.Text

/-!
# Blank characters — the Unicode property `White_Space`

* `isBlank` decides the property from the table `blankRanges`;
* `trim` removes blank characters from both ends of a text.

Every place of this library that skips or strips blanks uses this one set, so a no-break space or
an ideographic space counts and a zero-width space does not.
-/

/-- Whether a code point lies in one of the closed ranges of a table. -/
def inRanges (table : List (Nat × Nat)) (code : Nat) : Bool :=
  table.any fun range => range.1 ≤ code && code ≤ range.2

/-- The code points of `White_Space`. -/
def blankRanges : List (Nat × Nat) :=
  [(0x9, 0xd), (0x20, 0x20), (0x85, 0x85), (0xa0, 0xa0), (0x1680, 0x1680), (0x2000, 0x200a),
    (0x2028, 0x2029), (0x202f, 0x202f), (0x205f, 0x205f), (0x3000, 0x3000)]

/-- Whether `c` is a blank character. -/
def isBlank (c : Char) : Bool :=
  inRanges blankRanges c.toNat

example : (blankRanges.map fun range => range.2 + 1 - range.1).sum = 25 := rfl
example : isBlank ' ' = true ∧ isBlank '\n' = true ∧ isBlank 'a' = false := by decide

/-- A text without its leading blanks. -/
def dropBlank (s : List Char) : List Char :=
  s.dropWhile isBlank

/-- A text without the blanks at either end. -/
def trimChars (s : List Char) : List Char :=
  ((dropBlank s).reverse.dropWhile isBlank).reverse

@[simp] theorem dropBlank_nil : dropBlank [] = [] := rfl

@[simp] theorem trimChars_nil : trimChars [] = [] := rfl

/-- A string without the blanks at either end. -/
def trim (s : String) : String :=
  String.ofList (trimChars s.toList)

end TrafficBoard.Text
