import TrafficBoard.Json.Quoted

namespace TrafficBoard.Toml

/-!
# Quoted settings — texts between quotation marks or apostrophes, on one line or several

* `lexBasic` reads a text with escapes between quotation marks, `lexLiteral` one without escapes
  between apostrophes;
* `lexString` reads either, with one mark or three at each end.

Between three marks a text may go over several lines. A line break right after the opening marks
does not count, every other one counts as a line feed, and up to two marks may stand before the
closing ones. A backslash at the end of a line drops the line break with all blanks after it.
-/

/-- A blank that does not end a line. -/
def isInlineBlank (c : Char) : Bool :=
  c = ' ' || c = '\t'

/-- A character that may stand in a text or a comment: no control character but the tab. -/
def isPrintable (c : Char) : Bool :=
  c = '\t' || (0x20 ≤ c.toNat && c.toNat ≠ 0x7f)

/-- Whether a text starts with a line break. -/
def atLineBreak : List Char → Bool
  | '\n' :: _ => true
  | '\r' :: '\n' :: _ => true
  | _ => false

/-- The character that a backslash and one letter stand for. -/
def shortEscape? : Char → Option Char
  | '"' => some '"'
  | '\\' => some '\\'
  | 'b' => some '\x08'
  | 'e' => some '\x1b'
  | 'f' => some '\x0c'
  | 'n' => some '\n'
  | 'r' => some '\r'
  | 't' => some '\t'
  | _ => none

/-- The character of a code in hexadecimal digits; half of a surrogate pair is none. -/
def coded? (digits : List Char) : Option Char := do
  let code ← Json.hexNumber? digits
  if code.isValidChar then some (Char.ofNat code) else none

/-- The marks of a text at its closing marks, if it is there, and the rest. -/
def closing? (multiline : Bool) (mark : Char) (s : List Char) : Option (List Char × List Char) :=
  if !multiline then
    if s.head? = some mark then some ([], s.drop 1) else none
  else
    let marks := (s.takeWhile fun c => c = mark).length
    if marks < 3 then none
    else
      let inside := min (marks - 3) 2
      some (List.replicate inside mark, s.drop (inside + 3))

/-- Puts a character in front of a text that has been read. -/
def push (c : Char) : Option (List Char × List Char) → Option (List Char × List Char) :=
  Option.map fun (s, rest) => (c :: s, rest)

/-- Puts the character of a code in front of a text that has been read. -/
def pushCoded (digits : List Char) (read : Option (List Char × List Char)) :
    Option (List Char × List Char) :=
  match coded? digits with
  | some c => push c read
  | none => none

/-- The text up to its closing quotation marks, and the rest. Blanks and line breaks at its front
are dropped after a backslash at the end of a line. -/
def lexBasic (multiline : Bool) : (dropping : Bool) → List Char → Option (List Char × List Char)
  | _, [] => none
  | _, '"' :: rest =>
    match closing? multiline '"' ('"' :: rest) with
    | some found => some found
    | none => push '"' (lexBasic multiline false rest)
  | _, '\\' :: 'x' :: a :: b :: rest => pushCoded [a, b] (lexBasic multiline false rest)
  | _, '\\' :: 'u' :: a :: b :: c :: d :: rest =>
    pushCoded [a, b, c, d] (lexBasic multiline false rest)
  | _, '\\' :: 'U' :: a :: b :: c :: d :: e :: f :: g :: h :: rest =>
    pushCoded [a, b, c, d, e, f, g, h] (lexBasic multiline false rest)
  | _, '\\' :: c :: rest =>
    match shortEscape? c with
    | some e => push e (lexBasic multiline false rest)
    | none =>
      if multiline && atLineBreak ((c :: rest).dropWhile isInlineBlank) then
        lexBasic multiline true (c :: rest)
      else none
  | dropping, '\r' :: '\n' :: rest =>
    if !multiline then none
    else if dropping then lexBasic multiline true rest
    else push '\n' (lexBasic multiline false rest)
  | dropping, c :: rest =>
    if dropping && (isInlineBlank c || c = '\n') then lexBasic multiline true rest
    else if (multiline && c = '\n') || (isPrintable c && c ≠ '\\') then
      push c (lexBasic multiline false rest)
    else none

/-- The text up to its closing apostrophes, and the rest. -/
def lexLiteral (multiline : Bool) : List Char → Option (List Char × List Char)
  | [] => none
  | '\'' :: rest =>
    match closing? multiline '\'' ('\'' :: rest) with
    | some found => some found
    | none => push '\'' (lexLiteral multiline rest)
  | '\r' :: '\n' :: rest =>
    if multiline then push '\n' (lexLiteral multiline rest) else none
  | c :: rest =>
    if (multiline && c = '\n') || isPrintable c then push c (lexLiteral multiline rest) else none

/-- A text without a line break at its front. -/
def skipLineBreak : List Char → List Char
  | '\n' :: rest => rest
  | '\r' :: '\n' :: rest => rest
  | s => s

/-- A text on one line in its marks, and the rest. -/
def lexLine : List Char → Option (List Char × List Char)
  | '"' :: rest => lexBasic false false rest
  | '\'' :: rest => lexLiteral false rest
  | _ => none

/-- A text in its marks, and the rest. -/
def lexString : List Char → Option (List Char × List Char)
  | '"' :: '"' :: '"' :: rest => lexBasic true false (skipLineBreak rest)
  | '\'' :: '\'' :: '\'' :: rest => lexLiteral true (skipLineBreak rest)
  | s => lexLine s

end TrafficBoard.Toml
