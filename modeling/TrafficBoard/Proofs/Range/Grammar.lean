import Mathlib
import TrafficBoard.Proofs.Text.Digits
import TrafficBoard.Range.Expr

namespace TrafficBoard

/-!
# The grammar of relative terms — what can be read, and that it can be read in one way only

* `Term.Piece` is one term as it may be written: blanks, a sign, ASCII digits and the letters of a
  unit;
* `Term.Spelling` is a run of pieces with blanks after it, `text` what it looks like and `terms`
  what it means;
* `Term.lex?_written` and `Term.eq_append_of_lex?` relate one step of the reader to one term as it
  is written;
* `Term.parse_spelling` says that a text is read as some terms just when a spelling of them looks
  like it, that no text has two spellings, and that a text without one is an error.

The reader takes the longest letters that are a unit, so what comes after a piece must not go on
with the letters of a minute where the piece has the letter of a month. Neither a blank nor a sign
does.
-/

/-! ### Units -/

namespace TimeUnit

/-- The letters of a unit are read as the unit, unless what follows could make a minute of a
month. -/
theorem lex?_append (u : TimeUnit) {rest : List Char} (h : rest.head? ≠ some 'i') :
    lex? (u.letters.toList ++ rest) = some (u, rest) := by
  cases u with
  | month =>
    show lex? ('m' :: rest) = some (.month, rest)
    unfold lex?
    split
    all_goals simp_all
  | _ => rfl

/-- A unit is read off its letters only. -/
theorem eq_append_of_lex? {s rest : List Char} {u : TimeUnit} (h : lex? s = some (u, rest)) :
    s = u.letters.toList ++ rest := by
  unfold lex? at h
  split at h
  all_goals
    simp only [Option.some.injEq, Prod.mk.injEq, reduceCtorEq] at h
  all_goals
    obtain ⟨rfl, rfl⟩ := h
    rfl

/-- The letters of a unit do not go on with the digits before them. -/
theorem takeWhile_letters_append (u : TimeUnit) (rest : List Char) :
    (u.letters.toList ++ rest).takeWhile Text.isDecimal = [] ∧
      (u.letters.toList ++ rest).dropWhile Text.isDecimal = u.letters.toList ++ rest := by
  cases u
  all_goals exact ⟨rfl, rfl⟩

end TimeUnit

namespace Term

/-! ### Pieces -/

/-- The character of a sign. -/
def signChar (negative : Bool) : Char :=
  if negative then '-' else '+'

@[simp] theorem sign?_signChar (negative : Bool) : sign? (signChar negative) = some negative := by
  cases negative <;> rfl

/-- A sign is read off its character only. -/
theorem eq_signChar_of_sign? {c : Char} {negative : Bool} (h : sign? c = some negative) :
    c = signChar negative := by
  unfold sign? at h
  split at h
  all_goals
    simp only [Option.some.injEq, reduceCtorEq] at h
  all_goals
    subst h
    rfl

/-- A sign is no blank. -/
theorem isBlank_signChar (negative : Bool) : Text.isBlank (signChar negative) = false := by
  cases negative <;> decide

/-- One term as it may be written. -/
@[ext]
structure Piece where
  blanks : List Char
  negative : Bool
  digits : List Char
  unit : TimeUnit
  isBlank : ∀ c ∈ blanks, Text.isBlank c
  isDigit : ∀ c ∈ digits, Text.isDigit c
  nonempty : digits ≠ []
  /-- The amount is an unsigned word, whatever the number of its digits. -/
  isSize : Nat.ofDigitChars 10 digits 0 < Number.sizeLimit

namespace Piece

/-- What a piece looks like. -/
def text (p : Piece) : List Char :=
  p.blanks ++ signChar p.negative :: (p.digits ++ p.unit.letters.toList)

/-- What a piece means. -/
def term (p : Piece) : Term where
  negative := p.negative
  amount := Nat.ofDigitChars 10 p.digits 0
  unit := p.unit

end Piece

/-- **What is written of a term is read as its parts,** whatever the amount, with what comes after
it left over. -/
theorem lex?_written {blanks digits rest : List Char} (negative : Bool) (unit : TimeUnit)
    (hblanks : ∀ c ∈ blanks, Text.isBlank c) (hdigits : ∀ c ∈ digits, Text.isDigit c)
    (hne : digits ≠ []) (h : rest.head? ≠ some 'i') :
    lex? (blanks ++ signChar negative :: (digits ++ unit.letters.toList) ++ rest) =
      some (negative, digits, unit, rest) := by
  have hbody : Text.dropBlank
      (blanks ++ signChar negative :: (digits ++ unit.letters.toList) ++ rest) =
      signChar negative :: (digits ++ (unit.letters.toList ++ rest)) := by
    rw [List.append_assoc, Text.dropBlank, List.dropWhile_append_of_pos hblanks,
      List.cons_append, List.dropWhile_cons_of_neg (by simp [isBlank_signChar]), List.append_assoc]
  have hdecimal : ∀ c ∈ digits, Text.isDecimal c := fun c hc =>
    Text.isDecimal_of_isDigit (hdigits c hc)
  obtain ⟨htake, hdrop⟩ := unit.takeWhile_letters_append rest
  rw [lex?, hbody]
  simp only [sign?_signChar, List.takeWhile_append_of_pos hdecimal,
    List.dropWhile_append_of_pos hdecimal, htake, hdrop, List.append_nil, unit.lex?_append h,
    List.isEmpty_iff, hne, if_false]

/-- A piece is read as its parts, with what comes after it left over. -/
theorem lex?_append (p : Piece) {rest : List Char} (h : rest.head? ≠ some 'i') :
    lex? (p.text ++ rest) = some (p.negative, p.digits, p.unit, rest) :=
  lex?_written p.negative p.unit p.isBlank p.isDigit p.nonempty h

/-- What is read as the parts of a term is blanks, its sign, its digits and its letters. -/
theorem eq_append_of_lex? {s digits rest : List Char} {negative : Bool} {unit : TimeUnit}
    (h : lex? s = some (negative, digits, unit, rest)) :
    digits ≠ [] ∧ ∃ blanks, (∀ c ∈ blanks, Text.isBlank c) ∧
      s = blanks ++ signChar negative :: (digits ++ unit.letters.toList) ++ rest := by
  have hs : s = s.takeWhile Text.isBlank ++ Text.dropBlank s :=
    List.takeWhile_append_dropWhile.symm
  unfold lex? at h
  split at h
  · rename_i c body hbody
    split at h
    · rename_i sign hsign
      dsimp only at h
      split at h
      · rename_i found left hunit
        split at h
        · simp at h
        · rename_i hne
          simp only [Option.some.injEq, Prod.mk.injEq] at h
          obtain ⟨rfl, rfl, rfl, rfl⟩ := h
          refine ⟨by simpa using hne, s.takeWhile Text.isBlank,
            fun c hc => List.mem_takeWhile_imp hc, ?_⟩
          rw [hbody, eq_signChar_of_sign? hsign] at hs
          rw [List.append_assoc, List.cons_append, List.append_assoc,
            ← TimeUnit.eq_append_of_lex? hunit, List.takeWhile_append_dropWhile]
          exact hs
      · simp at h
    · simp at h
  · simp at h

/-- No term is read off blanks. -/
theorem lex?_of_blanks {s : List Char} (h : ∀ c ∈ s, Text.isBlank c) : lex? s = none := by
  rw [lex?, show Text.dropBlank s = [] from List.dropWhile_eq_nil_iff.2 h]

/-- Blanks do not start with the letter that makes a minute of a month. -/
theorem head?_ne_of_blanks {s : List Char} (h : ∀ c ∈ s, Text.isBlank c) :
    s.head? ≠ some 'i' := by
  intro hhead
  have hblank := h 'i' (List.mem_of_head? hhead)
  revert hblank
  decide

/-- Neither do blanks with a sign after them. -/
theorem head?_signed_ne {blanks : List Char} (h : ∀ c ∈ blanks, Text.isBlank c) (negative : Bool)
    (rest : List Char) : (blanks ++ signChar negative :: rest).head? ≠ some 'i' := by
  cases blanks with
  | nil =>
    cases negative
    all_goals simp [signChar]
  | cons c blanks =>
    intro hhead
    exact head?_ne_of_blanks h hhead

/-! ### Spellings -/

/-- A run of terms as it may be written. -/
structure Spelling where
  pieces : List Piece
  blanks : List Char
  isBlank : ∀ c ∈ blanks, Text.isBlank c

namespace Spelling

/-- What a spelling looks like. -/
def text (w : Spelling) : List Char :=
  w.pieces.flatMap Piece.text ++ w.blanks

/-- What a spelling means. -/
def terms (w : Spelling) : List Term :=
  w.pieces.map Piece.term

/-- Blanks alone. -/
def ofBlanks (blanks : List Char) (isBlank : ∀ c ∈ blanks, Text.isBlank c) : Spelling where
  pieces := []
  blanks := blanks
  isBlank := isBlank

/-- One more piece in front. -/
def cons (p : Piece) (w : Spelling) : Spelling where
  pieces := p :: w.pieces
  blanks := w.blanks
  isBlank := w.isBlank

@[simp] theorem text_ofBlanks (blanks : List Char) (h : ∀ c ∈ blanks, Text.isBlank c) :
    (ofBlanks blanks h).text = blanks := rfl

@[simp] theorem text_cons (p : Piece) (w : Spelling) : (cons p w).text = p.text ++ w.text := by
  simp [cons, text]

@[simp] theorem terms_ofBlanks (blanks : List Char) (h : ∀ c ∈ blanks, Text.isBlank c) :
    (ofBlanks blanks h).terms = [] := rfl

@[simp] theorem terms_cons (p : Piece) (w : Spelling) : (cons p w).terms = p.term :: w.terms := rfl

/-- Every spelling is made from blanks by putting pieces in front. -/
theorem induction {motive : Spelling → Prop}
    (blanks : ∀ blanks h, motive (ofBlanks blanks h))
    (cons : ∀ p w, motive w → motive (cons p w)) (w : Spelling) : motive w := by
  obtain ⟨pieces, after, hafter⟩ := w
  induction pieces with
  | nil => exact blanks after hafter
  | cons p pieces ih => exact cons p _ ih

/-- No spelling starts with the letter that makes a minute of a month. -/
theorem head?_text_ne (w : Spelling) : w.text.head? ≠ some 'i' := by
  cases w using Spelling.induction with
  | blanks blanks h => exact head?_ne_of_blanks h
  | cons p w =>
    rw [text_cons, Piece.text, List.append_assoc]
    exact head?_signed_ne p.isBlank p.negative _

/-- The first piece is read off a spelling, with the rest of it left over. -/
theorem lex?_text_cons (p : Piece) (w : Spelling) :
    lex? (cons p w).text = some (p.negative, p.digits, p.unit, w.text) := by
  rw [text_cons]
  exact lex?_append p w.head?_text_ne

/-- Nothing is read off a spelling without pieces. -/
theorem lex?_text_ofBlanks (blanks : List Char) (h : ∀ c ∈ blanks, Text.isBlank c) :
    lex? (ofBlanks blanks h).text = none :=
  lex?_of_blanks h

/-- **No text has two spellings.** -/
theorem eq_of_text_eq {w w' : Spelling} (h : w.text = w'.text) : w = w' := by
  induction w using Spelling.induction generalizing w' with
  | blanks blanks hblanks =>
    cases w' using Spelling.induction with
    | blanks blanks' _ =>
      simp only [text_ofBlanks] at h
      subst h
      rfl
    | cons p w' =>
      -- A piece could be read off the one text and not off the other.
      have hnone := lex?_text_ofBlanks blanks hblanks
      rw [h, lex?_text_cons] at hnone
      simp at hnone
  | cons p w ih =>
    cases w' using Spelling.induction with
    | blanks blanks hblanks =>
      have hnone := lex?_text_ofBlanks blanks hblanks
      rw [← h, lex?_text_cons] at hnone
      simp at hnone
    | cons p' w' =>
      have hlex := lex?_text_cons p w
      rw [h, lex?_text_cons] at hlex
      simp only [Option.some.injEq, Prod.mk.injEq] at hlex
      obtain ⟨hnegative, hdigits, hunit, hrest⟩ := hlex
      -- The parts are the same and what follows is too, so the blanks are what is left.
      rw [text_cons, text_cons, hrest, List.append_cancel_right_eq, Piece.text, Piece.text,
        hnegative, hdigits, hunit, List.append_cancel_right_eq] at h
      rw [Piece.ext h hnegative.symm hdigits.symm hunit.symm, ih hrest.symm]

end Spelling

/-! ### Reading a whole text -/

/-- Where a term is read, its amount is taken if it is ASCII and an unsigned word, and the rest is
read next. -/
theorem parseAll_of_lex? {s digits rest : List Char} {negative : Bool} {unit : TimeUnit}
    (h : lex? s = some (negative, digits, unit, rest)) :
    parseAll s =
      if digits.all Text.isDigit ∧ Text.natOfDigits digits < Number.sizeLimit then
        (parseAll rest).map (⟨negative, Text.natOfDigits digits, unit⟩ :: ·)
      else .error (.amount (String.ofList (s.take (s.length - rest.length)))) := by
  rw [parseAll]
  split
  · rename_i hlex
    rw [h] at hlex
    simp only [Option.some.injEq, Prod.mk.injEq] at hlex
    obtain ⟨rfl, rfl, rfl, rfl⟩ := hlex
    dsimp only
    split
    · cases parseAll rest
      all_goals rfl
    · rfl
  · rename_i hlex
    rw [h] at hlex
    simp at hlex

/-- Where no term is read, there must be nothing but blanks. -/
theorem parseAll_of_lex?_none {s : List Char} (h : lex? s = none) :
    parseAll s =
      if (Text.trimChars s).isEmpty then .ok []
      else .error (.trailing (String.ofList (Text.trimChars s))) := by
  rw [parseAll]
  split
  · rename_i hlex
    rw [h] at hlex
    simp at hlex
  · rfl

/-- **What a spelling looks like is read as what it means.** -/
theorem parseAll_text (w : Spelling) : parseAll w.text = .ok w.terms := by
  induction w using Spelling.induction with
  | blanks blanks h =>
    rw [parseAll_of_lex?_none (Spelling.lex?_text_ofBlanks blanks h), Spelling.text_ofBlanks,
      Text.trimChars_eq_nil_iff.2 h]
    rfl
  | cons p w ih =>
    have hgood : p.digits.all Text.isDigit ∧ Text.natOfDigits p.digits < Number.sizeLimit := by
      rw [Text.natOfDigits_eq_ofDigitChars]
      exact ⟨List.all_eq_true.2 p.isDigit, p.isSize⟩
    rw [parseAll_of_lex? (Spelling.lex?_text_cons p w), if_pos hgood, ih,
      Text.natOfDigits_eq_ofDigitChars]
    rfl

/-- **What is read as terms is a spelling of them.** -/
theorem exists_spelling_of_parseAll {s : List Char} {terms : List Term}
    (h : parseAll s = .ok terms) : ∃ w : Spelling, w.text = s ∧ w.terms = terms := by
  -- What is left after a term is shorter, but not the tail of the text.
  induction hlen : s.length using Nat.strongRecOn generalizing s terms with
  | ind n ih =>
    cases hlex : lex? s with
    | none =>
      rw [parseAll_of_lex?_none hlex] at h
      split at h
      · rename_i hempty
        rw [List.isEmpty_iff, Text.trimChars_eq_nil_iff] at hempty
        exact ⟨.ofBlanks s hempty, rfl, by simpa using h⟩
      · simp at h
    | some found =>
      obtain ⟨negative, digits, unit, rest⟩ := found
      rw [parseAll_of_lex? hlex] at h
      split at h
      · rename_i hgood
        obtain ⟨hdigits, hsize⟩ := hgood
        rw [Text.natOfDigits_eq_ofDigitChars] at hsize h
        have hshort := length_lt_of_lex? hlex
        obtain ⟨hne, blanks, hblanks, htext⟩ := eq_append_of_lex? hlex
        cases hrest : parseAll rest with
        | error fault =>
          rw [hrest] at h
          simp [Except.map] at h
        | ok more =>
          obtain ⟨w, hw, hterms⟩ := ih _ (hlen ▸ hshort) hrest rfl
          let p : Piece :=
            { blanks, negative, digits, unit
              isBlank := hblanks
              isDigit := List.all_eq_true.1 hdigits
              nonempty := hne
              isSize := hsize }
          refine ⟨.cons p w, ?_, ?_⟩
          · rw [Spelling.text_cons, hw, htext]
            rfl
          · rw [hrest] at h
            rw [Spelling.terms_cons, hterms]
            exact Except.ok.inj h
      · simp at h

/-- **The terms of a text are read off its only spelling.** A text is read as some terms just when
a spelling of them looks like it: a run of terms, each a sign, ASCII digits for an unsigned word and
the letters of a unit, with blanks before each of them and at the end. No text has two spellings,
and a text without one is an invalid expression. -/
theorem parse_spelling (rest expr : String) :
    (∀ terms, Term.parse rest expr = .ok terms ↔
      ∃ w : Spelling, w.text = rest.toList ∧ w.terms = terms) ∧
    (∀ w w' : Spelling, w.text = rest.toList → w'.text = rest.toList → w = w') ∧
    ((¬ ∃ w : Spelling, w.text = rest.toList) →
      ∃ fault, Term.parse rest expr = .error (.expression expr fault)) := by
  refine ⟨fun terms => ⟨fun h => ?_, ?_⟩, fun w w' h h' => ?_, fun hno => ?_⟩
  · cases hread : parseAll rest.toList with
    | error fault =>
      rw [Term.parse, hread] at h
      simp [Except.mapError] at h
    | ok found =>
      rw [Term.parse, hread] at h
      rw [← Except.ok.inj h]
      exact exists_spelling_of_parseAll hread
  · rintro ⟨w, htext, rfl⟩
    rw [Term.parse, ← htext, parseAll_text]
    rfl
  · exact Spelling.eq_of_text_eq (h.trans h'.symm)
  · cases hread : parseAll rest.toList with
    | error fault => exact ⟨fault, by rw [Term.parse, hread]; rfl⟩
    | ok found =>
      obtain ⟨w, htext, -⟩ := exists_spelling_of_parseAll hread
      exact absurd ⟨w, htext⟩ hno

end Term

end TrafficBoard
