import Mathlib
import TrafficBoard.Json.Parser
import TrafficBoard.Json.Printer
import TrafficBoard.Proofs.Text.Digits

namespace TrafficBoard.Json

/-!
# Texts and numbers of documents — what is written of them is read back

* `exists_units` reads a quoted text back, whatever characters it has;
* `lexNumber_toString` reads a whole number back that fits the words of sixty-four bits.

A quoted text ends with its mark, and a numeral before a character that it cannot go on with: after
one stands a comma, a space or the end.
-/

/-! ### Texts -/

/-- A code below the surrogates stands for its character, whatever comes after it. -/
theorem assemble_code {n : Nat} (h : n < 0xd800) (units : List TextUnit) :
    assemble (.code n :: units) = (assemble units).map (Char.ofNat n :: ·) := by
  have hhigh : isHigh n = false := by
    simp only [isHigh, Bool.and_eq_false_iff, decide_eq_false_iff_not]
    omega
  have hlow : isLow n = false := by
    simp only [isLow, Bool.and_eq_false_iff, decide_eq_false_iff_not]
    omega
  cases units with
  | nil => simp [assemble, hhigh, hlow]
  | cons unit units =>
    cases unit
    all_goals simp [assemble, hhigh, hlow]

/-- A control character is written in four hexadecimal digits. -/
theorem hexNumber?_hexDigit {n : Nat} (h : n < 0x20) :
    hexNumber? ['0', '0', hexDigit (n / 16), hexDigit (n % 16)] = some n := by
  have hall : ∀ n : Fin 0x20,
      hexNumber? ['0', '0', hexDigit (n / 16), hexDigit (n % 16)] = some n.val := by decide
  exact hall ⟨n, h⟩

/-- A character that needs no escape is read as it stands. -/
theorem lexText_cons {c : Char} (hquote : c ≠ '"') (hslash : c ≠ '\\')
    (hcontrol : ¬c.toNat < 0x20) (rest : List Char) :
    lexText (c :: rest) = (lexText rest).map fun found => (.char c :: found.1, found.2) := by
  have hplain : ¬(c.toNat < 0x20 ∨ c = '\\') := fun h => h.elim hcontrol hslash
  conv_lhs => unfold lexText
  split
  · rename_i heq
    cases heq
  · rename_i heq
    exact absurd (List.cons.inj heq).1 hquote
  · rename_i heq
    exact absurd (List.cons.inj heq).1 hslash
  · rename_i heq
    exact absurd (List.cons.inj heq).1 hslash
  · rename_i heq
    obtain ⟨rfl, rfl⟩ := List.cons.inj heq
    rw [if_neg hplain]
    cases lexText rest
    all_goals rfl

/-- **One character is read back as one part,** which stands for it. -/
theorem exists_unit (c : Char) : ∃ unit,
    (∀ rest, lexText (encodeChar c ++ rest) =
      (lexText rest).map fun found => (unit :: found.1, found.2)) ∧
    ∀ units, assemble (unit :: units) = (assemble units).map (c :: ·) := by
  unfold encodeChar
  split
  case h_8 =>
    rename_i hquote hslash _ _ _ _ _
    by_cases hcontrol : c.toNat < 0x20
    · refine ⟨.code c.toNat, fun rest => ?_, fun units => ?_⟩
      · rw [if_pos hcontrol]
        cases hrest : lexText rest
        all_goals simp [lexText, hexNumber?_hexDigit hcontrol, hrest]
      · rw [assemble_code (by omega), Char.ofNat_toNat]
    · refine ⟨.char c, fun rest => ?_, fun units => rfl⟩
      rw [if_neg hcontrol]
      exact lexText_cons hquote hslash hcontrol rest
  -- The other characters have a letter of their own.
  all_goals
    refine ⟨.char _, fun rest => ?_, fun units => rfl⟩
    cases hrest : lexText rest
    all_goals simp [lexText, shortEscape?, hrest]

/-- **A quoted text is read back** up to its closing mark. -/
theorem exists_units (s rest : List Char) : ∃ units,
    lexText (encodeText s ++ '"' :: rest) = some (units, rest) ∧ assemble units = some s := by
  induction s with
  | nil => exact ⟨[], rfl, rfl⟩
  | cons c s ih =>
    obtain ⟨units, hlex, hassemble⟩ := ih
    obtain ⟨unit, hunit, hstands⟩ := exists_unit c
    refine ⟨unit :: units, ?_, ?_⟩
    · rw [encodeText_cons, List.append_assoc, hunit, hlex]
      rfl
    · rw [hstands, hassemble]
      rfl

/-! ### Numbers -/

/-- Whether a numeral can go on with a character after a digit. -/
def goesOn (c : Char) : Bool :=
  Text.isDigit c || c = '.' || c = 'e' || c = 'E'

/-- A numeral that stands before a text ends there. -/
def Ends (rest : List Char) : Prop :=
  ∀ c ∈ rest.head?, goesOn c = false

/-- A numeral ends before a character that it cannot go on with. -/
theorem ends_cons {c : Char} (h : goesOn c = false) (rest : List Char) : Ends (c :: rest) := by
  rintro _ ⟨⟩
  exact h

/-- The digits of a positive number do not start with a zero. -/
theorem head?_toDigits {n : Nat} (h : 0 < n) : (Nat.toDigits 10 n).head? ≠ some '0' := by
  intro hzero
  obtain ⟨rest, hdigits⟩ := List.head?_eq_some_iff.1 hzero
  have hvalue : n = Text.natOfDigits rest := by
    rw [← Text.natOfDigits_toDigits n, hdigits, ← List.singleton_append, Text.natOfDigits_append]
    show 0 * _ + _ = _
    rw [zero_mul, zero_add]
  have hrest : ∀ c ∈ rest, Text.isDigit c := fun c hc =>
    Text.isDigit_of_mem_toDigits (n := n) (by rw [hdigits]; exact List.mem_cons_of_mem _ hc)
  have hlt := Text.natOfDigits_lt hrest
  cases rest with
  | nil => exact absurd hvalue h.ne'
  | cons c rest =>
    -- The number fits fewer digits than are written.
    have hlength := (Nat.length_toDigits_le_iff (b := 10) (by omega) (Nat.succ_pos _)).2
      (hvalue ▸ hlt)
    rw [hdigits] at hlength
    simp at hlength

/-- The digits of a number are read back before what cannot go on with them. -/
theorem lexWhole_toDigits (n : Nat) {rest : List Char} (hrest : Ends rest) :
    lexWhole (Nat.toDigits 10 n ++ rest) = some (Nat.toDigits 10 n, rest) := by
  have hall : ∀ c ∈ Nat.toDigits 10 n, Text.isDigit c := fun c hc => Text.isDigit_of_mem_toDigits hc
  rcases Nat.eq_zero_or_pos n with rfl | hn
  · rfl
  · have hstop : ∀ c ∈ rest.head?, Text.isDigit c = false := fun c hc => by
      have := hrest c hc
      simp_all [goesOn]
    have hzero := head?_toDigits hn
    have hne : Nat.toDigits 10 n ≠ [] := Nat.toDigits_ne_nil
    have hhead : (Nat.toDigits 10 n ++ rest).head? = (Nat.toDigits 10 n).head? :=
      List.head?_append_of_ne_nil _ hne
    unfold lexWhole
    split
    · rename_i more hmore
      rw [← hhead, hmore] at hzero
      exact absurd rfl hzero
    · rw [lexDigits1, lexDigits, Text.takeWhile_run hall hstop, Text.dropWhile_run hall hstop]
      cases hdigits : Nat.toDigits 10 n with
      | nil => exact absurd hdigits hne
      | cons c digits => rfl

/-- A numeral of digits alone. -/
theorem lexMagnitude_toDigits (negative : Bool) (n : Nat) {rest : List Char} (hrest : Ends rest) :
    lexMagnitude negative (Nat.toDigits 10 n ++ rest) =
      some (⟨negative, Nat.toDigits 10 n, none, none⟩, rest) := by
  have hfraction : lexFraction rest = some (none, rest) := by
    unfold lexFraction
    split
    · exact absurd (hrest '.' rfl) (by decide)
    · rfl
  have hexponent : lexExponent rest = some (none, rest) := by
    unfold lexExponent
    split
    · exact absurd (hrest 'e' rfl) (by decide)
    · exact absurd (hrest 'E' rfl) (by decide)
    · rfl
  rw [lexMagnitude, lexWhole_toDigits n hrest]
  show (lexFraction rest).bind _ = _
  rw [hfraction]
  show (lexExponent rest).bind _ = _
  rw [hexponent]
  rfl

/-- Digits are gathered as they are, if their number fits a word. -/
theorem gather_of_lt {start : Nat} {digits : List Char}
    (h : Text.natOfDigitsFrom start digits < Number.sizeLimit) :
    gather start digits = (Text.natOfDigitsFrom start digits, 0) := by
  induction digits generalizing start with
  | nil => rfl
  | cons c digits ih =>
    have hstep : Text.natOfDigitsFrom start (c :: digits) =
        Text.natOfDigitsFrom (start * 10 + Text.digitValue c) digits := rfl
    have hpow : 1 ≤ 10 ^ digits.length := Nat.one_le_pow _ _ (by omega)
    have hle : start * 10 + Text.digitValue c ≤
        Text.natOfDigitsFrom (start * 10 + Text.digitValue c) digits := by
      rw [Text.natOfDigitsFrom_eq (start * 10 + Text.digitValue c)]
      nlinarith
    rw [hstep] at h ⊢
    rw [gather, if_pos (hle.trans_lt h), ih h]

/-- A whole number that a document can hold as it is. -/
def Num.Fits : Num → Prop
  | .whole n => -(Number.Double.signBit : Int) ≤ n ∧ n < Number.sizeLimit
  | .real _ => False

/-- What is written of a number without a sign. -/
theorem toList_toString_ofNat (m : Nat) : (toString (Int.ofNat m)).toList = Nat.toDigits 10 m :=
  Nat.toList_repr

/-- What is written of a number with a sign. -/
theorem toList_toString_negSucc (m : Nat) :
    (toString (Int.negSucc m)).toList = '-' :: Nat.toDigits 10 (m + 1) := by
  show ("-" ++ (m + 1).repr).toList = _
  rw [String.toList_append, Nat.toList_repr]
  rfl

/-- A whole number starts with a digit or a sign. -/
theorem exists_toString (n : Int) :
    ∃ c s, (toString n).toList = c :: s ∧ (Text.isDigit c ∨ c = '-') := by
  cases n with
  | ofNat m =>
    obtain ⟨c, digits, hdigits⟩ := List.exists_cons_of_ne_nil (@Nat.toDigits_ne_nil m 10)
    have hc : c ∈ Nat.toDigits 10 m := by
      rw [hdigits]
      exact List.mem_cons_self
    exact ⟨c, digits, (toList_toString_ofNat m).trans hdigits,
      .inl (Text.isDigit_of_mem_toDigits hc)⟩
  | negSucc m => exact ⟨'-', _, toList_toString_negSucc m, .inr rfl⟩

/-- A numeral that has a value is read as that number. -/
theorem lexNumber_of_value {s rest : List Char} {numeral : Numeral} {n : Num}
    (hlex : lexNumeral s = some (numeral, rest)) (hvalue : numeral.value = some n) :
    lexNumber s = some (.number n, rest) := by
  rw [lexNumber, hlex, Option.bind_eq_bind, Option.bind_some]
  dsimp only
  rw [hvalue]
  rfl

/-- **A whole number is read back** before what cannot go on with it. -/
theorem lexNumber_toString {n : Int} (hn : (Num.whole n).Fits) {rest : List Char}
    (hrest : Ends rest) :
    lexNumber ((toString n).toList ++ rest) = some (.number (.whole n), rest) := by
  have hvalue (m : Nat) (hm : m < Number.sizeLimit) : gather 0 (Nat.toDigits 10 m) = (m, 0) := by
    have hdigits : Text.natOfDigitsFrom 0 (Nat.toDigits 10 m) = m := Text.natOfDigits_toDigits m
    rw [gather_of_lt (by rw [hdigits]; exact hm), hdigits]
  obtain ⟨hlow, hhigh⟩ := hn
  cases n with
  | ofNat m =>
    have hsign : lexNumeral (Nat.toDigits 10 m ++ rest) =
        lexMagnitude false (Nat.toDigits 10 m ++ rest) := by
      unfold lexNumeral
      split
      · rename_i more hmore
        have hhead : (Nat.toDigits 10 m ++ rest).head? = (Nat.toDigits 10 m).head? :=
          List.head?_append_of_ne_nil _ Nat.toDigits_ne_nil
        have hdash : '-' ∈ Nat.toDigits 10 m := by
          refine List.mem_of_mem_head? ?_
          rw [← hhead, hmore]
          rfl
        exact absurd (Text.isDigit_of_mem_toDigits hdash) (by decide)
      · rfl
    rw [toList_toString_ofNat]
    refine lexNumber_of_value (hsign.trans (lexMagnitude_toDigits false m hrest)) ?_
    rw [Numeral.value, hvalue m (Int.ofNat_lt.1 hhigh)]
    rfl
  | negSucc m =>
    have hm : m + 1 ≤ Number.Double.signBit := by omega
    have hsign : lexNumeral ('-' :: (Nat.toDigits 10 (m + 1) ++ rest)) =
        lexMagnitude true (Nat.toDigits 10 (m + 1) ++ rest) := rfl
    rw [toList_toString_negSucc]
    refine lexNumber_of_value (hsign.trans (lexMagnitude_toDigits true (m + 1) hrest)) ?_
    rw [Numeral.value, hvalue (m + 1) (hm.trans_lt (by decide))]
    simp only [Bool.not_true, Bool.false_eq_true, if_false]
    rw [if_neg (by omega)]
    rfl

end TrafficBoard.Json
