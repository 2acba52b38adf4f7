import Mathlib
import TrafficBoard.Text.Digit

namespace TrafficBoard.Text

/-!
# Runs of digits and blanks — what is written with them, and what is read back

* `natOfDigits_append` splits the number of a run of digits, `natOfDigits_lt` bounds it;
* `natOfDigits_toDigits` and `natOfDigits_padded` say that the digits of a number denote it;
* `trimChars_surrounded` says that trimming removes just the blanks around a text.
-/

/-! ### Characters -/

/-- An ASCII digit is a decimal digit. -/
theorem isDecimal_of_isDigit {c : Char} (h : isDigit c) : isDecimal c := by
  simp only [isDigit, Bool.and_eq_true, decide_eq_true_eq] at h
  -- The ASCII digits are the first range of the table.
  refine List.any_eq_true.2 ⟨(0x30, 0x39), List.mem_cons_self, ?_⟩
  simp only [Bool.and_eq_true, decide_eq_true_eq]
  exact h

/-- The code points of the ASCII digits. -/
theorem isDigit_iff {c : Char} : isDigit c = true ↔ 48 ≤ c.toNat ∧ c.toNat ≤ 57 := by
  simp only [isDigit, Bool.and_eq_true, decide_eq_true_eq]
  exact Iff.rfl

/-- An ASCII digit is no blank. -/
theorem isBlank_of_isDigit {c : Char} (h : isDigit c) : isBlank c = false := by
  rw [isDigit_iff] at h
  unfold isBlank inRanges
  rw [List.any_eq_false]
  -- Every range of blanks ends before the digits or starts after them.
  have hranges : ∀ range ∈ blankRanges, range.2 < 48 ∨ 57 < range.1 := by decide
  intro range hrange
  have := hranges range hrange
  simp only [Bool.and_eq_true, decide_eq_true_eq]
  omega

/-- The value of an ASCII digit is below ten. -/
theorem digitValue_lt {c : Char} (h : isDigit c) : digitValue c < 10 := by
  rw [isDigit_iff] at h
  unfold digitValue
  omega

/-! ### Runs of characters -/

section Runs

variable {p : Char → Bool} {run rest : List Char}

/-- A run is taken up to a character that cannot go on with it. -/
theorem takeWhile_run (hrun : ∀ c ∈ run, p c) (hrest : ∀ c ∈ rest.head?, p c = false) :
    (run ++ rest).takeWhile p = run := by
  rw [List.takeWhile_append_of_pos hrun]
  cases rest with
  | nil => simp
  | cons c rest => simp [hrest c rfl]

/-- A run is dropped up to a character that cannot go on with it. -/
theorem dropWhile_run (hrun : ∀ c ∈ run, p c) (hrest : ∀ c ∈ rest.head?, p c = false) :
    (run ++ rest).dropWhile p = rest := by
  rw [List.dropWhile_append_of_pos hrun]
  cases rest with
  | nil => rfl
  | cons c rest => simp [hrest c rfl]

end Runs

/-! ### Numbers of digits -/

/-- A run of digits denotes a number in the usual way. -/
theorem natOfDigits_eq_ofDigitChars (digits : List Char) :
    natOfDigits digits = Nat.ofDigitChars 10 digits 0 := by
  rw [natOfDigits, natOfDigitsFrom, Nat.ofDigitChars]
  congr 1
  funext n c
  rw [Nat.mul_comm n 10]
  rfl

/-- What has been read is moved by a place for every further digit. -/
theorem natOfDigitsFrom_eq (start : Nat) (digits : List Char) :
    natOfDigitsFrom start digits = start * 10 ^ digits.length + natOfDigits digits := by
  induction digits generalizing start with
  | nil => simp [natOfDigitsFrom]
  | cons c digits ih =>
    have hstep (n : Nat) : natOfDigitsFrom n (c :: digits) =
        natOfDigitsFrom (n * 10 + digitValue c) digits := rfl
    rw [natOfDigits, hstep, hstep, ih, ih (0 * 10 + digitValue c), List.length_cons, pow_succ]
    ring

/-- The number of one run of digits after another. -/
theorem natOfDigits_append (digits more : List Char) :
    natOfDigits (digits ++ more) = natOfDigits digits * 10 ^ more.length + natOfDigits more := by
  rw [← natOfDigitsFrom_eq]
  exact List.foldl_append

/-- A number has no more digits than are written. -/
theorem natOfDigits_lt {digits : List Char} (h : ∀ c ∈ digits, isDigit c) :
    natOfDigits digits < 10 ^ digits.length := by
  induction digits with
  | nil => simp
  | cons c digits ih =>
    obtain ⟨hc, hdigits⟩ := List.forall_mem_cons.mp h
    have hfirst : natOfDigits [c] = digitValue c := by simp [natOfDigits, natOfDigitsFrom]
    have := digitValue_lt hc
    have := ih hdigits
    rw [← List.singleton_append, natOfDigits_append, hfirst, List.length_append,
      List.length_singleton, pow_add, pow_one]
    nlinarith

/-! ### Digits of numbers -/

/-- The digits of a number are ASCII digits. -/
theorem isDigit_of_mem_toDigits {n : Nat} {c : Char} (h : c ∈ Nat.toDigits 10 n) : isDigit c := by
  simpa [Char.isDigit, isDigit, Char.le_def] using
    Nat.isDigit_of_mem_toDigits (by omega) (by omega) h

/-- The digits of a number denote it. -/
theorem natOfDigits_toDigits (n : Nat) : natOfDigits (Nat.toDigits 10 n) = n := by
  rw [natOfDigits_eq_ofDigitChars]
  exact Nat.ofDigitChars_toDigits (by omega) (by omega)

section Padded

variable {width n : Nat}

/-- Padding puts zeros before the digits. -/
theorem toList_padded : (padded width n).toList =
    List.replicate (width - (Nat.toDigits 10 n).length) '0' ++ Nat.toDigits 10 n := by
  have hdigits : (toString n).toList = Nat.toDigits 10 n := by
    rw [Nat.toString_eq_repr, Nat.toList_repr]
  have hlength : (toString n).length = (Nat.toDigits 10 n).length := by
    rw [← String.length_toList, hdigits]
  simp only [padded, String.toList_append, String.toList_ofList, hdigits, hlength]

/-- A padded number is a run of digits. -/
theorem isDigit_of_mem_padded {c : Char} (h : c ∈ (padded width n).toList) : isDigit c := by
  rw [toList_padded, List.mem_append, List.mem_replicate] at h
  rcases h with ⟨-, rfl⟩ | hdigit
  · decide
  · exact isDigit_of_mem_toDigits hdigit

/-- A padded number has just the width, if it fits. -/
theorem length_padded (hwidth : 0 < width) (hn : n < 10 ^ width) :
    (padded width n).toList.length = width := by
  have hle := (Nat.length_toDigits_le_iff (by omega) hwidth).mpr hn
  rw [toList_padded, List.length_append, List.length_replicate]
  omega

/-- The digits of a padded number denote it. -/
theorem natOfDigits_padded : natOfDigits (padded width n).toList = n := by
  have hzeros (k : Nat) : natOfDigits (List.replicate k '0') = 0 := by
    induction k with
    | zero => rfl
    | succ k ih => rw [List.replicate_succ', natOfDigits_append, ih]; rfl
  rw [toList_padded, natOfDigits_append, hzeros, natOfDigits_toDigits, zero_mul, zero_add]

end Padded

/-! ### Blanks around a text -/

/-- Nothing is left of a text of blanks, and of no other text. -/
theorem trimChars_eq_nil_iff {s : List Char} : trimChars s = [] ↔ ∀ c ∈ s, isBlank c := by
  rw [trimChars, List.reverse_eq_nil_iff, List.dropWhile_eq_nil_iff]
  constructor
  · intro h
    -- What is left after the leading blanks does not start with one, so nothing is left.
    have hnil : dropBlank s = [] := by
      by_contra hne
      have hhead := List.head_dropWhile_not isBlank hne
      have := h _ (List.mem_reverse.2 (List.head_mem hne))
      simp_all [dropBlank]
    rw [dropBlank, List.dropWhile_eq_nil_iff] at hnil
    exact hnil
  · intro h c hc
    rw [List.mem_reverse, dropBlank] at hc
    exact h c ((List.dropWhile_sublist _).mem hc)

/-- A text that does not start with a blank has none to drop. -/
theorem dropBlank_of_head? {s : List Char} (h : ∀ c ∈ s.head?, isBlank c = false) :
    dropBlank s = s := by
  cases s with
  | nil => rfl
  | cons c s =>
    have hc : isBlank c = false := h c rfl
    exact List.dropWhile_cons_of_neg (by rw [hc]; exact Bool.false_ne_true)

/-- **Trimming removes the blanks around a text,** if it neither starts nor ends with one itself. -/
theorem trimChars_surrounded {before s after : List Char} (hbefore : ∀ c ∈ before, isBlank c)
    (hafter : ∀ c ∈ after, isBlank c) (hne : s ≠ []) (hfirst : ∀ c ∈ s.head?, isBlank c = false)
    (hlast : ∀ c ∈ s.getLast?, isBlank c = false) : trimChars (before ++ s ++ after) = s := by
  have hdropped : dropBlank (before ++ s ++ after) = s ++ after := by
    have hhead : (s ++ after).head? = s.head? := List.head?_append_of_ne_nil s hne
    rw [List.append_assoc, dropBlank, List.dropWhile_append_of_pos hbefore]
    exact dropBlank_of_head? (hhead ▸ hfirst)
  rw [trimChars, hdropped, List.reverse_append,
    List.dropWhile_append_of_pos fun c hc => hafter c (List.mem_reverse.mp hc)]
  have hreverse : dropBlank s.reverse = s.reverse :=
    dropBlank_of_head? (List.head?_reverse ▸ hlast)
  rw [show s.reverse.dropWhile isBlank = s.reverse from hreverse, List.reverse_reverse]

end TrafficBoard.Text
