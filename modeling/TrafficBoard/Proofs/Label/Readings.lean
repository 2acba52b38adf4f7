import Mathlib
import TrafficBoard.Label
import TrafficBoard.Proofs.Number.Decimals

namespace TrafficBoard.Label

open Number (Double)

/-!
# Readings — what the text of a label says

* `Reading` is a label taken apart into a sign, the digits around the point and a unit;
  `Reading.ofText` takes it apart, and `Reading.mantissa` is the number of the digits;
* `reads_fixed` says that a number with fixed places is read as the number that was printed, and
  `reads_shortDecimal` the same of one decimal that is left out where it is zero.

A label is read from its text alone, so what is said of its mantissa is said of what is printed.
-/

/-! ### Taking a label apart -/

/-- A label taken apart. -/
structure Reading where
  negative : Bool
  /-- The digits before the point. -/
  whole : List Char
  /-- The digits after the point, if there is one. -/
  decimals : List Char
  unit : List Char
  deriving DecidableEq

namespace Reading

/-- The sign at the front of a text, and the rest. -/
def sign : List Char → Bool × List Char
  | '-' :: rest => (true, rest)
  | s => (false, s)

/-- The digits after a point at the front of a text, and the rest. -/
def fraction : List Char → List Char × List Char
  | '.' :: rest => (rest.takeWhile Text.isDigit, rest.dropWhile Text.isDigit)
  | s => ([], s)

/-- The reading of a text: a sign, digits, a point with digits, and a unit after any blanks. -/
def ofText (s : String) : Reading :=
  let (negative, s) := sign s.toList
  let (decimals, rest) := fraction (s.dropWhile Text.isDigit)
  { negative, whole := s.takeWhile Text.isDigit, decimals, unit := Text.dropBlank rest }

/-- The number of the digits, without the sign. -/
def mantissa (r : Reading) : ℚ :=
  Text.natOfDigits r.whole + Text.natOfDigits r.decimals / 10 ^ r.decimals.length

/-- The mantissa stays below a base wherever the unit is one of these. -/
def StaysBelow (base : ℚ) (units : List String) (r : Reading) : Prop :=
  String.ofList r.unit ∈ units → r.mantissa < base

instance (base : ℚ) (units : List String) (r : Reading) : Decidable (r.StaysBelow base units) :=
  inferInstanceAs (Decidable (String.ofList r.unit ∈ units → r.mantissa < base))

/-- A zero with a minus sign. -/
def IsNegativeZero (r : Reading) : Prop :=
  r.negative = true ∧ r.mantissa = 0

instance (r : Reading) : Decidable r.IsNegativeZero :=
  inferInstanceAs (Decidable (r.negative = true ∧ r.mantissa = 0))

end Reading

/-- A text is read as a sign, a number and a unit. -/
structure Reads (s : String) (negative : Bool) (mantissa : ℚ) (unit : List Char) : Prop where
  negative : (Reading.ofText s).negative = negative
  mantissa : (Reading.ofText s).mantissa = mantissa
  unit : (Reading.ofText s).unit = unit

/-! ### Reading what is printed -/

/-- The decimals after their point, if there are any. -/
def pointed (decimals : List Char) : List Char :=
  if decimals = [] then [] else '.' :: decimals

/-- What may stand after a number: no digit and no point. -/
def EndsNumber (tail : List Char) : Prop :=
  ∀ c ∈ tail.head?, Text.isDigit c = false ∧ c ≠ '.'

section Digits

variable {whole decimals tail : List Char} (hwhole : ∀ c ∈ whole, Text.isDigit c)
  (hne : whole ≠ []) (hdecimals : ∀ c ∈ decimals, Text.isDigit c) (htail : EndsNumber tail)

/-- A sign is read off the digits after it. -/
theorem sign_append (negative : Bool) (rest : List Char) (hwhole : ∀ c ∈ whole, Text.isDigit c)
    (hne : whole ≠ []) : Reading.sign ((if negative then ['-'] else []) ++ (whole ++ rest)) =
      (negative, whole ++ rest) := by
  cases negative with
  | true => rfl
  | false =>
    cases whole with
    | nil => exact absurd rfl hne
    | cons c whole =>
      have hc : c ≠ '-' := by
        rintro rfl
        exact absurd (hwhole '-' List.mem_cons_self) (by decide)
      show Reading.sign (c :: (whole ++ rest)) = _
      unfold Reading.sign
      split
      · rename_i heq
        exact absurd (List.cons.inj heq).1 hc
      · rfl

/-- A text without a point at its front has no decimals. -/
theorem fraction_of_endsNumber (htail : EndsNumber tail) : Reading.fraction tail = ([], tail) := by
  unfold Reading.fraction
  split
  · rename_i rest
    exact absurd rfl (htail '.' rfl).2
  · rfl

include hwhole hne hdecimals htail

/-- **A number is read off its text** with the decimals it has and the unit after it. -/
theorem reads_of_toList {s : String} {negative : Bool}
    (hs : s.toList = (if negative then ['-'] else []) ++ (whole ++ (pointed decimals ++ tail))) :
    Reads s negative (Text.natOfDigits whole + Text.natOfDigits decimals / 10 ^ decimals.length)
      (Text.dropBlank tail) := by
  have hrest : ∀ c ∈ (pointed decimals ++ tail).head?, Text.isDigit c = false := by
    unfold pointed
    split_ifs
    · exact fun c hc => (htail c hc).1
    · intro c hc
      obtain rfl := Option.some.inj hc
      decide
  have hfraction : Reading.fraction (pointed decimals ++ tail) = (decimals, tail) := by
    unfold pointed
    split_ifs with hnone
    · rw [hnone]
      exact fraction_of_endsNumber htail
    · show ((decimals ++ tail).takeWhile Text.isDigit, (decimals ++ tail).dropWhile Text.isDigit)
        = _
      rw [Text.takeWhile_run hdecimals fun c hc => (htail c hc).1,
        Text.dropWhile_run hdecimals fun c hc => (htail c hc).1]
  have hread : Reading.ofText s = ⟨negative, whole, decimals, Text.dropBlank tail⟩ := by
    unfold Reading.ofText
    rw [hs, sign_append negative _ hwhole hne]
    dsimp only
    rw [Text.takeWhile_run hwhole hrest, Text.dropWhile_run hwhole hrest, hfraction]
  rw [← Reading.mantissa.eq_1 ⟨negative, whole, decimals, Text.dropBlank tail⟩, ← hread]
  exact ⟨by rw [hread], rfl, by rw [hread]⟩

end Digits

/-- The digits of the decimals of a number, of which there are none without places. -/
def decimalDigits (places n : Nat) : List Char :=
  if places = 0 then [] else (Text.padded places n).toList

section Decimals

variable {places n : Nat}

/-- Decimals are digits. -/
theorem isDigit_of_mem_decimalDigits : ∀ c ∈ decimalDigits places n, Text.isDigit c := by
  unfold decimalDigits
  split_ifs
  · exact fun c hc => absurd hc List.not_mem_nil
  · exact fun c hc => Text.isDigit_of_mem_padded hc

variable (h : n < 10 ^ places)

include h

/-- There are as many decimals as places. -/
theorem length_decimalDigits : (decimalDigits places n).length = places := by
  unfold decimalDigits
  split_ifs with hplaces
  · exact hplaces.symm
  · exact Text.length_padded (Nat.pos_of_ne_zero hplaces) h

/-- The decimals denote their number. -/
theorem natOfDigits_decimalDigits : Text.natOfDigits (decimalDigits places n) = n := by
  unfold decimalDigits
  split_ifs with hplaces
  · rw [hplaces, pow_zero, Nat.lt_one_iff] at h
    rw [h, Text.natOfDigits_nil]
  · exact Text.natOfDigits_padded

/-- A point stands before the decimals of a number with places. -/
theorem pointed_decimalDigits : pointed (decimalDigits places n) =
    if places = 0 then [] else '.' :: (Text.padded places n).toList := by
  have hlength := length_decimalDigits h
  unfold pointed
  by_cases hplaces : places = 0
  · rw [if_pos hplaces, if_pos (List.length_eq_zero_iff.mp (hlength.trans hplaces))]
  · have hne : decimalDigits places n ≠ [] := fun hnone =>
      hplaces (hlength.symm.trans (congrArg List.length hnone))
    rw [if_neg hplaces, if_neg hne, decimalDigits, if_neg hplaces]

end Decimals

section Fixed

variable (x : Double) {tail : List Char} (htail : EndsNumber tail)

/-- A number has digits. -/
theorem toDigits_ne_nil (n : Nat) : Nat.toDigits 10 n ≠ [] := by
  intro h
  have := Nat.length_toDigits_pos (b := 10) (n := n)
  rw [h] at this
  exact absurd this (lt_irrefl 0)

/-- The two halves of a printed number make it up. -/
theorem printed_eq (places : Nat) :
    x.printed places = (x.scaled places / 10 ^ places : Nat) +
      (x.scaled places % 10 ^ places : Nat) / 10 ^ places := by
  have hsplit := Nat.div_add_mod (x.scaled places) (10 ^ places)
  have hpow : (10 ^ places : ℚ) ≠ 0 := by positivity
  unfold Double.printed
  conv_lhs => rw [← hsplit]
  push_cast
  field_simp

include htail

/-- **A number with fixed places is read** as the number that was printed. -/
theorem reads_fixed (places : Nat) :
    Reads (x.fixed places ++ String.ofList tail) x.isNegative (x.printed places)
      (Text.dropBlank tail) := by
  have hrest : x.scaled places % 10 ^ places < 10 ^ places := Nat.mod_lt _ (by positivity)
  have htext : (x.fixed places ++ String.ofList tail).toList =
      (if x.isNegative then ['-'] else []) ++ (Nat.toDigits 10 (x.scaled places / 10 ^ places) ++
        (pointed (decimalDigits places (x.scaled places % 10 ^ places)) ++ tail)) := by
    rw [String.toList_append, Double.toList_fixed, String.toList_ofList, List.append_assoc,
      List.append_assoc, pointed_decimalDigits hrest]
  have hread := reads_of_toList (fun c hc => Text.isDigit_of_mem_toDigits hc)
    (toDigits_ne_nil _) isDigit_of_mem_decimalDigits htail htext
  rwa [Text.natOfDigits_toDigits, natOfDigits_decimalDigits hrest, length_decimalDigits hrest,
    ← printed_eq] at hread

/-- **One decimal that is left out where it is zero** is read as the number that was printed. -/
theorem reads_shortDecimal :
    Reads (shortDecimal x ++ String.ofList tail) x.isNegative (x.printed 1)
      (Text.dropBlank tail) := by
  by_cases hzero : x.decimals 1 = "0"
  · have hpadded : Text.padded 1 (x.scaled 1 % 10 ^ 1) = "0" := hzero
    have hrest : x.scaled 1 % 10 ^ 1 = 0 := by
      have hnumber : Text.natOfDigits (Text.padded 1 (x.scaled 1 % 10 ^ 1)).toList = _ :=
        Text.natOfDigits_padded
      rw [← hnumber, hpadded]
      rfl
    have htext : (x.fixed 1).toList = ((if x.isNegative then ['-'] else []) ++
        Nat.toDigits 10 (x.scaled 1 / 10 ^ 1)) ++ ['.', '0'] := by
      rw [Double.toList_fixed, if_neg Nat.one_ne_zero, hpadded, List.append_assoc]
      rfl
    have hshort : (shortDecimal x).toList = (if x.isNegative then ['-'] else []) ++
        Nat.toDigits 10 (x.scaled 1 / 10 ^ 1) := by
      unfold shortDecimal
      dsimp only
      rw [if_pos hzero, String.toList_ofList, ← String.length_toList, htext, List.length_append]
      exact List.take_left
    have htail' : (shortDecimal x ++ String.ofList tail).toList =
        (if x.isNegative then ['-'] else []) ++ (Nat.toDigits 10 (x.scaled 1 / 10 ^ 1) ++
          (pointed [] ++ tail)) := by
      rw [String.toList_append, hshort, String.toList_ofList, pointed, if_pos rfl, List.nil_append,
        List.append_assoc]
    have hread := reads_of_toList (fun c hc => Text.isDigit_of_mem_toDigits hc)
      (toDigits_ne_nil _) (fun c hc => absurd hc List.not_mem_nil) htail htail'
    have hprinted := printed_eq x 1
    rw [hrest] at hprinted
    rw [Text.natOfDigits_toDigits, Text.natOfDigits_nil] at hread
    simpa [hprinted] using hread
  · unfold shortDecimal
    dsimp only
    rw [if_neg hzero]
    exact reads_fixed x htail 1

end Fixed

end TrafficBoard.Label
