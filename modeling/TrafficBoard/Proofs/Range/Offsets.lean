import Mathlib
import TrafficBoard.Proofs.Range.Grammar

namespace TrafficBoard

/-!
# Offsets from now — expressions that are `now` and terms after it

* `Term.Spells` says which terms a text spells, with amounts of any size;
* `TimeExpr.Offsets` says which terms an expression puts after `now`, with blanks around it, and
  `TimeExpr.ofTerms` writes such an expression for any terms;
* `TimeExpr.resolve_offsets` says that the terms are applied one after the other to the present
  instant, if their amounts are unsigned words;
* `TimeExpr.resolve_offsets_of_large` says that the expression is invalid if one of them is not;
* `TimeExpr.resolve_of_applyAll_error` and `TimeExpr.applyAll_of_resolve` say what follows for an
  expression whose amounts are not known to be words.

A `Spelling` carries the bound on its amounts; here the bound is left to the reader, so that what is
said of all terms is said of those that it refuses too.
-/

/-! ### Texts of terms -/

/-- The letters of a unit end with one that is no blank. -/
theorem TimeUnit.letters_eq_concat (u : TimeUnit) :
    ∃ init c, u.letters.toList = init ++ [c] ∧ Text.isBlank c = false := by
  cases u with
  | year => exact ⟨[], 'y', rfl, by decide⟩
  | month => exact ⟨[], 'm', rfl, by decide⟩
  | week => exact ⟨[], 'w', rfl, by decide⟩
  | day => exact ⟨[], 'd', rfl, by decide⟩
  | hour => exact ⟨[], 'h', rfl, by decide⟩
  | minute => exact ⟨['m', 'i'], 'n', rfl, by decide⟩
  | second => exact ⟨[], 's', rfl, by decide⟩

namespace Term

/-- A text spells terms: each is blanks, its sign, ASCII digits for its amount and the letters of
its unit, and blanks may come at the end. -/
inductive Spells : List Char → List Term → Prop
  | nil {blanks : List Char} (hblanks : ∀ c ∈ blanks, Text.isBlank c) : Spells blanks []
  | cons {blanks digits rest : List Char} {terms : List Term} (negative : Bool) (unit : TimeUnit)
      (hblanks : ∀ c ∈ blanks, Text.isBlank c) (hdigits : ∀ c ∈ digits, Text.isDigit c)
      (hne : digits ≠ []) (hrest : Spells rest terms) :
      Spells (blanks ++ signChar negative :: (digits ++ unit.letters.toList) ++ rest)
        (⟨negative, Nat.ofDigitChars 10 digits 0, unit⟩ :: terms)

namespace Spells

variable {s : List Char} {terms : List Term}

/-- No text of terms starts with the letter that makes a minute of a month. -/
theorem head?_ne (h : Spells s terms) : s.head? ≠ some 'i' := by
  cases h with
  | nil hblanks => exact head?_ne_of_blanks hblanks
  | cons negative unit hblanks _ _ _ =>
    rw [List.append_assoc]
    exact head?_signed_ne hblanks negative _

/-- **The terms that a text spells** are read off it, if their amounts are unsigned words. -/
theorem parseAll_eq (h : Spells s terms) (hsize : ∀ t ∈ terms, t.amount < Number.sizeLimit) :
    parseAll s = .ok terms := by
  induction h with
  | nil hblanks =>
    rw [parseAll_of_lex?_none (lex?_of_blanks hblanks), Text.trimChars_eq_nil_iff.2 hblanks]
    rfl
  | cons negative unit hblanks hdigits hne hrest ih =>
    obtain ⟨hfirst, hsize⟩ := List.forall_mem_cons.1 hsize
    rw [parseAll_of_lex? (lex?_written negative unit hblanks hdigits hne hrest.head?_ne),
      Text.natOfDigits_eq_ofDigitChars, if_pos ⟨List.all_eq_true.2 hdigits, hfirst⟩, ih hsize]
    rfl

/-- A text that spells a term whose amount is no unsigned word is refused. -/
theorem exists_fault (h : Spells s terms) (hlarge : ∃ t ∈ terms, Number.sizeLimit ≤ t.amount) :
    ∃ fault, parseAll s = .error fault := by
  induction h with
  | nil => simp at hlarge
  | cons negative unit hblanks hdigits hne hrest ih =>
    rw [parseAll_of_lex? (lex?_written negative unit hblanks hdigits hne hrest.head?_ne),
      Text.natOfDigits_eq_ofDigitChars]
    split
    · rename_i hfirst
      -- The first amount is small, so the large one comes later.
      obtain ⟨t, ht, hlarge⟩ := hlarge
      rcases List.mem_cons.1 ht with rfl | ht
      · exact absurd hfirst.2 (not_lt.2 hlarge)
      obtain ⟨fault, hfault⟩ := ih ⟨t, ht, hlarge⟩
      exact ⟨fault, by rw [hfault]; rfl⟩
    · exact ⟨_, rfl⟩

/-- The blanks at the end of a text of terms may be left out. What is left then ends with no blank,
after any character that is none. -/
theorem exists_trimmed (h : Spells s terms) : ∃ front after, s = front ++ after ∧
    Spells front terms ∧ (∀ c ∈ after, Text.isBlank c) ∧
      ∀ p, Text.isBlank p = false →
        ∃ init c, p :: front = init ++ [c] ∧ Text.isBlank c = false := by
  induction h with
  | nil hblanks => exact ⟨[], _, rfl, .nil (by simp), hblanks, fun p hp => ⟨[], p, rfl, hp⟩⟩
  | @cons blanks digits rest terms negative unit hblanks hdigits hne hrest ih =>
    obtain ⟨front, after, rfl, hfront, hafter, hends⟩ := ih
    refine ⟨_, after, (List.append_assoc _ _ _).symm,
      .cons negative unit hblanks hdigits hne hfront, hafter, fun p hp => ?_⟩
    -- A term ends with a letter, and the rest comes after that.
    obtain ⟨letters, letter, hletters, hletter⟩ := unit.letters_eq_concat
    obtain ⟨init, c, hinit, hc⟩ := hends letter hletter
    refine ⟨p :: (blanks ++ signChar negative :: (digits ++ letters)) ++ init, c, ?_, hc⟩
    rw [List.append_assoc (_ :: _) init, ← hinit, hletters]
    simp

/-- What is written of terms one after the other spells them. -/
theorem write (terms : List Term) : Spells (terms.flatMap fun t => t.write.toList) terms := by
  induction terms with
  | nil => exact .nil (by simp)
  | cons t terms ih =>
    have hwrite : t.write.toList =
        [] ++ signChar t.negative :: (Nat.toDigits 10 t.amount ++ t.unit.letters.toList) := by
      cases hn : t.negative
      all_goals simp [Term.write, hn, signChar, Nat.repr_eq_ofList_toDigits]
    have hcons := @cons [] (Nat.toDigits 10 t.amount) _ terms t.negative t.unit (by simp)
      (fun c hc => Text.isDigit_of_mem_toDigits hc) Nat.toDigits_ne_nil ih
    rw [Nat.ofDigitChars_toDigits (by omega) (by omega)] at hcons
    rw [List.flatMap_cons, hwrite]
    exact hcons

end Spells

/-- An amount that is a signed word times anything is an unsigned word. -/
theorem lt_sizeLimit {amount : Nat} {factor : Int} (hfactor : 0 < factor)
    (h : Number.InWord (amount * factor)) : amount < Number.sizeLimit := by
  have hmax : Number.wordMax < (Number.sizeLimit : Int) := by decide
  have hle : (amount : Int) ≤ amount * factor :=
    le_mul_of_one_le_right (Int.natCast_nonneg _) hfactor
  exact Int.ofNat_lt.1 ((hle.trans h.2).trans_lt hmax)

/-- A single term is applied as it is. -/
theorem applyAll_singleton (t : Term) (ms : Int) : applyAll [t] ms = t.apply ms := by
  rw [applyAll, List.foldlM_cons]
  simp

end Term

/-! ### Expressions -/

namespace TimeExpr

/-- An expression puts terms after `now`, with blanks around it allowed. -/
def Offsets (expr : String) (terms : List Term) : Prop :=
  ∃ before rest, (∀ c ∈ before, Text.isBlank c) ∧ Term.Spells rest terms ∧
    expr.toList = before ++ 'n' :: 'o' :: 'w' :: rest

/-- The expression that puts terms after `now`. -/
def ofTerms (terms : List Term) : String :=
  String.ofList ('n' :: 'o' :: 'w' :: terms.flatMap fun t => t.write.toList)

/-- Any terms are put after `now` by some expression. -/
theorem offsets_ofTerms (terms : List Term) : Offsets (ofTerms terms) terms :=
  ⟨[], _, by simp, .write terms, by rw [ofTerms, String.toList_ofList]; rfl⟩

/-- Bare `now` has no terms after it. -/
theorem offsets_now : Offsets "now" [] :=
  offsets_ofTerms []

section Offsets

variable {expr : String} {terms : List Term}

/-- An expression that starts with `now` is no literal. -/
theorem resolveTrimmed_now (base : Int) (rest : List Char) :
    resolveTrimmed base ('n' :: 'o' :: 'w' :: rest) =
      (Term.parseAll rest).bind fun terms => Term.applyAll terms base := by
  -- Neither seconds nor a date start with a letter.
  have hdigits (count : Nat) : isDigits count ('n' :: 'o' :: 'w' :: rest) = false := by
    have hn : Text.isDecimal 'n' = false := by decide
    simp [isDigits, hn]
  have hliteral : Calendar.looksLikeLiteral ('n' :: 'o' :: 'w' :: rest) = false := by
    have hn : Text.isDecimal 'n' = false := by decide
    simp [Calendar.looksLikeLiteral, Calendar.matchesFront, hn]
  rw [resolveTrimmed, hdigits, hdigits, hliteral]
  simp only [List.isEmpty_cons, Bool.false_eq_true, if_false, relative]
  cases Term.parseAll rest with
  | ok terms => rfl
  | error fault => rfl

/-- An expression with terms after `now` resolves as they are read and applied. -/
theorem Offsets.exists_rest (h : Offsets expr terms) (base : Int) :
    ∃ rest, Term.Spells rest terms ∧ resolve expr base =
      ((Term.parseAll rest).bind fun terms => Term.applyAll terms base).mapError
        (.expression (Text.trim expr)) := by
  obtain ⟨before, rest, hbefore, hrest, hexpr⟩ := h
  obtain ⟨front, after, rfl, hfront, hafter, hends⟩ := hrest.exists_trimmed
  -- Trimming takes the blanks before `now` and those after the last term, and no others.
  have htrim : Text.trimChars expr.toList = 'n' :: 'o' :: 'w' :: front := by
    obtain ⟨init, c, hinit, hc⟩ := hends 'w' (by decide)
    have hnow : 'n' :: 'o' :: 'w' :: front = ('n' :: 'o' :: init) ++ [c] := by
      rw [hinit, List.cons_append, List.cons_append]
    rw [hexpr, show before ++ 'n' :: 'o' :: 'w' :: (front ++ after) =
      before ++ 'n' :: 'o' :: 'w' :: front ++ after by simp]
    refine Text.trimChars_surrounded hbefore hafter (List.cons_ne_nil _ _) ?_ ?_
    · rintro c ⟨⟩
      decide
    · rw [hnow, List.getLast?_concat]
      rintro c ⟨⟩
      exact hc
  refine ⟨front, hfront, ?_⟩
  rw [resolve, Text.trim, htrim, resolveTrimmed_now]

/-- **Terms after `now`** move the present instant one after the other, if their amounts are
unsigned words. -/
theorem resolve_offsets (h : Offsets expr terms)
    (hsize : ∀ t ∈ terms, t.amount < Number.sizeLimit) (base : Int) :
    resolve expr base =
      (Term.applyAll terms base).mapError (.expression (Text.trim expr)) := by
  obtain ⟨rest, hrest, hresolve⟩ := h.exists_rest base
  rw [hresolve, hrest.parseAll_eq hsize]
  rfl

/-- An expression with an amount that is no unsigned word is invalid. -/
theorem resolve_offsets_of_large (h : Offsets expr terms)
    (hlarge : ∃ t ∈ terms, Number.sizeLimit ≤ t.amount) (base : Int) :
    ∃ fault, resolve expr base = .error (.expression (Text.trim expr) fault) := by
  obtain ⟨rest, hrest, hresolve⟩ := h.exists_rest base
  obtain ⟨fault, hfault⟩ := hrest.exists_fault hlarge
  exact ⟨fault, by rw [hresolve, hfault]; rfl⟩

/-- An expression with terms after `now` resolves as they are applied, or it is invalid. -/
theorem resolve_offsets_or_invalid (h : Offsets expr terms) (base : Int) :
    resolve expr base = (Term.applyAll terms base).mapError (.expression (Text.trim expr)) ∨
      ∃ fault, resolve expr base = .error (.expression (Text.trim expr) fault) := by
  by_cases hsize : ∀ t ∈ terms, t.amount < Number.sizeLimit
  · exact .inl (resolve_offsets h hsize base)
  · push Not at hsize
    exact .inr (resolve_offsets_of_large h hsize base)

/-- Where terms cannot be applied, the expression is invalid. -/
theorem resolve_of_applyAll_error {base : Int} {fault : ExprFault} (h : Offsets expr terms)
    (hterms : Term.applyAll terms base = .error fault) :
    ∃ fault, resolve expr base = .error (.expression (Text.trim expr) fault) := by
  rcases resolve_offsets_or_invalid h base with hresolve | hinvalid
  · exact ⟨fault, by rw [hresolve, hterms]; rfl⟩
  · exact hinvalid

/-- Where an expression resolves, its terms have been applied. -/
theorem applyAll_of_resolve {base ms : Int} (h : Offsets expr terms)
    (hok : resolve expr base = .ok ms) : Term.applyAll terms base = .ok ms := by
  rcases resolve_offsets_or_invalid h base with hresolve | ⟨fault, hfault⟩
  · rw [hresolve] at hok
    cases hterms : Term.applyAll terms base with
    | ok found =>
      rw [hterms] at hok
      exact congrArg Except.ok (Except.ok.inj hok)
    | error fault =>
      rw [hterms] at hok
      cases hok
  · rw [hfault] at hok
    cases hok

/-- The present instant is named by `now`. -/
theorem resolve_now (base : Int) : resolve "now" base = .ok base := by
  rw [resolve_offsets offsets_now (by simp)]
  rfl

end Offsets

end TimeExpr

end TrafficBoard
