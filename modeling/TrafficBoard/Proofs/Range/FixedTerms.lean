import Mathlib
import TrafficBoard.Proofs.Range.Offsets

namespace TrafficBoard

/-!
# Terms of fixed length — exact or refused, whatever their number and order

* `TimeUnit.lengthMs` is the length of a unit that has one, `Term.shiftMs` how far a term moves an
  instant and `Term.totalMs` how far several do;
* `Term.WithinWords` says that the amounts and the sums along the way are signed words;
* `Term.applyAll_of_withinWords` and `Term.applyAll_of_not_withinWords` say that terms are added up
  exactly just then, and refused otherwise;
* `TimeExpr.resolve_fixed_terms` is the same for an expression, with amounts of any size.
-/

/-! ### Lengths -/

namespace TimeUnit

/-- A unit that is as long wherever it starts. -/
def IsFixed (u : TimeUnit) : Prop :=
  u ≠ .year ∧ u ≠ .month

instance (u : TimeUnit) : Decidable u.IsFixed := inferInstanceAs (Decidable (_ ∧ _))

/-- The milliseconds of a unit of fixed length. -/
def lengthMs : TimeUnit → Int
  | .second => 1000
  | .minute => 60 * 1000
  | .hour => 60 * 60 * 1000
  | .day => 24 * 60 * 60 * 1000
  | .week => 7 * 24 * 60 * 60 * 1000
  | .year => 0
  | .month => 0

variable {u : TimeUnit}

/-- A unit of fixed length has that length. -/
theorem IsFixed.fixedMs_eq (h : u.IsFixed) : u.fixedMs = some u.lengthMs := by
  cases u with
  | year => exact absurd rfl h.1
  | month => exact absurd rfl h.2
  | _ => rfl

/-- A unit of fixed length is no shorter than a millisecond. -/
theorem IsFixed.lengthMs_pos (h : u.IsFixed) : 0 < u.lengthMs := by
  cases u with
  | year => exact absurd rfl h.1
  | month => exact absurd rfl h.2
  | _ => decide

end TimeUnit

namespace Term

/-- How far a term moves an instant, in milliseconds and with its sign. -/
def shiftMs (t : Term) : Int :=
  t.signed * t.unit.lengthMs

/-- How far terms move an instant together. -/
def totalMs (terms : List Term) : Int :=
  (terms.map shiftMs).sum

@[simp] theorem totalMs_nil : totalMs [] = 0 := rfl

@[simp] theorem totalMs_cons (t : Term) (terms : List Term) :
    totalMs (t :: terms) = t.shiftMs + totalMs terms :=
  List.sum_cons

/-- The order of terms does not matter to how far they move an instant. -/
theorem totalMs_perm {terms reordered : List Term} (h : reordered.Perm terms) :
    totalMs reordered = totalMs terms :=
  (h.map shiftMs).sum_eq

/-! ### Sums along the way -/

/-- The amounts of terms are signed words in milliseconds, and so are the sums along the way from an
instant. -/
structure WithinWords (base : Int) (terms : List Term) : Prop where
  amounts : ∀ t ∈ terms, Number.InWord (t.amount * t.unit.lengthMs)
  sums : ∀ front, front <+: terms → Number.InWord (base + totalMs front)

section WithinWords

variable {base : Int} {t : Term} {terms : List Term}

/-- Without terms there is only the instant itself. -/
theorem withinWords_nil : WithinWords base [] ↔ Number.InWord base := by
  constructor
  · intro h
    simpa using h.sums [] (List.prefix_refl [])
  · intro h
    refine ⟨by simp, fun front hfront => ?_⟩
    rw [List.prefix_nil.1 hfront]
    simpa using h

/-- The sums along the way go on from where the first term leads. -/
theorem withinWords_cons : WithinWords base (t :: terms) ↔
    Number.InWord base ∧ Number.InWord (t.amount * t.unit.lengthMs) ∧
      WithinWords (base + t.shiftMs) terms := by
  constructor
  · rintro ⟨hamounts, hsums⟩
    obtain ⟨hfirst, hamounts⟩ := List.forall_mem_cons.1 hamounts
    refine ⟨by simpa using hsums [] (List.nil_prefix), hfirst, hamounts, fun front hfront => ?_⟩
    rw [Int.add_assoc, ← totalMs_cons]
    exact hsums (t :: front) ((List.prefix_cons_inj t).2 hfront)
  · rintro ⟨hbase, hfirst, hrest⟩
    refine ⟨List.forall_mem_cons.2 ⟨hfirst, hrest.amounts⟩, fun front hfront => ?_⟩
    rcases List.prefix_cons_iff.1 hfront with rfl | ⟨after, rfl, hafter⟩
    · simpa using hbase
    · rw [totalMs_cons, ← Int.add_assoc]
      exact hrest.sums after hafter

/-- The sums along the way start with the instant. -/
theorem WithinWords.start (h : WithinWords base terms) : Number.InWord base := by
  simpa using h.sums [] List.nil_prefix

/-- An amount that is a signed word in milliseconds is an unsigned word. -/
theorem WithinWords.amount_lt (h : WithinWords base terms) (hunits : ∀ t ∈ terms, t.unit.IsFixed) :
    ∀ t ∈ terms, t.amount < Number.sizeLimit := fun t ht =>
  lt_sizeLimit (hunits t ht).lengthMs_pos (h.amounts t ht)

end WithinWords

/-! ### Applying terms -/

section Apply

variable {base : Int} {terms : List Term}

/-- **A term of fixed length** moves an instant exactly, if neither its amount in milliseconds nor
the sum leaves the signed words. -/
theorem apply_of_isFixed {t : Term} (h : t.unit.IsFixed) (ms : Int) :
    t.apply ms =
      if Number.InWord (t.amount * t.unit.lengthMs) ∧ Number.InWord (ms + t.shiftMs) then
        .ok (ms + t.shiftMs)
      else .error .outOfRange := by
  rw [apply, h.fixedMs_eq]
  rfl

/-- **Terms within the words** are added up exactly. -/
theorem applyAll_of_withinWords (hunits : ∀ t ∈ terms, t.unit.IsFixed)
    (h : WithinWords base terms) : applyAll terms base = .ok (base + totalMs terms) := by
  -- The rest of the terms starts where the first one leads, so the instant is left general.
  induction terms generalizing base with
  | nil =>
    rw [totalMs_nil, Int.add_zero]
    rfl
  | cons t terms ih =>
    obtain ⟨hunit, hunits⟩ := List.forall_mem_cons.1 hunits
    obtain ⟨-, hamount, hrest⟩ := withinWords_cons.1 h
    rw [applyAll, List.foldlM_cons, apply_of_isFixed hunit, if_pos ⟨hamount, hrest.start⟩]
    rw [totalMs_cons, ← Int.add_assoc]
    exact ih hunits hrest

/-- **Other terms** are refused. -/
theorem applyAll_of_not_withinWords (hunits : ∀ t ∈ terms, t.unit.IsFixed)
    (hbase : Number.InWord base) (h : ¬ WithinWords base terms) :
    applyAll terms base = .error .outOfRange := by
  induction terms generalizing base with
  | nil => exact absurd (withinWords_nil.2 hbase) h
  | cons t terms ih =>
    obtain ⟨hunit, hunits⟩ := List.forall_mem_cons.1 hunits
    rw [applyAll, List.foldlM_cons, apply_of_isFixed hunit]
    split
    · rename_i hfirst
      obtain ⟨hamount, hsum⟩ := hfirst
      -- The first term is in order, so it is the rest that leaves the words.
      exact ih hunits hsum fun hrest => h (withinWords_cons.2 ⟨hbase, hamount, hrest⟩)
    · rfl

end Apply

end Term

/-! ### Expressions -/

namespace TimeExpr

section Expressions

variable {expr : String} {terms : List Term} {base : Int}

/-- An expression of terms within the words resolves to their exact sum. -/
theorem resolve_of_withinWords (h : Offsets expr terms) (hunits : ∀ t ∈ terms, t.unit.IsFixed)
    (hwords : Term.WithinWords base terms) :
    resolve expr base = .ok (base + Term.totalMs terms) := by
  rw [resolve_offsets h (hwords.amount_lt hunits), Term.applyAll_of_withinWords hunits hwords]
  rfl

/-- Any other expression of terms of fixed length is invalid. -/
theorem resolve_of_not_withinWords (h : Offsets expr terms)
    (hunits : ∀ t ∈ terms, t.unit.IsFixed) (hbase : Number.InWord base)
    (hwords : ¬ Term.WithinWords base terms) :
    ∃ fault, resolve expr base = .error (.expression (Text.trim expr) fault) :=
  resolve_of_applyAll_error h (Term.applyAll_of_not_withinWords hunits hbase hwords)

/-- Where an expression of terms of fixed length resolves, it is to their exact sum. -/
theorem eq_of_resolve_fixed {ms : Int} (h : Offsets expr terms)
    (hunits : ∀ t ∈ terms, t.unit.IsFixed) (hbase : Number.InWord base)
    (hok : resolve expr base = .ok ms) : ms = base + Term.totalMs terms := by
  by_cases hwords : Term.WithinWords base terms
  · rw [resolve_of_withinWords h hunits hwords] at hok
    exact (Except.ok.inj hok).symm
  · obtain ⟨fault, hfault⟩ := resolve_of_not_withinWords h hunits hbase hwords
    rw [hfault] at hok
    cases hok

end Expressions

/-- **Offsets of fixed length are exact or refused, never wrapped.** Any list of terms in weeks,
days, hours, minutes and seconds can be written after `now`. However it is written, the expression
resolves to the present instant plus the exact sum of the terms, if every amount in milliseconds is
a signed word and so is every sum along the way; otherwise it is invalid. So two orders of the same
terms never resolve to different instants. -/
theorem resolve_fixed_terms {terms : List Term} {base : Int}
    (hunits : ∀ t ∈ terms, t.unit.IsFixed) (hbase : Number.InWord base) :
    Offsets (ofTerms terms) terms ∧
      ∀ expr, Offsets expr terms →
        (Term.WithinWords base terms → resolve expr base = .ok (base + Term.totalMs terms)) ∧
        (¬ Term.WithinWords base terms →
          ∃ fault, resolve expr base = .error (.expression (Text.trim expr) fault)) ∧
        ∀ other reordered, Offsets other reordered → reordered.Perm terms → ∀ ms ms',
          resolve expr base = .ok ms → resolve other base = .ok ms' → ms' = ms := by
  refine ⟨offsets_ofTerms terms, fun expr h => ⟨resolve_of_withinWords h hunits,
    resolve_of_not_withinWords h hunits hbase, ?_⟩⟩
  intro other reordered hother hperm ms ms' hms hms'
  have hunits' : ∀ t ∈ reordered, t.unit.IsFixed := fun t ht => hunits t (hperm.mem_iff.1 ht)
  rw [eq_of_resolve_fixed h hunits hbase hms, eq_of_resolve_fixed hother hunits' hbase hms',
    Term.totalMs_perm hperm]

/-- A second back from the greatest signed word and on again is exact; the other way round leaves
the words on the way. -/
theorem resolve_fixed_terms_at_limit :
    (∀ t ∈ [Term.mk true 1 .second, ⟨false, 1, .second⟩], t.unit.IsFixed) ∧
      Number.InWord Number.wordMax ∧
      resolve "now-1s+1s" Number.wordMax = .ok Number.wordMax ∧
      ∃ fault, resolve " now +01s-1s" Number.wordMax =
        .error (.expression "now +01s-1s" fault) := by
  have hunits : ∀ t ∈ [Term.mk true 1 .second, ⟨false, 1, .second⟩], t.unit.IsFixed := by decide
  have hunits' : ∀ t ∈ [Term.mk false 1 .second, ⟨true, 1, .second⟩], t.unit.IsFixed := by decide
  have hmax : Number.InWord Number.wordMax := by decide
  have hback : Offsets "now-1s+1s" [⟨true, 1, .second⟩, ⟨false, 1, .second⟩] :=
    offsets_ofTerms _
  have hon : Offsets " now +01s-1s" [⟨false, 1, .second⟩, ⟨true, 1, .second⟩] := by
    have hrest : Term.Spells ['-', '1', 's'] [⟨true, 1, .second⟩] :=
      @Term.Spells.cons [] ['1'] [] [] true .second (by simp)
        (List.forall_mem_singleton.2 (by decide)) (by simp) (.nil (by simp))
    exact ⟨[' '], _, List.forall_mem_singleton.2 (by decide),
      @Term.Spells.cons [' '] ['0', '1'] _ _ false .second (List.forall_mem_singleton.2 (by decide))
        (List.forall_mem_cons.2 ⟨by decide, List.forall_mem_singleton.2 (by decide)⟩) (by simp)
        hrest, rfl⟩
  have hwithin : Term.WithinWords Number.wordMax
      [⟨true, 1, .second⟩, ⟨false, 1, .second⟩] := by
    rw [Term.withinWords_cons, Term.withinWords_cons, Term.withinWords_nil]
    decide
  have hnot : ¬ Term.WithinWords Number.wordMax
      [⟨false, 1, .second⟩, ⟨true, 1, .second⟩] := by
    rw [Term.withinWords_cons, Term.withinWords_cons, Term.withinWords_nil]
    decide
  exact ⟨hunits, hmax, ((resolve_fixed_terms hunits hmax).2 _ hback).1 hwithin,
    ((resolve_fixed_terms hunits' hmax).2 _ hon).2.1 hnot⟩

end TimeExpr

end TrafficBoard
