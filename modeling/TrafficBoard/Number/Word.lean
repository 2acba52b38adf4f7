namespace TrafficBoard.Number

/-!
# Machine words — the ranges of the stored integers

* `InWord n` says that `n` is a signed word of 64 bits; instants and offsets are kept to it;
* `wordMax` is the greatest signed word, where products saturate;
* `sizeLimit` bounds the unsigned words of 64 bits, which count points and rows.

Numbers are unbounded integers everywhere else: only where a value is read, multiplied or added
under a check do these bounds appear.
-/

/-- The greatest signed word. -/
def wordMax : Int := 0x7fffffffffffffff

/-- The least signed word. -/
def wordMin : Int := -0x8000000000000000

/-- The first natural number past the unsigned words. -/
def sizeLimit : Nat := 0x10000000000000000

/-- A signed word of 64 bits. -/
def InWord (n : Int) : Prop := wordMin ≤ n ∧ n ≤ wordMax

instance (n : Int) : Decidable (InWord n) := inferInstanceAs (Decidable (_ ∧ _))

/-- A number that is a signed word. -/
def word? (n : Int) : Option Int :=
  if InWord n then some n else none

/-- The signed word nearest to a number. -/
def clampWord (n : Int) : Int :=
  max wordMin (min n wordMax)

@[simp] theorem word?_eq_some_iff {n m : Int} : word? n = some m ↔ InWord n ∧ n = m := by
  simp [word?]

end TrafficBoard.Number
