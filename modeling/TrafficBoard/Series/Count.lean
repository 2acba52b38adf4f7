import TrafficBoard.Number.Double

namespace TrafficBoard

/-!
# Counts — what the analytics need of the values that they add up

* `Count` is the interface: sums, a zero test, the order of ranking and a threshold test;
* the instance of `Number.Double` is what runs, with both zeros and both signs of not-a-number;
* the instance of `Int` reads counts as exact numbers;
* `Count.sum` adds up a list.

Two values start a sum. A cell of a series starts at `zero`; the sum of a list starts at
`emptySum`, which for doubles is negative zero, the neutral value of addition.
-/

/-- Values that can be added up, ranked and compared with a threshold. -/
class Count (α : Type) where
  zero : α
  one : α
  /-- The sum of the empty list. -/
  emptySum : α
  add : α → α → α
  sub : α → α → α
  isZero : α → Bool
  /-- The total order by which counts rank. -/
  atMost : α → α → Bool
  /-- Whether the magnitude of the first value is above the second. -/
  exceeds : α → α → Bool

instance : Count Number.Double where
  zero := .zero
  one := .one
  emptySum := .negZero
  add := .add
  sub := .sub
  isZero x := x.isZero
  atMost x y := x.totalKey ≤ y.totalKey
  exceeds d t := t.lt d.abs

instance : Count Int where
  zero := 0
  one := 1
  emptySum := 0
  add := (· + ·)
  sub := (· - ·)
  isZero x := x = 0
  atMost x y := x ≤ y
  exceeds d t := t < d.natAbs

variable {α : Type} [Count α]

namespace Count

/-- The sum of a list, from left to right. -/
def sum (xs : List α) : α :=
  xs.foldl add emptySum

/-- The sum of a list on top of zero, from left to right. -/
def total (xs : List α) : α :=
  xs.foldl add zero

@[simp] theorem sum_nil : sum ([] : List α) = emptySum := rfl

@[simp] theorem total_nil : total ([] : List α) = zero := rfl

end Count

end TrafficBoard
