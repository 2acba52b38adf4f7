import Mathlib
import TrafficBoard.Device.Basic
import TrafficBoard.Range.TimeRange

namespace TrafficBoard

/-!
# Adjacent ranges — every sample falls into one of two ranges that meet

* `Picked` says which elements of a list stay when those at some places do, and `Cut` says the same
  of items with samples, of which those left with none go;
* `cut_scopeItems` says that keeping the samples of a window is such a cut, `scopeItems_scopeItems`
  that two cuts are one;
* `StaysIn` says which samples a range keeps, and `Partitions` that two ranges that meet keep each
  sample of the whole one exactly once;
* `Charts.scopedTo_partitions` puts this together for the four charts.
-/

variable {β : Type}

/-! ### Cuts -/

/-- The elements of a list at the places that are kept, in their order. -/
inductive Picked : (Nat → Prop) → List β → List β → Prop where
  | nil {kept : Nat → Prop} : Picked kept [] []
  | keep {kept : Nat → Prop} {x : β} {xs ys : List β} (h : kept 0)
      (rest : Picked (fun j => kept (j + 1)) xs ys) : Picked kept (x :: xs) (x :: ys)
  | drop {kept : Nat → Prop} {x : β} {xs ys : List β} (h : ¬kept 0)
      (rest : Picked (fun j => kept (j + 1)) xs ys) : Picked kept (x :: xs) ys

/-- The items with the samples at the places that are kept, by the place of the item and that of the
sample, in their order. An item stays just where one of its samples does. -/
inductive Cut : (Nat → Nat → Prop) → List (DeviceItem (List β)) → List (DeviceItem (List β)) → Prop
    where
  | nil {kept : Nat → Nat → Prop} : Cut kept [] []
  | keep {kept : Nat → Nat → Prop} {item : DeviceItem (List β)} {stats : List β}
      {items cut : List (DeviceItem (List β))} (picked : Picked (kept 0) item.stats stats)
      (h : stats ≠ []) (rest : Cut (fun i => kept (i + 1)) items cut) :
      Cut kept (item :: items) ({ item with stats } :: cut)
  | drop {kept : Nat → Nat → Prop} {item : DeviceItem (List β)}
      {items cut : List (DeviceItem (List β))} (picked : Picked (kept 0) item.stats [])
      (rest : Cut (fun i => kept (i + 1)) items cut) : Cut kept (item :: items) cut

/-- The sample at the place of an item and its own place. -/
def sampleAt? (items : List (DeviceItem (List β))) (i j : Nat) : Option β :=
  items[i]?.bind fun item => item.stats[j]?

/-- The elements that a test keeps are those at the places where it holds. -/
theorem picked_filter (keep : β → Bool) (xs : List β) :
    Picked (fun j => ∃ x ∈ xs[j]?, keep x = true) xs (xs.filter keep) := by
  induction xs with
  | nil => exact .nil
  | cons x rest ih =>
    have hfront : (∃ y ∈ (x :: rest)[0]?, keep y = true) ↔ keep x = true := by simp
    by_cases hx : keep x = true
    · rw [List.filter_cons, if_pos hx]
      exact .keep (hfront.2 hx) ih
    · rw [List.filter_cons, if_neg hx]
      exact .drop (mt hfront.1 hx) ih

namespace Charts

/-- What is left of the items that follow does not depend on the front one. -/
theorem scopeItems_cons (keep : β → Bool) (item : DeviceItem (List β))
    (items : List (DeviceItem (List β))) :
    scopeItems keep (item :: items) =
      if item.stats.filter keep = [] then scopeItems keep items
      else { item with stats := item.stats.filter keep } :: scopeItems keep items := by
  simp only [scopeItems, List.map_cons, List.filter_cons, Bool.not_eq_true',
    List.isEmpty_eq_false_iff]
  by_cases h : item.stats.filter keep = []
  · rw [if_pos h, if_neg (not_not.2 h)]
  · rw [if_neg h, if_pos h]

/-- **Keeping the samples that pass a test cuts the items,** at the places where it holds. -/
theorem cut_scopeItems (keep : β → Bool) (items : List (DeviceItem (List β))) :
    Cut (fun i j => ∃ x ∈ sampleAt? items i j, keep x = true) items (scopeItems keep items) := by
  induction items with
  | nil => exact .nil
  | cons item items ih =>
    have hpicked := picked_filter keep item.stats
    rw [scopeItems_cons]
    by_cases h : item.stats.filter keep = []
    · rw [if_pos h]
      rw [h] at hpicked
      exact .drop hpicked ih
    · rw [if_neg h]
      exact .keep hpicked h ih

/-- **Two cuts are one,** by both tests. -/
theorem scopeItems_scopeItems (keep keep' : β → Bool) (items : List (DeviceItem (List β))) :
    scopeItems keep' (scopeItems keep items) = scopeItems (fun x => keep x && keep' x) items := by
  induction items with
  | nil => rfl
  | cons item items ih =>
    have hboth : item.stats.filter (fun x => keep x && keep' x) =
        (item.stats.filter keep).filter keep' := by
      rw [List.filter_filter]
      simp only [Bool.and_comm]
    rw [scopeItems_cons, scopeItems_cons, hboth]
    by_cases h : item.stats.filter keep = []
    · rw [if_pos h, h, List.filter_nil, if_pos rfl, ih]
    · rw [if_neg h, scopeItems_cons, ih]

/-- The instants in two windows are those between the later start and the earlier end. -/
theorem inWindow_and_inWindow (fromSec toSec fromSec' toSec' time : Int) :
    (inWindow fromSec toSec time && inWindow fromSec' toSec' time) =
      inWindow (max fromSec fromSec') (min toSec toSec') time := by
  rw [Bool.eq_iff_iff]
  simp only [inWindow, Bool.and_eq_true, decide_eq_true_iff, max_le_iff, lt_min_iff]
  exact and_and_and_comm

/-- **Two windows, one after the other, are the window between the later start and the earlier
end,** also where one of them is empty. -/
theorem scopedTo_scopedTo {α : Type} (charts : Charts α) (fromSec toSec fromSec' toSec' : Int) :
    (charts.scopedTo fromSec toSec).scopedTo fromSec' toSec' =
      charts.scopedTo (max fromSec fromSec') (min toSec toSec') := by
  simp only [scopedTo, scopeItems_scopeItems, inWindow_and_inWindow]

end Charts

/-! ### Ranges that meet -/

/-- The sample at a place lies in a range, by whole seconds. -/
def StaysIn (time : β → Int) (r : TimeRange) (items : List (DeviceItem (List β))) (i j : Nat) :
    Prop :=
  ∃ x ∈ sampleAt? items i j, r.fromSeconds ≤ time x ∧ time x < r.toSeconds

/-- A way to cut items to a range keeps each sample of a whole range in exactly one of two parts. -/
structure Partitions (time : β → Int) (early late whole : TimeRange)
    (items : List (DeviceItem (List β))) (cut : TimeRange → List (DeviceItem (List β))) : Prop where
  cuts : ∀ r, Cut (StaysIn time r items) items (cut r)
  once : ∀ i j, StaysIn time whole items i j ↔
    Xor (StaysIn time early items i j) (StaysIn time late items i j)
  neverTwice : ∀ i j, ¬(StaysIn time early items i j ∧ StaysIn time late items i j)

section Meet

variable {a b c : Int} (hab : a < b) (hbc : b < c) (time : β → Int)
  (items : List (DeviceItem (List β))) (i j : Nat)

/-- No sample lies in both of two ranges that meet. -/
theorem not_staysIn_both :
    ¬(StaysIn time ⟨a, b, hab⟩ items i j ∧ StaysIn time ⟨b, c, hbc⟩ items i j) := by
  rintro ⟨⟨x, hx, -, hlt⟩, ⟨y, hy, hle, -⟩⟩
  obtain rfl : x = y := Option.mem_unique hx hy
  exact absurd hle (not_le.2 hlt)

/-- A sample lies in a range just where it lies in one of two ranges that meet within it. Bounds in
milliseconds may fall into one second, but they stay in order. -/
theorem staysIn_iff_or :
    StaysIn time ⟨a, c, hab.trans hbc⟩ items i j ↔
      StaysIn time ⟨a, b, hab⟩ items i j ∨ StaysIn time ⟨b, c, hbc⟩ items i j := by
  have hstart : a / 1000 ≤ b / 1000 := by omega
  have hend : b / 1000 ≤ c / 1000 := by omega
  simp only [StaysIn, TimeRange.fromSeconds, TimeRange.toSeconds]
  constructor
  · rintro ⟨x, hx, hle, hlt⟩
    rcases lt_or_ge (time x) (b / 1000) with hearly | hlate
    · exact .inl ⟨x, hx, hle, hearly⟩
    · exact .inr ⟨x, hx, hlate, hlt⟩
  · rintro (⟨x, hx, hle, hlt⟩ | ⟨x, hx, hle, hlt⟩)
    · exact ⟨x, hx, hle, hlt.trans_le hend⟩
    · exact ⟨x, hx, hstart.trans hle, hlt⟩

/-- **Keeping the samples of a range partitions the items:** of two ranges that meet, each sample of
the whole one is in exactly one. -/
theorem partitions_scopeItems :
    Partitions time ⟨a, b, hab⟩ ⟨b, c, hbc⟩ ⟨a, c, hab.trans hbc⟩ items fun r =>
      Charts.scopeItems (fun x => Charts.inWindow r.fromSeconds r.toSeconds (time x)) items := by
  refine ⟨fun r => ?_, fun i j => ?_, not_staysIn_both hab hbc time items⟩
  · have hkept : StaysIn time r items = fun i j => ∃ x ∈ sampleAt? items i j,
        Charts.inWindow r.fromSeconds r.toSeconds (time x) = true := by
      funext i j
      simp only [StaysIn, Charts.inWindow, Bool.and_eq_true, decide_eq_true_iff]
    rw [hkept]
    exact Charts.cut_scopeItems _ items
  · rw [staysIn_iff_or hab hbc, xor_iff_or_and_not_and]
    exact (and_iff_left (not_staysIn_both hab hbc time items i j)).symm

end Meet

/-- **Ranges that meet partition the samples of every chart.** Take three instants in order, in
milliseconds, and cut the charts to the whole seconds of the range between the outer two and to
those of the two ranges that meet at the middle one. In each of the four charts every cut has the
samples of its range in their order, at their items in their order, and an item is there just where
one of its samples is. A sample stays in the whole range just where it stays in exactly one of the
two, and it never stays in both. And cutting twice, to any two windows, is cutting once to the
window between the later start and the earlier end. -/
theorem Charts.scopedTo_partitions {α : Type} (charts : Charts α) :
    (∀ (a b c : Int) (hab : a < b) (hbc : b < c),
      let early : TimeRange := ⟨a, b, hab⟩
      let late : TimeRange := ⟨b, c, hbc⟩
      let whole : TimeRange := ⟨a, c, hab.trans hbc⟩
      let cut := fun r : TimeRange => charts.scopedTo r.fromSeconds r.toSeconds
      Partitions TrafficSample.time early late whole charts.traffic (fun r => (cut r).traffic) ∧
      Partitions DomainSample.time early late whole charts.domains (fun r => (cut r).domains) ∧
      Partitions CountrySample.time early late whole charts.countries
        (fun r => (cut r).countries) ∧
      Partitions ProtoSample.time early late whole charts.protos (fun r => (cut r).protos)) ∧
    ∀ fromSec toSec fromSec' toSec' : Int,
      (charts.scopedTo fromSec toSec).scopedTo fromSec' toSec' =
        charts.scopedTo (max fromSec fromSec') (min toSec toSec') := by
  refine ⟨fun a b c hab hbc => ?_, charts.scopedTo_scopedTo⟩
  intro early late whole cut
  exact ⟨partitions_scopeItems hab hbc _ _, partitions_scopeItems hab hbc _ _,
    partitions_scopeItems hab hbc _ _, partitions_scopeItems hab hbc _ _⟩

/-- Three devices around the start of 1970, one of them with the same sample twice. -/
def straddlingCharts : Charts Int where
  traffic := []
  domains := []
  countries := []
  protos :=
    [⟨.ofMac "aa", [⟨1, .labels ["tcp"], none⟩, ⟨-2, .missing, none⟩, ⟨-1, .missing, none⟩,
      ⟨-1, .missing, none⟩]⟩, ⟨.ofMac "bb", [⟨9, .missing, none⟩]⟩,
      ⟨.ofMac "cc", [⟨0, .labels ["udp"], none⟩]⟩]

/-- Bounds before 1970 that are no whole seconds: the second of each is the one it falls into. -/
theorem Charts.scopedTo_partitions_straddling :
    let early : TimeRange := { fromMs := -1500, toMs := -1 }
    let late : TimeRange := { fromMs := -1, toMs := 2999 }
    let whole : TimeRange := { fromMs := -1500, toMs := 2999 }
    let cut := fun r : TimeRange => straddlingCharts.scopedTo r.fromSeconds r.toSeconds
    let times := fun r => (cut r).protos.map fun item => item.stats.map ProtoSample.time
    times early = [[-2]] ∧ times late = [[1, -1, -1], [0]] ∧ times whole = [[1, -2, -1, -1], [0]] ∧
    Partitions ProtoSample.time early late whole straddlingCharts.protos
      (fun r => (cut r).protos) := by
  intro early late whole cut times
  have hparts := straddlingCharts.scopedTo_partitions.1 (-1500) (-1) 2999 (by decide) (by decide)
  exact ⟨by decide, by decide, by decide, hparts.2.2.2⟩

end TrafficBoard
