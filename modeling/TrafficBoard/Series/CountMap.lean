import TrafficBoard.Series.Count

namespace TrafficBoard

/-!
# Count maps — a count for each label, in the order of first mention

* `CountMap` is a list of entries without a repeated label;
* `CountMap.add` adds a count to a label, which goes last if it is new;
* `CountMap.get?` looks a label up, `labels` lists all of them.

The order is what breaks ties: of two labels with equal counts, the one mentioned first ranks first.
-/

variable {α : Type} [Count α]

/-- A count for each label, in the order of first mention. -/
structure CountMap (α : Type) where
  entries : List (String × α)
  nodup : (entries.map Prod.fst).Nodup := by simp

namespace CountMap

/-- The labels in order. -/
def labels (m : CountMap α) : List String :=
  m.entries.map Prod.fst

/-- No labels. -/
def empty : CountMap α where
  entries := []

instance : Inhabited (CountMap α) := ⟨empty⟩

/-- Adds a count to the entry of a label, which starts at zero. -/
def addEntry (label : String) (count : α) : List (String × α) → List (String × α)
  | [] => [(label, Count.add Count.zero count)]
  | (other, value) :: rest =>
    if other = label then (other, Count.add value count) :: rest
    else (other, value) :: addEntry label count rest

/-- The labels after a count has been added. -/
theorem map_fst_addEntry (label : String) (count : α) (entries : List (String × α)) :
    (addEntry label count entries).map Prod.fst =
      if label ∈ entries.map Prod.fst then entries.map Prod.fst
      else entries.map Prod.fst ++ [label] := by
  induction entries with
  | nil => simp [addEntry]
  | cons entry rest ih =>
    obtain ⟨other, value⟩ := entry
    by_cases h : other = label
    · simp [addEntry, h]
    · have h' : ¬ label = other := fun e => h e.symm
      simp only [addEntry, h, if_false, List.map_cons, ih, List.mem_cons, h', false_or]
      split <;> simp

/-- Adds a count to a label. -/
def add (m : CountMap α) (label : String) (count : α) : CountMap α where
  entries := addEntry label count m.entries
  nodup := by
    rw [map_fst_addEntry]
    split
    · exact m.nodup
    · rename_i h
      refine List.nodup_append.2 ⟨m.nodup, by simp, ?_⟩
      intro a ha b hb
      simp only [List.mem_singleton] at hb
      subst hb
      exact fun e => h (e ▸ ha)

/-- The labels after a count has been added: a new one goes last. -/
theorem labels_add (m : CountMap α) (label : String) (count : α) :
    (m.add label count).labels = if label ∈ m.labels then m.labels else m.labels ++ [label] :=
  map_fst_addEntry label count m.entries

/-- Adds the counts of a list of labels, one after the other. -/
def addAll (m : CountMap α) (pairs : List (String × α)) : CountMap α :=
  pairs.foldl (fun m p => m.add p.1 p.2) m

/-- The counts of a list of labels; the counts of a repeated label add up. -/
def ofPairs (pairs : List (String × α)) : CountMap α :=
  empty.addAll pairs

/-- The count of a label, if it is mentioned. -/
def get? (m : CountMap α) (label : String) : Option α :=
  (m.entries.find? fun entry => entry.1 = label).map Prod.snd

omit [Count α] in
@[simp] theorem labels_empty : (empty : CountMap α).labels = [] := rfl

end CountMap

end TrafficBoard
