import Mathlib
import TrafficBoard.Files.Tree

namespace TrafficBoard.FileTree

/-!
# Changes of a file tree — what is found where after a file is written and moved

* `entry?_put` and `entry?_erase` say what stands at every place after one of them is changed;
* `walk_of_directories` says that a path leads to the same place as long as the directories on its
  way are there;
* `read_rename` says that a file that is moved to the place of a path is read under that path.

A file is moved by erasing one place and putting an entry to another. Neither of the two places is a
directory, so every path that led to a place before leads to it afterwards.
-/

/-! ### Entries -/

section Entries

variable (tree : FileTree) (place other : Place)

/-- The root, the working directory and what is above it are directories. -/
theorem entry?_of_isFixed {place : Place} (h : isFixed place) :
    tree.entry? place = some .directory :=
  if_pos h

/-- What stands at a place that is none of the fixed ones is what its first entry says. -/
theorem entry?_of_not_isFixed {place : Place} (h : ¬isFixed place) :
    tree.entry? place = (tree.entries.find? fun e => e.1 = place).map Prod.snd :=
  if_neg h

/-- **Erasing a place** leaves every other place as it is. -/
theorem entry?_erase (h : ¬isFixed other) :
    entry? (tree.erase place) other = if other = place then none else tree.entry? other := by
  rw [entry?_of_not_isFixed _ h, entry?_of_not_isFixed _ h, erase]
  induction tree.entries with
  | nil => simp
  | cons e entries ih =>
    by_cases hplace : e.1 = place
    · rw [List.filter_cons_of_neg (by simpa using hplace), ih]
      by_cases hsame : other = place
      · rw [if_pos hsame, if_pos hsame]
      · have hother : e.1 ≠ other := fun heq => hsame (heq ▸ hplace)
        rw [if_neg hsame, if_neg hsame, List.find?_cons_of_neg (by simpa using hother)]
    · rw [List.filter_cons_of_pos (by simpa using hplace)]
      by_cases hother : e.1 = other
      · have hsame : other ≠ place := hother ▸ hplace
        rw [List.find?_cons_of_pos (by simpa using hother), if_neg hsame,
          List.find?_cons_of_pos (by simpa using hother)]
      · rw [List.find?_cons_of_neg (by simpa using hother),
          List.find?_cons_of_neg (by simpa using hother), ih]

/-- **Putting an entry to a place** leaves every other place as it is. -/
theorem entry?_put (entry : Entry) (h : ¬isFixed other) :
    entry? (tree.put place entry) other =
      if other = place then some entry else tree.entry? other := by
  have herase := tree.entry?_erase place other h
  rw [entry?_of_not_isFixed _ h] at herase ⊢
  by_cases hsame : other = place
  · rw [if_pos hsame, put, List.find?_cons_of_pos (by simp [hsame])]
    rfl
  · rw [if_neg hsame] at herase ⊢
    rw [put, List.find?_cons_of_neg (by simpa using Ne.symm hsame), herase]

end Entries

/-! ### Paths -/

/-- A step that is not the last one has to lead to a directory. -/
theorem walk_cons_cons (tree : FileTree) (here : Place) (step next : String) (rest : List String) :
    tree.walk here (step :: next :: rest) =
      match tree.entry? (follow here step) with
      | some .directory => tree.walk (follow here step) (next :: rest)
      | some (.file _) => .error .notDirectory
      | none => .error .notFound :=
  rfl

/-- **A path leads to the same place** in every tree that has the directories on its way. -/
theorem walk_of_directories {tree changed : FileTree}
    (h : ∀ place, tree.entry? place = some .directory → changed.entry? place = some .directory)
    {here place : Place} {steps : List String} (hwalk : tree.walk here steps = .ok place) :
    changed.walk here steps = .ok place := by
  induction steps generalizing here with
  | nil => exact hwalk
  | cons step steps ih =>
    cases steps with
    | nil => exact hwalk
    | cons next steps =>
      rw [walk_cons_cons] at hwalk ⊢
      cases hentry : tree.entry? (follow here step) with
      | none => simp [hentry] at hwalk
      | some entry =>
        cases entry with
        | file content => simp [hentry] at hwalk
        | directory =>
          simp only [hentry] at hwalk
          simp only [h _ hentry]
          exact ih hwalk

/-- A path names the same place in every tree that has the directories on its way. -/
theorem locate_of_directories {tree changed : FileTree}
    (h : ∀ place, tree.entry? place = some .directory → changed.entry? place = some .directory)
    {path : Path} {place : Place} (hlocate : tree.locate path = .ok place) :
    changed.locate path = .ok place := by
  rw [locate] at hlocate ⊢
  by_cases hempty : path.text.isEmpty = true
  · rw [if_pos hempty] at hlocate
    cases hlocate
  · rw [if_neg hempty] at hlocate ⊢
    exact walk_of_directories h hlocate

/-! ### Files -/

section Files

variable {tree : FileTree}

/-- A place that can be written is no directory, and has the text afterwards. -/
theorem entry?_write {place : Place} {text : String} {written : FileTree}
    (h : tree.write place text = .ok written) :
    written.entry? place = some (.file (.text text)) := by
  have hplace : tree.entry? place ≠ some .directory := fun hdir => by simp [write, hdir] at h
  have hfixed : ¬isFixed place := fun hf => hplace (tree.entry?_of_isFixed hf)
  have hwritten : written = tree.put place (.file (.text text)) := by
    unfold write at h
    split at h
    · cases h
    · cases h
    · exact (Except.ok.inj h).symm
  rw [hwritten, tree.entry?_put place place _ hfixed, if_pos rfl]

/-- **What a move needs and does:** there is something at the source, and no directory at the
target; the one place is erased, and what stood there put to the other. -/
theorem rename_eq_ok_iff {source target : Place} {renamed : FileTree} :
    tree.rename source target = .ok renamed ↔
      ∃ entry, tree.entry? source = some entry ∧ tree.entry? target ≠ some .directory ∧
        renamed = (tree.erase source).put target entry := by
  unfold rename
  split
  · rename_i hsource
    simp [hsource]
  · rename_i hsource htarget
    simp [hsource, htarget]
  · rename_i entry hsource htarget
    constructor
    · intro h
      exact ⟨entry, hsource, fun hdir => htarget hdir, (Except.ok.inj h).symm⟩
    · rintro ⟨_, hentry, -, rfl⟩
      rw [hsource] at hentry
      rw [Option.some.inj hentry]

/-- **A file that is moved to the place of a path** is read under that path. -/
theorem read_rename {source target : Place} {text : String} {path : Path} {renamed : FileTree}
    (hsource : tree.entry? source = some (.file (.text text)))
    (hpath : tree.locate path = .ok target) (hname : path.namesDirectory = false)
    (h : tree.rename source target = .ok renamed) : renamed.read path = .ok text := by
  obtain ⟨entry, hentry, htarget, hrenamed⟩ := rename_eq_ok_iff.1 h
  obtain rfl : entry = .file (.text text) := Option.some.inj (hentry.symm.trans hsource)
  have hfixed : ¬isFixed target := fun hf => htarget (tree.entry?_of_isFixed hf)
  -- Neither the place that is emptied nor the one that is filled was a directory.
  have hkept : ∀ place, tree.entry? place = some .directory →
      renamed.entry? place = some .directory := by
    intro place hdir
    by_cases hplace : isFixed place = true
    · exact renamed.entry?_of_isFixed hplace
    · have htarget' : place ≠ target := fun heq => htarget (heq ▸ hdir)
      have hsource' : place ≠ source := fun heq => by
        rw [heq, hsource] at hdir
        cases hdir
      rw [hrenamed, entry?_put _ _ _ _ hplace, if_neg htarget', entry?_erase _ _ _ hplace,
        if_neg hsource', hdir]
  have hlocate := locate_of_directories hkept hpath
  have hfound : renamed.entry? target = some (.file (.text text)) := by
    rw [hrenamed, entry?_put _ _ _ _ hfixed, if_pos rfl]
  simp only [read, entryAt, hlocate, hfound, hname, Bool.false_eq_true, if_false]

end Files

end TrafficBoard.FileTree
