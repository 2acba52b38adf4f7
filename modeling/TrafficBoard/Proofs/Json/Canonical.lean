import Mathlib
import TrafficBoard.Json.Decode

namespace TrafficBoard.Json

/-!
# Generic readings — what is left of a document that passes through its generic value

* `sortMembers` lists the members of an object by name, each name with its last value, and leaves
  alone what is listed so already;
* `fieldOf?` is the value that a record has for a field, and `fieldOf?_canonical` says what it is
  once the record has passed through its generic value;
* `canonical_canonical` says that a generic value is its own generic reading.

Members are sorted with the strict order of their names, so two lists with the same members are
sorted into the same list, in whatever order they were sent.
-/

/-! ### Lists that are read element by element -/

section Lists

variable {α β γ : Type} {f : α → Option β} {xs : List α} {ys : List β}

/-- A list is read when all of its elements are. -/
theorem forall₂_of_mapM (h : xs.mapM f = some ys) :
    List.Forall₂ (fun x y => f x = some y) xs ys := by
  induction xs generalizing ys with
  | nil =>
    obtain rfl := Option.some.inj h
    exact .nil
  | cons x xs ih =>
    simp only [List.mapM_cons, Option.bind_eq_bind, Option.bind_eq_some_iff] at h
    obtain ⟨y, hy, ys', hys, heq⟩ := h
    obtain rfl := Option.some.inj heq
    exact .cons hy (ih hys)

/-- What an element is read as stands at its place. -/
theorem getElem?_of_forall₂ (h : List.Forall₂ (fun x y => f x = some y) xs ys) (i : Nat) :
    ys[i]? = xs[i]?.bind f := by
  induction h generalizing i with
  | nil => rfl
  | cons hfirst _ ih =>
    cases i with
    | zero => exact hfirst.symm
    | succ i => exact ih i

/-- What the last element is read as stands last. -/
theorem getLast?_of_forall₂ (h : List.Forall₂ (fun x y => f x = some y) xs ys) :
    ys.getLast? = xs.getLast?.bind f := by
  rw [List.getLast?_eq_getElem?, List.getLast?_eq_getElem?, ← h.length_eq]
  exact getElem?_of_forall₂ h _

/-- Reading once more, and skipping what cannot be read. -/
theorem filterMap_of_forall₂ (h : List.Forall₂ (fun x y => f x = some y) xs ys)
    (p : β → Option γ) : ys.filterMap p = xs.filterMap fun x => (f x).bind p := by
  induction h with
  | nil => rfl
  | cons hfirst _ ih => rw [List.filterMap_cons, List.filterMap_cons, ih, hfirst, Option.bind_some]

end Lists

/-! ### Members by name -/

/-- The members after one has been put in. -/
theorem mem_insertMember {name : String} {v : Json} {sorted : List (String × Json)}
    {m : String × Json} (h : m ∈ insertMember name v sorted) : m = (name, v) ∨ m ∈ sorted := by
  induction sorted with
  | nil => exact Or.inl (List.mem_singleton.mp h)
  | cons entry rest ih =>
    obtain ⟨other, w⟩ := entry
    unfold insertMember at h
    split_ifs at h
    · exact (List.mem_cons.mp h).imp_right (List.mem_cons_of_mem _)
    · exact List.mem_cons.mp h
    · rcases List.mem_cons.mp h with hfirst | hrest
      · exact Or.inr (hfirst ▸ List.mem_cons_self)
      · exact (ih hrest).imp_right (List.mem_cons_of_mem _)

/-- Members in the strict order of their names. -/
def Ascending (members : List (String × Json)) : Prop :=
  members.Pairwise fun m m' => m.1 < m'.1

/-- Members that are in order stay so when one is put in. -/
theorem Ascending.insertMember {sorted : List (String × Json)} (h : Ascending sorted)
    (name : String) (v : Json) : Ascending (insertMember name v sorted) := by
  induction sorted with
  | nil => exact List.pairwise_singleton _ _
  | cons entry rest ih =>
    obtain ⟨other, w⟩ := entry
    obtain ⟨hfirst, hrest⟩ := List.pairwise_cons.mp h
    unfold Json.insertMember
    split_ifs with hsame hbefore
    · subst hsame
      exact List.pairwise_cons.mpr ⟨hfirst, hrest⟩
    · refine List.pairwise_cons.mpr ⟨fun m hm => ?_, h⟩
      rcases List.mem_cons.mp hm with rfl | hm
      · exact hbefore
      · exact hbefore.trans (hfirst m hm)
    · -- The member goes further back: its name is neither the first one nor before it.
      refine List.pairwise_cons.mpr ⟨fun m hm => ?_, ih hrest⟩
      rcases mem_insertMember hm with rfl | hm
      · exact lt_of_le_of_ne (not_lt.mp hbefore) (Ne.symm hsame)
      · exact hfirst m hm

/-- The values of a name, member by member. -/
theorem valuesOf_cons (name other : String) (v : Json) (rest : List (String × Json)) :
    valuesOf name ((other, v) :: rest) =
      if other = name then v :: valuesOf name rest else valuesOf name rest := by
  unfold valuesOf
  by_cases h : other = name
  · rw [if_pos h, List.filter_cons_of_pos (by simpa using h), List.map_cons]
  · rw [if_neg h, List.filter_cons_of_neg (by simpa using h)]

/-- A name without a member. -/
theorem valuesOf_eq_nil {name : String} {members : List (String × Json)}
    (h : ∀ m ∈ members, m.1 ≠ name) : valuesOf name members = [] := by
  unfold valuesOf
  rw [List.map_eq_nil_iff, List.filter_eq_nil_iff]
  simpa using h

/-- The values of a name after a member has been put in. -/
theorem valuesOf_insertMember {sorted : List (String × Json)} (h : Ascending sorted)
    (name other : String) (v : Json) :
    valuesOf name (insertMember other v sorted) =
      if other = name then [v] else valuesOf name sorted := by
  induction sorted with
  | nil => exact valuesOf_cons name other v []
  | cons entry rest ih =>
    obtain ⟨first, w⟩ := entry
    obtain ⟨hfirst, hrest⟩ := List.pairwise_cons.mp h
    unfold Json.insertMember
    split_ifs with hsame hname hbefore hname hname
    · -- The members after the one that is replaced have greater names.
      rw [valuesOf_cons, if_pos hname, valuesOf_eq_nil fun m hm => ?_]
      rw [← hname, hsame]
      exact (hfirst m hm).ne'
    · rw [valuesOf_cons, if_neg hname, valuesOf_cons, if_neg (hsame ▸ hname)]
    · -- The member goes first, so all names after it are greater.
      rw [valuesOf_cons, if_pos hname, valuesOf_eq_nil fun m hm => ?_]
      rw [← hname]
      rcases List.mem_cons.mp hm with rfl | hm
      · exact hbefore.ne'
      · exact (hbefore.trans (hfirst m hm)).ne'
    · rw [valuesOf_cons, if_neg hname]
    · rw [valuesOf_cons, if_neg (hname ▸ Ne.symm hsame), ih hrest, if_pos hname]
    · rw [valuesOf_cons, ih hrest, if_neg hname, ← valuesOf_cons]

/-- A member without a namesake is listed beside the others. -/
theorem perm_insertMember {name : String} {sorted : List (String × Json)}
    (h : name ∉ sorted.map Prod.fst) (v : Json) :
    (insertMember name v sorted).Perm ((name, v) :: sorted) := by
  induction sorted with
  | nil => exact List.Perm.refl _
  | cons entry rest ih =>
    obtain ⟨other, w⟩ := entry
    rw [List.map_cons, List.mem_cons, not_or] at h
    unfold Json.insertMember
    rw [if_neg h.1]
    split_ifs
    · exact List.Perm.refl _
    · exact ((ih h.2).cons _).trans (List.Perm.swap _ _ _)

section Sorting

variable (members : List (String × Json))

/-- One more member is put in where the others are listed by name. -/
theorem sortMembers_concat (m : String × Json) :
    sortMembers (members ++ [m]) = insertMember m.1 m.2 (sortMembers members) := by
  unfold sortMembers
  rw [List.foldl_append]
  rfl

/-- The members by name are in order. -/
theorem ascending_sortMembers : Ascending (sortMembers members) := by
  induction members using List.reverseRecOn with
  | nil => exact List.Pairwise.nil
  | append_singleton members m ih =>
    rw [sortMembers_concat]
    exact ih.insertMember m.1 m.2

/-- Nothing but the members is listed by name. -/
theorem mem_of_mem_sortMembers {m : String × Json} (h : m ∈ sortMembers members) :
    m ∈ members := by
  induction members using List.reverseRecOn with
  | nil => exact h
  | append_singleton members last ih =>
    rw [sortMembers_concat] at h
    rcases mem_insertMember h with rfl | hmem
    · exact List.mem_append_right _ List.mem_cons_self
    · exact List.mem_append_left _ (ih hmem)

/-- Each name keeps its last value. -/
theorem valuesOf_sortMembers (name : String) :
    valuesOf name (sortMembers members) = (valuesOf name members).getLast?.toList := by
  induction members using List.reverseRecOn with
  | nil => rfl
  | append_singleton members last ih =>
    have hconcat : valuesOf name (members ++ [last]) =
        valuesOf name members ++ if last.1 = name then [last.2] else [] := by
      unfold valuesOf
      rw [List.filter_append, List.map_append]
      exact congrArg (_ ++ ·) (valuesOf_cons name last.1 last.2 [])
    rw [sortMembers_concat, valuesOf_insertMember (ascending_sortMembers members), hconcat]
    by_cases hname : last.1 = name
    · rw [if_pos hname, if_pos hname, List.getLast?_concat]
      rfl
    · rw [if_neg hname, if_neg hname, ih, List.append_nil]

variable {members}

/-- Without a repeated name, all members are listed. -/
theorem perm_sortMembers (h : (members.map Prod.fst).Nodup) :
    (sortMembers members).Perm members := by
  induction members using List.reverseRecOn with
  | nil => exact List.Perm.refl _
  | append_singleton members m ih =>
    have hconcat : (members ++ [m]).Perm (m :: members) := List.perm_append_singleton m members
    obtain ⟨hnew, hnodup⟩ := List.nodup_cons.mp ((hconcat.map Prod.fst).nodup_iff.mp h)
    have hsorted := ih hnodup
    rw [← (hsorted.map Prod.fst).mem_iff] at hnew
    have hinserted : (insertMember m.1 m.2 (sortMembers members)).Perm (m :: members) :=
      (perm_insertMember hnew m.2).trans (hsorted.cons m)
    rw [sortMembers_concat]
    exact hinserted.trans hconcat.symm

/-- Members that are in order have no repeated name. -/
theorem Ascending.nodup (h : Ascending members) : (members.map Prod.fst).Nodup :=
  List.pairwise_map.mpr (h.imp fun hlt => hlt.ne)

/-- Lists in order with the same members are the same. -/
theorem Ascending.eq_of_perm {members' : List (String × Json)} (h : Ascending members)
    (h' : Ascending members') (hperm : members.Perm members') : members = members' :=
  List.Perm.eq_of_pairwise (fun _ _ _ _ hlt hgt => absurd hlt hgt.asymm) h h' hperm

/-- Members that are in order are left alone. -/
theorem sortMembers_of_ascending (h : Ascending members) : sortMembers members = members :=
  (ascending_sortMembers members).eq_of_perm h (perm_sortMembers h.nodup)

end Sorting

/-! ### Generic readings -/

/-- The items of an array are read one by one. -/
theorem canonicalItems_eq_mapM (items : List Json) :
    canonicalItems items = items.mapM canonical := by
  induction items with
  | nil => rfl
  | cons v items ih =>
    rw [List.mapM_cons, ← ih]
    rfl

/-- The generic readings of two lists one after the other. -/
theorem canonicalItems_append (items more : List Json) :
    canonicalItems (items ++ more) =
      (canonicalItems items).bind fun gs => (canonicalItems more).map (gs ++ ·) := by
  simp only [canonicalItems_eq_mapM, List.mapM_append]
  cases items.mapM canonical with
  | none => rfl
  | some gs =>
    cases more.mapM canonical with
    | none => rfl
    | some gs' => rfl

/-- The generic readings of a list, place by place. -/
theorem forall₂_canonicalItems {items gs : List Json} (h : canonicalItems items = some gs) :
    List.Forall₂ (fun v g => v.canonical = some g) items gs :=
  forall₂_of_mapM (canonicalItems_eq_mapM items ▸ h)

/-- The generic readings of the members of an object, place by place. -/
theorem forall₂_canonicalMembers {members gs : List (String × Json)}
    (h : canonicalMembers members = some gs) :
    List.Forall₂ (fun m g => m.1 = g.1 ∧ m.2.canonical = some g.2) members gs := by
  induction members generalizing gs with
  | nil =>
    obtain rfl := Option.some.inj h
    exact .nil
  | cons m members ih =>
    obtain ⟨name, v⟩ := m
    simp only [canonicalMembers, Option.bind_eq_bind, Option.bind_eq_some_iff] at h
    obtain ⟨g, hg, gs', hgs, heq⟩ := h
    obtain rfl := Option.some.inj heq
    exact .cons ⟨rfl, hg⟩ (ih hgs)

/-- Members whose values are their own generic readings. -/
theorem canonicalMembers_of_mem {members : List (String × Json)}
    (h : ∀ m ∈ members, m.2.canonical = some m.2) : canonicalMembers members = some members := by
  induction members with
  | nil => rfl
  | cons m members ih =>
    obtain ⟨hm, hmembers⟩ := List.forall_mem_cons.mp h
    obtain ⟨name, v⟩ := m
    simp only [canonicalMembers, hm, ih hmembers]
    rfl

mutual

/-- **A generic value is its own generic reading.** -/
theorem canonical_canonical {v g : Json} (h : v.canonical = some g) : g.canonical = some g := by
  cases v with
  | array items =>
    obtain ⟨gs, hgs, rfl⟩ := Option.map_eq_some_iff.mp h
    unfold canonical
    rw [canonicalItems_canonical hgs, Option.map_some]
  | object members =>
    obtain ⟨gs, hgs, rfl⟩ := Option.map_eq_some_iff.mp h
    -- What has been sorted has no other members than before, and is left alone when sorted again.
    have hsorted := canonicalMembers_of_mem fun m hm =>
      canonicalMembers_canonical hgs m (mem_of_mem_sortMembers gs hm)
    unfold canonical
    rw [hsorted, Option.map_some, sortMembers_of_ascending (ascending_sortMembers gs)]
  | unreadable => simp [canonical] at h
  | null | bool | number | text =>
    obtain rfl := Option.some.inj h
    rfl

/-- So are the items of a generic array. -/
theorem canonicalItems_canonical {items gs : List Json} (h : canonicalItems items = some gs) :
    canonicalItems gs = some gs := by
  cases items with
  | nil =>
    obtain rfl := Option.some.inj h
    rfl
  | cons v items =>
    simp only [canonicalItems, Option.bind_eq_bind, Option.bind_eq_some_iff] at h
    obtain ⟨g, hg, gs', hgs, heq⟩ := h
    obtain rfl := Option.some.inj heq
    simp only [canonicalItems, canonical_canonical hg, canonicalItems_canonical hgs]
    rfl

/-- So are the values of the members of a generic object. -/
theorem canonicalMembers_canonical {members gs : List (String × Json)}
    (h : canonicalMembers members = some gs) : ∀ m ∈ gs, m.2.canonical = some m.2 := by
  cases members with
  | nil =>
    obtain rfl := Option.some.inj h
    exact fun m hm => absurd hm List.not_mem_nil
  | cons m members =>
    obtain ⟨name, v⟩ := m
    simp only [canonicalMembers, Option.bind_eq_bind, Option.bind_eq_some_iff] at h
    obtain ⟨g, hg, gs', hgs, heq⟩ := h
    obtain rfl := Option.some.inj heq
    exact List.forall_mem_cons.mpr ⟨canonical_canonical hg, canonicalMembers_canonical hgs⟩

end

/-- The values of a name in an object, read generically. -/
theorem forall₂_valuesOf {members gs : List (String × Json)}
    (h : canonicalMembers members = some gs) (name : String) :
    List.Forall₂ (fun v g => v.canonical = some g) (valuesOf name members) (valuesOf name gs) := by
  have hmembers := forall₂_canonicalMembers h
  clear h
  induction hmembers with
  | nil => exact .nil
  | @cons m g members gs hfirst hrest ih =>
    obtain ⟨hname, hcanonical⟩ := hfirst
    obtain ⟨other, v⟩ := m
    obtain ⟨other', v'⟩ := g
    obtain rfl : other = other' := hname
    rw [valuesOf_cons, valuesOf_cons]
    split_ifs
    · exact .cons hcanonical ih
    · exact ih

/-! ### Fields of records -/

/-- The value that a record has for a field: the last member of its name, or the item at its
place. -/
def fieldOf? (names : List String) (name : String) : Json → Option Json
  | .object members => (valuesOf name members).getLast?
  | .array items => items[names.idxOf name]?
  | _ => none

/-- The only member of a name is the last one. -/
theorem getLast?_of_soleValue? {members : List (String × Json)} {name : String}
    {value : Option Json} (h : soleValue? members name = some value) :
    (valuesOf name members).getLast? = value := by
  unfold soleValue? at h
  split at h
  · rename_i hnone
    rw [hnone]
    exact Option.some.inj h
  · rename_i v hsole
    rw [hsole]
    exact Option.some.inj h
  · simp at h

/-- The fields of a record are the values that it has for them. -/
theorem record_fieldOf? {names : List String} {document : Json} {fields : List (Option Json)}
    (h : record names document = some fields) {name : String} (hname : name ∈ names) :
    fields[names.idxOf name]? = some (fieldOf? names name document) := by
  have hplace : names.idxOf name < names.length := List.idxOf_lt_length_of_mem hname
  cases document with
  | object members =>
    have hfields : List.Forall₂ (fun n value => soleValue? members n = some value) names fields :=
      forall₂_of_mapM h
    have hlength : names.idxOf name < fields.length := hfields.length_eq ▸ hplace
    have hthere := getElem?_of_forall₂ hfields (names.idxOf name)
    rw [List.getElem?_eq_getElem hplace, List.getElem_idxOf hplace, Option.bind_some,
      List.getElem?_eq_getElem hlength] at hthere
    rw [List.getElem?_eq_getElem hlength, ← getLast?_of_soleValue? hthere.symm]
    rfl
  | array items =>
    simp only [record] at h
    split_ifs at h
    obtain rfl := Option.some.inj h
    show _ = some items[names.idxOf name]?
    by_cases hthere : names.idxOf name < items.length
    · rw [List.getElem?_append_left (by simpa using hthere), List.getElem?_map,
        List.getElem?_eq_getElem hthere]
      rfl
    · -- The record ends before this field, which is missing then.
      rw [List.getElem?_append_right (by simpa using hthere), List.getElem?_replicate,
        List.getElem?_eq_none (not_lt.mp hthere), if_pos (by rw [List.length_map]; omega)]
  | _ => simp [record] at h

/-- **The fields of a record that has passed through its generic value.** They are the generic
readings of those that it had before. -/
theorem fieldOf?_canonical {v g : Json} (h : v.canonical = some g) (names : List String)
    (name : String) : fieldOf? names name g = (fieldOf? names name v).bind canonical := by
  cases v with
  | object members =>
    obtain ⟨gs, hgs, rfl⟩ := Option.map_eq_some_iff.mp h
    show (valuesOf name (sortMembers gs)).getLast? = _
    rw [valuesOf_sortMembers]
    have hlast := getLast?_of_forall₂ (forall₂_valuesOf hgs name)
    cases hvalue : (valuesOf name gs).getLast? with
    | none => exact hvalue.symm.trans hlast
    | some value => exact hvalue.symm.trans hlast
  | array items =>
    obtain ⟨gs, hgs, rfl⟩ := Option.map_eq_some_iff.mp h
    exact getElem?_of_forall₂ (forall₂_canonicalItems hgs) _
  | unreadable => simp [canonical] at h
  | null | bool | number | text =>
    obtain rfl := Option.some.inj h
    rfl

/-! ### Containers of one part -/

section Single

variable {v g : Json} (name : String)

/-- The generic reading of an array of one item. -/
theorem canonical_array_single (h : v.canonical = some g) :
    (Json.array [v]).canonical = some (.array [g]) := by
  simp only [canonical, canonicalItems, h]
  rfl

/-- The generic reading of an object of one member. -/
theorem canonical_object_single (h : v.canonical = some g) :
    (Json.object [(name, v)]).canonical = some (.object [(name, g)]) := by
  simp only [canonical, canonicalMembers, h]
  rfl

/-- The field of an object of one member. -/
theorem fieldOf?_single (names : List String) (v : Json) :
    fieldOf? names name (.object [(name, v)]) = some v := by
  show (valuesOf name [(name, v)]).getLast? = some v
  rw [valuesOf_cons, if_pos rfl]
  rfl

end Single

end TrafficBoard.Json
