import Mathlib
import TrafficBoard.Proofs.Device.Items

namespace TrafficBoard

open Json

/-!
# Elements — which elements of a list of devices are items

* `isObject` holds of objects, `isByPlace` of the arrays that are short enough to give the fields of
  an item by their place;
* `itemOf` is the item of an element, with the default for every field that is missing or malformed;
* `ofJson?_of_generic` says which generic values are items, and which item each of them is;
* `deviceItems_eq_objects_iff` says that a list has the items of its objects and of its short
  arrays, and hence those of its objects alone just where it has no short array.

A generic value has no name twice and nothing unreadable in it, so neither the record of an item nor
one of its fields is ever refused: what cannot be decoded is replaced, and the item stays.
-/

/-! ### Records -/

section Records

variable {names : List String} {document : Json} {fields : List (Option Json)}

/-- A record has all of its fields. -/
theorem length_record (h : record names document = some fields) :
    fields.length = names.length := by
  cases document with
  | object members =>
    have hfields : List.Forall₂ (fun n value => soleValue? members n = some value) names fields :=
      forall₂_of_mapM h
    exact hfields.length_eq.symm
  | array items =>
    simp only [record] at h
    split_ifs at h with hlength
    obtain rfl := Option.some.inj h
    rw [List.length_append, List.length_map, List.length_replicate]
    omega
  | _ => simp [record] at h

/-- **A record is the list of the values that it has for its fields.** -/
theorem eq_map_of_record (hnames : names.Nodup) (h : record names document = some fields) :
    fields = names.map fun name => fieldOf? names name document := by
  refine List.ext_getElem (by rw [length_record h, List.length_map]) fun i hi hi' => ?_
  have hplace : i < names.length := length_record h ▸ hi
  have hfield := record_fieldOf? h (List.getElem_mem hplace)
  rw [hnames.idxOf_getElem i hplace, List.getElem?_eq_getElem hi] at hfield
  rw [List.getElem_map]
  exact Option.some.inj hfield

end Records

/-! ### Generic values -/

section Generic

variable {g : Json}

/-- The members of a generic object are listed by name. -/
theorem ascending_of_generic {members : List (String × Json)}
    (h : (Json.object members).canonical = some (.object members)) : Ascending members := by
  obtain ⟨gs, -, heq⟩ := Option.map_eq_some_iff.mp h
  rw [← Json.object.inj heq]
  exact ascending_sortMembers gs

/-- No name stands twice in a generic object. -/
theorem soleValue?_of_ascending {members : List (String × Json)} (h : Ascending members)
    (name : String) : soleValue? members name = some (valuesOf name members).getLast? := by
  have hvalues := valuesOf_sortMembers members name
  rw [sortMembers_of_ascending h] at hvalues
  unfold soleValue?
  rw [hvalues]
  cases (valuesOf name members).getLast? with
  | none => rfl
  | some v => rfl

/-- The field of a generic value is generic. -/
theorem generic_fieldOf? (h : g.canonical = some g) {names : List String} {name : String} {v : Json}
    (hv : fieldOf? names name g = some v) : v.canonical = some v := by
  have hfield := fieldOf?_canonical h names name
  rw [hv, Option.bind_some] at hfield
  exact hfield.symm

/-- **A field of a generic value is never refused:** what cannot be decoded is the default. -/
theorem lenient_of_generic {β : Type} (decode : Json → Option β) (default : β)
    (h : g.canonical = some g) (names : List String) (name : String) :
    lenient decode default (fieldOf? names name g) =
      some (((fieldOf? names name g).bind decode).getD default) := by
  cases hv : fieldOf? names name g with
  | none => rfl
  | some v => rw [lenient, generic_fieldOf? h hv, Option.map_some, Option.bind_some]

/-- Whether a value is an object. -/
def isObject : Json → Bool
  | .object _ => true
  | _ => false

/-- Whether a value is an array without more items than an item has fields. -/
def isByPlace : Json → Bool
  | .array items => items.length ≤ itemFields.length
  | _ => false

/-- The generic values that are records of an item. -/
theorem record_of_generic (h : g.canonical = some g) :
    record itemFields g = if isObject g || isByPlace g then
      some [fieldOf? itemFields "device" g, fieldOf? itemFields "stats" g] else none := by
  have hfields {fields : List (Option Json)} (hrecord : record itemFields g = some fields) :
      record itemFields g =
        some [fieldOf? itemFields "device" g, fieldOf? itemFields "stats" g] :=
    hrecord.trans (congrArg some (eq_map_of_record (by decide) hrecord))
  cases g with
  | object members =>
    have hsole := soleValue?_of_ascending (ascending_of_generic h)
    show itemFields.mapM (soleValue? members) = _
    simp only [itemFields, List.mapM_cons, List.mapM_nil, hsole]
    rfl
  | array items =>
    by_cases hlength : items.length ≤ itemFields.length
    · rw [if_pos (by simpa [isObject, isByPlace] using hlength)]
      exact hfields (if_pos hlength)
    · rw [if_neg (by simpa [isObject, isByPlace] using hlength)]
      exact if_neg hlength
  | _ => rfl

end Generic

/-! ### Items -/

section Items

variable {β : Type} (decode : Json → Option β) (default : β)

/-- The item of an element: a field that is missing or malformed has its default. -/
def itemOf (element : Json) : DeviceItem β where
  device := ((fieldOf? itemFields "device" element).bind Device.ofJson?).getD (.ofMac "")
  stats := ((fieldOf? itemFields "stats" element).bind decode).getD default

/-- **A generic value is an item just if it is an object or a short array.** -/
theorem ofJson?_of_generic {g : Json} (h : g.canonical = some g) :
    DeviceItem.ofJson? decode default g =
      if isObject g || isByPlace g then some (itemOf decode default g) else none := by
  unfold DeviceItem.ofJson?
  show (record itemFields g).bind _ = _
  rw [record_of_generic h]
  split_ifs
  · simp only [Option.bind_some, lenient_of_generic _ _ h]
    rfl
  · rfl

/-- The elements of an array; nothing else has any. -/
def elements : Json → List Json
  | .array items => items
  | _ => []

/-- The elements of a generic value are generic. -/
theorem generic_of_mem_elements {g element : Json} (h : g.canonical = some g)
    (hmem : element ∈ elements g) : element.canonical = some element := by
  cases g with
  | array items =>
    obtain ⟨gs, hgs, heq⟩ := Option.map_eq_some_iff.mp h
    obtain rfl := Json.array.inj heq
    obtain ⟨i, hi, rfl⟩ := List.getElem_of_mem hmem
    exact (forall₂_canonicalItems hgs).get hi hi
  | _ => exact absurd hmem List.not_mem_nil

/-- **The items of a generic list are those of its objects and short arrays, in their order.** -/
theorem deviceItems_of_generic {g : Json} (h : g.canonical = some g) :
    deviceItems decode default g =
      ((elements g).filter fun element => isObject element || isByPlace element).map
        (itemOf decode default) := by
  have hread : deviceItems decode default g =
      (elements g).filterMap (DeviceItem.ofJson? decode default) := by
    cases g with
    | array items => rfl
    | _ => rfl
  rw [hread, ← List.filterMap_eq_map, List.filterMap_filter]
  refine List.filterMap_congr fun element hmem => ?_
  exact ofJson?_of_generic decode default (generic_of_mem_elements h hmem)

/-- **Which elements of a list are items.** The items of a generic value, whatever it is and
whichever data its items have, are one for each of its elements that is an object or an array of at
most two items, in their order, each with the defaults for what is missing or malformed in it; what
is no array has no items. So the items are those of the objects, and of nothing else, just where no
element is such an array. -/
theorem deviceItems_eq_objects_iff {document g : Json} (h : document.canonical = some g) :
    deviceItems decode default g =
        ((elements g).filter fun element => isObject element || isByPlace element).map
          (itemOf decode default) ∧
      (deviceItems decode default g = ((elements g).filter isObject).map (itemOf decode default) ↔
        ∀ element ∈ elements g, isByPlace element = false) := by
  have hitems := deviceItems_of_generic decode default (canonical_canonical h)
  refine ⟨hitems, fun heq element hmem => ?_, fun hnone => ?_⟩
  · -- The objects are among the items, so if there are as many of the one as of the other, all
    -- items are objects; and no object is an array.
    have hlength := congrArg List.length (hitems.symm.trans heq)
    rw [List.length_map, List.length_map] at hlength
    have hsub : ((elements g).filter isObject).Sublist
        ((elements g).filter fun element => isObject element || isByPlace element) :=
      List.monotone_filter_right _ fun element hobject => by simp [hobject]
    have hsame := hsub.eq_of_length hlength.symm
    by_contra hplace
    rw [Bool.not_eq_false] at hplace
    have hobject : element ∈ (elements g).filter isObject := by
      rw [hsame]
      exact List.mem_filter.mpr ⟨hmem, by simp [hplace]⟩
    cases element with
    | array items => exact absurd (List.mem_filter.mp hobject).2 (by simp [isObject])
    | _ => simp [isByPlace] at hplace
  · rw [hitems]
    congr 1
    exact List.filter_congr fun element hmem => by rw [hnone element hmem, Bool.or_false]

end Items

/-- Of a list with broken items, a short array and a null, all but the null and the long array are
items. -/
theorem deviceItems_eq_objects_iff_mixed :
    let document : Json := .array [.object [("stats", .null), ("stats", .ofInt 7)], .null,
      .array [.null], .array [.null, .null, .null]]
    let g : Json := .array [.object [("stats", .ofInt 7)], .null, .array [.null],
      .array [.null, .null, .null]]
    document.canonical = some g ∧
      (trafficChart g).map DeviceItem.device = [.ofMac "", .ofMac ""] ∧
      trafficChart g ≠ ((elements g).filter isObject).map (itemOf (asList TrafficSample.ofJson?) [])
      := by
  intro document g
  have h : document.canonical = some g := rfl
  obtain ⟨hitems, hobjects⟩ := deviceItems_eq_objects_iff (asList TrafficSample.ofJson?) [] h
  refine ⟨h, congrArg (List.map DeviceItem.device) hitems, fun heq => ?_⟩
  exact absurd (hobjects.mp heq (.array [.null]) (by simp [g, elements])) (by decide)

/-- An empty array among the elements of a list is an item, although it is no object. -/
theorem empty_array_is_item :
    let g : Json := .array [.array []]
    g.canonical = some g ∧ (elements g).filter isObject = [] ∧
      (trafficChart g).map DeviceItem.device = [.ofMac ""] :=
  ⟨rfl, rfl, rfl⟩

end TrafficBoard
