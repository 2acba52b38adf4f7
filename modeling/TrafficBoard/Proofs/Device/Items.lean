import Mathlib
import TrafficBoard.Device.Decode
import TrafficBoard.Proofs.Json.Canonical

namespace TrafficBoard

open Json

/-!
# Items — how the elements of a list of devices are read

* `itemParts?` is what an item has before its data are read, and `ofJson?_eq_parts` reads an item
  from that;
* `itemMac?` is the address of an item, which has nothing to do with its data;
* `stats_of_carried` and `stats_of_generic` say what the data of an item are read from, whether the
  item has passed through its generic value before or not;
* `map_items_of_chartField` reads the list of a chart element by element.

Data that cannot be read are replaced by their default and never keep an item from being read. So
whether there is an item, and whose it is, is the same for every kind of data.
-/

/-! ### Lenient fields -/

section Lenient

variable {β γ : Type} (decode : Json → Option β) (default : β)

/-- A field that is replaced as it is read. -/
theorem lenient_map (f : β → γ) (v : Option Json) :
    (lenient decode default v).map f = lenient (fun v => (decode v).map f) (f default) v := by
  cases v with
  | none => rfl
  | some v =>
    unfold lenient
    rw [Option.map_map]
    simp only [Option.getD_map]
    rfl

/-- A list of values that are replaced as they are read. -/
theorem asList_map (f : β → γ) (v : Json) :
    (asList decode v).map (List.map f) = asList (fun v => (decode v).map f) v := by
  cases v with
  | array items =>
    show (items.mapM decode).map (List.map f) = items.mapM fun v => (decode v).map f
    induction items with
    | nil => rfl
    | cons item items ih =>
      rw [List.mapM_cons, List.mapM_cons, ← ih]
      cases decode item with
      | none => rfl
      | some b =>
        cases items.mapM decode with
        | none => rfl
        | some bs => rfl
  | _ => rfl

end Lenient

/-! ### The parts of an item -/

/-- The fields of an item. -/
def itemFields : List String :=
  ["device", "stats"]

/-- The device of an item and its data as they stand there. -/
def itemParts? (document : Json) : Option (Device × Option Json) := do
  match ← record itemFields document with
  | [device, stats] => return (← lenient Device.ofJson? (.ofMac "") device, stats)
  | _ => none

/-- The data are those of their field. -/
theorem stats_of_itemParts? {document : Json} {parts : Device × Option Json}
    (h : itemParts? document = some parts) : parts.2 = fieldOf? itemFields "stats" document := by
  unfold itemParts? at h
  simp only [Option.bind_eq_bind, Option.bind_eq_some_iff] at h
  obtain ⟨fields, hfields, h⟩ := h
  have hplace : fields[itemFields.idxOf "stats"]? = some (fieldOf? itemFields "stats" document) :=
    record_fieldOf? hfields (by decide)
  split at h
  next device stats =>
    obtain ⟨d, -, heq⟩ := Option.bind_eq_some_iff.mp h
    rw [← Option.some.inj heq]
    exact Option.some.inj hplace
  next => simp at h

section Items

variable {β γ : Type} (decode : Json → Option β) (default : β)

/-- **An item is read from its parts.** -/
theorem ofJson?_eq_parts (document : Json) :
    DeviceItem.ofJson? decode default document = (itemParts? document).bind fun parts =>
      (lenient decode default parts.2).map fun stats => ⟨parts.1, stats⟩ := by
  unfold DeviceItem.ofJson? itemParts?
  show (record itemFields document).bind _ = _
  cases record itemFields document with
  | none => rfl
  | some fields =>
    rcases fields with _ | ⟨device, _ | ⟨stats, _ | ⟨more, fields⟩⟩⟩
    case cons.cons.nil =>
      simp only [Option.bind_eq_bind, Option.bind_some]
      cases lenient Device.ofJson? (.ofMac "") device with
      | none => rfl
      | some d =>
        show (lenient decode default stats).bind (fun stats => some (DeviceItem.mk d stats)) =
          (lenient decode default stats).map fun stats => DeviceItem.mk d stats
        exact Option.map_eq_bind.symm
    all_goals rfl

/-- The address of the item that a document denotes, if it denotes one. -/
def itemMac? (document : Json) : Option String :=
  (DeviceItem.ofJson? (fun _ => some ()) () document).map fun item => item.device.mac

/-- **Whatever the data of the items are, a document denotes an item of the same address or
none.** -/
theorem map_mac_ofJson? (document : Json) :
    (DeviceItem.ofJson? decode default document).map (fun item => item.device.mac) =
      itemMac? document := by
  unfold itemMac?
  rw [ofJson?_eq_parts, ofJson?_eq_parts, Option.map_bind, Option.map_bind]
  congr 1
  funext parts
  -- Data are refused for want of a generic value only, and not by the way they are decoded.
  obtain ⟨device, _ | v⟩ := parts
  · rfl
  · simp only [Function.comp_apply, lenient, Option.map_map]
    rfl

/-- An item with its data replaced. -/
def DeviceItem.mapStats (f : β → γ) (item : DeviceItem β) : DeviceItem γ :=
  { item with stats := f item.stats }

/-- An item whose data are replaced as they are read. -/
theorem map_mapStats_ofJson? (f : β → γ) (document : Json) :
    (DeviceItem.ofJson? decode default document).map (DeviceItem.mapStats f) =
      DeviceItem.ofJson? (fun v => (decode v).map f) (f default) document := by
  rw [ofJson?_eq_parts, ofJson?_eq_parts, Option.map_bind]
  congr 1
  funext parts
  rw [← lenient_map, Option.map_map, Function.comp_apply, Option.map_map]
  rfl

variable {decode} {default}

/-- The data of an item are those of its field. -/
theorem stats_ofJson? {document : Json} {item : DeviceItem β}
    (h : DeviceItem.ofJson? decode default document = some item) :
    lenient decode default (fieldOf? itemFields "stats" document) = some item.stats := by
  rw [ofJson?_eq_parts] at h
  obtain ⟨parts, hparts, h⟩ := Option.bind_eq_some_iff.mp h
  obtain ⟨stats, hstats, rfl⟩ := Option.map_eq_some_iff.mp h
  rw [← stats_of_itemParts? hparts]
  exact hstats

/-- The data of an item are read from the generic value of what it carries. -/
theorem stats_of_carried {element carried : Json} {item : DeviceItem β}
    (hitem : DeviceItem.ofJson? decode default element = some item)
    (hcarried : fieldOf? itemFields "stats" element = some carried) :
    item.stats = (carried.canonical.bind decode).getD default := by
  have hread := stats_ofJson? hitem
  rw [hcarried] at hread
  obtain ⟨w, hw, heq⟩ := Option.map_eq_some_iff.mp hread
  rw [hw, Option.bind_some, heq]

/-- **The same holds if the item has passed through its generic value before.** -/
theorem stats_of_generic {element g carried : Json} {item : DeviceItem β}
    (hg : element.canonical = some g) (hitem : DeviceItem.ofJson? decode default g = some item)
    (hcarried : fieldOf? itemFields "stats" element = some carried) :
    item.stats = (carried.canonical.bind decode).getD default := by
  have hfield := fieldOf?_canonical hg itemFields "stats"
  rw [hcarried, Option.bind_some] at hfield
  cases hw : carried.canonical with
  | none =>
    have hread := stats_ofJson? hitem
    rw [hfield, hw] at hread
    exact (Option.some.inj hread).symm
  | some w =>
    rw [hw] at hfield
    -- What has passed through its generic value once is left alone the second time.
    rw [stats_of_carried hitem hfield, canonical_canonical hw]

/-- The items of a list that passes through its generic value, with every sample replaced, are read
from its elements one by one. -/
theorem map_items_of_chartField {f : β → γ} {elements : List Json}
    {items : List (DeviceItem (List β))}
    (h : chartField (deviceItems (asList decode) []) (some (.array elements)) = some items) :
    items.map (DeviceItem.mapStats (List.map f)) = elements.filterMap fun element =>
      element.canonical.bind (DeviceItem.ofJson? (asList fun v => (decode v).map f) []) := by
  obtain ⟨generic, hgeneric, rfl⟩ := Option.map_eq_some_iff.mp h
  obtain ⟨gs, hgs, rfl⟩ := Option.map_eq_some_iff.mp hgeneric
  unfold deviceItems
  rw [List.map_filterMap]
  simp only [map_mapStats_ofJson?, asList_map]
  exact filterMap_of_forall₂ (forall₂_canonicalItems hgs) _

end Items

end TrafficBoard
