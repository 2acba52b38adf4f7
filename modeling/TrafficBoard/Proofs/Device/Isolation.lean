import Mathlib
import TrafficBoard.Dashboard.View
import TrafficBoard.Proofs.Device.Items

namespace TrafficBoard

open Json

/-!
# Isolation — views that do not depend on the data of other devices

* `ownItems` are the items of an address, and the views of a device depend on its own items only;
* `Foreign` says that a value is no item of an address, `EditedItems` relates a list to the one with
  a foreign element deleted or replaced, `EditedDocument` a document to the one with such a list;
* `views_independent_of_other_devices` says that the views of a device are the same for both,
  whatever was sent for the other devices.

An item is read on its own, through its generic value, and whatever is wrong with it ends in a
default or in its being skipped. So one element decides neither whether another one is read nor what
it is read as.
-/

/-! ### The items of an address -/

section Items

variable {β : Type} (mac : String)

/-- The items of an address. -/
def ownItems (items : List (DeviceItem β)) : List (DeviceItem β) :=
  items.filter fun item => item.device.mac = mac

/-- The item of a device is its first own item. -/
theorem findDevice_ownItems (items : List (DeviceItem β)) :
    findDevice (ownItems mac items) mac = findDevice items mac := by
  unfold findDevice ownItems
  rw [List.find?_filter]
  simp only [and_self, Bool.decide_eq_true]

/-- The data of a device are those of its own items. -/
theorem statsOf_ownItems (items : List (DeviceItem (List β))) :
    statsOf (ownItems mac items) mac = statsOf items mac := by
  unfold statsOf
  rw [findDevice_ownItems]

/-- Keeping the samples of a window does not look from one device to another. -/
theorem ownItems_scopeItems (keep : β → Bool) (items : List (DeviceItem (List β))) :
    ownItems mac (Charts.scopeItems keep items) = Charts.scopeItems keep (ownItems mac items) := by
  unfold ownItems Charts.scopeItems
  rw [List.filter_comm, List.filter_map]
  rfl

end Items

section Views

variable {α : Type} (mac : String)

/-- The charts with the items of an address only. -/
def Charts.own (charts : Charts α) : Charts α where
  traffic := ownItems mac charts.traffic
  domains := ownItems mac charts.domains
  countries := ownItems mac charts.countries
  protos := ownItems mac charts.protos

/-- The views of the charts of a device are those of its own items. -/
theorem ChartViews.ofCharts_own [Count α] (charts : Charts α) (budget : Budget) :
    ChartViews.ofCharts (charts.own mac) mac budget = ChartViews.ofCharts charts mac budget := by
  unfold ChartViews.ofCharts Charts.own
  simp only [statsOf_ownItems, findDevice_ownItems]

/-- Keeping the samples of a window, chart by chart. -/
theorem Charts.own_scopedTo (charts : Charts α) (fromSec toSec : Int) :
    (charts.scopedTo fromSec toSec).own mac = (charts.own mac).scopedTo fromSec toSec := by
  unfold Charts.scopedTo Charts.own
  simp only [ownItems_scopeItems]

/-- The tables with the items of an address only. -/
def TableSet.own (tables : TableSet α) : TableSet α where
  traffic := tables.traffic.map (ownItems mac)
  domains := tables.domains.map (ownItems mac)
  countries := tables.countries.map (ownItems mac)
  protos := tables.protos.map (ownItems mac)

/-- The rows of a device in the table of a category are those of its own items. -/
theorem tableRows_own [Count α] (table : Option (CategoryTable α)) (limit : Nat) :
    tableRows (table.map (ownItems mac)) mac limit = tableRows table mac limit := by
  cases table with
  | none => rfl
  | some items => simp only [tableRows, Option.map_some, Option.bind_some, findDevice_ownItems]

/-- The totals of a device are those of its own items. -/
theorem trafficTotals_own (table : Option (TrafficTable α)) :
    trafficTotals (table.map (ownItems mac)) mac = trafficTotals table mac := by
  cases table with
  | none => rfl
  | some items => simp only [trafficTotals, Option.map_some, Option.bind_some, findDevice_ownItems]

/-- The views of the tables of a device are those of its own items. -/
theorem TableViews.ofTables_own [Count α] (tables : TableSet α) (limit : Option Nat) :
    TableViews.ofTables (tables.own mac) mac limit = TableViews.ofTables tables mac limit := by
  unfold TableViews.ofTables TableSet.own
  simp only [tableRows_own, trafficTotals_own]

/-- The tables with the one of a kind put in its place. -/
def TableSet.put (tables : TableSet α) : Table α → TableSet α
  | .traffic items => { tables with traffic := some items }
  | .domains items => { tables with domains := some items }
  | .countries items => { tables with countries := some items }
  | .protos items => { tables with protos := some items }

end Views

/-! ### Foreign elements -/

/-- A value that does not denote an item of an address. It has to be a value: what is well formed
but denotes none, as a number beyond the doubles, can be read in no document. -/
def Foreign (mac : String) (v : Json) : Prop :=
  ∃ generic, v.canonical = some generic ∧ itemMac? generic ≠ some mac

/-- In whichever list it stands, a foreign value is skipped or read as the item of another
address. -/
theorem ownItems_filterMap_of_ne {β : Type} {mac : String} {generic : Json}
    (h : itemMac? generic ≠ some mac) (decode : Json → Option β) (default : β) :
    ownItems mac ([generic].filterMap (DeviceItem.ofJson? decode default)) = [] := by
  rw [← map_mac_ofJson? decode default] at h
  cases hitem : DeviceItem.ofJson? decode default generic with
  | none => simp [hitem, ownItems]
  | some item =>
    rw [hitem] at h
    simpa [hitem, ownItems] using h

/-! ### Lists with an edit -/

/-- A list of elements, and the list with one that is foreign to an address deleted, or replaced by
another foreign one. -/
inductive EditedItems (mac : String) : List Json → List Json → Prop where
  | delete (before : List Json) (v : Json) (after : List Json) (h : Foreign mac v) :
      EditedItems mac (before ++ v :: after) (before ++ after)
  | replace (before : List Json) (v w : Json) (after : List Json) (hv : Foreign mac v)
      (hw : Foreign mac w) : EditedItems mac (before ++ v :: after) (before ++ w :: after)

section Lists

variable {β : Type} {mac : String} (decode : Json → Option β) (default : β)

/-- The own items in a list of elements, read through their generic values. -/
def ownOfItems (mac : String) (items : List Json) : Option (List (DeviceItem β)) :=
  (canonicalItems items).map fun gs => ownItems mac (deviceItems decode default (.array gs))

/-- A foreign element leaves the own items as they are. -/
theorem ownOfItems_foreign {v : Json} (h : Foreign mac v) (before after : List Json) :
    ownOfItems decode default mac (before ++ v :: after) =
      ownOfItems decode default mac (before ++ after) := by
  obtain ⟨generic, hgeneric, hne⟩ := h
  have hnone := ownItems_filterMap_of_ne hne decode default
  unfold ownOfItems
  rw [canonicalItems_append, canonicalItems_append]
  cases canonicalItems before with
  | none => rfl
  | some gs =>
    simp only [canonicalItems, hgeneric]
    cases canonicalItems after with
    | none => rfl
    | some gs' =>
      -- The foreign element adds nothing between the own items before it and those after it.
      show some (ownItems mac ((gs ++ ([generic] ++ gs')).filterMap _)) =
        some (ownItems mac ((gs ++ gs').filterMap _))
      unfold ownItems at hnone ⊢
      simp only [List.filterMap_append, List.filter_append, hnone, List.nil_append]

/-- **A list with an edit has the same own items.** -/
theorem EditedItems.ownOfItems_eq {items edited : List Json} (h : EditedItems mac items edited) :
    ownOfItems decode default mac items = ownOfItems decode default mac edited := by
  cases h with
  | delete before v after h => exact ownOfItems_foreign decode default h before after
  | replace before v w after hv hw =>
    rw [ownOfItems_foreign decode default hv, ownOfItems_foreign decode default hw]

end Lists

/-! ### Documents with an edit -/

/-- A value that has been left alone, or a list with an edit. -/
inductive EditedValue (mac : String) : Json → Json → Prop where
  | same (v : Json) : EditedValue mac v v
  | list {items edited : List Json} (h : EditedItems mac items edited) :
      EditedValue mac (.array items) (.array edited)

/-- A document, and the one with an edit in the list of one of its fields, which stands there by
name or by its place. -/
inductive EditedDocument (mac : String) : Json → Json → Prop where
  | member (before after : List (String × Json)) (name : String) {items edited : List Json}
      (h : EditedItems mac items edited) :
      EditedDocument mac (.object (before ++ (name, .array items) :: after))
        (.object (before ++ (name, .array edited) :: after))
  | place (before after : List Json) {items edited : List Json} (h : EditedItems mac items edited) :
      EditedDocument mac (.array (before ++ .array items :: after))
        (.array (before ++ .array edited :: after))

section Documents

variable {mac : String}

/-- The same values at the same places. -/
theorem forall₂_same (vs : List Json) : List.Forall₂ (EditedValue mac) vs vs :=
  List.forall₂_same.mpr fun v _ => .same v

/-- The members of a name in an object with an edit. -/
theorem valuesOf_edited (before after : List (String × Json)) (name : String)
    {items edited : List Json} (h : EditedItems mac items edited) (field : String) :
    List.Forall₂ (EditedValue mac) (valuesOf field (before ++ (name, .array items) :: after))
      (valuesOf field (before ++ (name, .array edited) :: after)) := by
  unfold valuesOf
  simp only [List.filter_append, List.filter_cons, List.map_append]
  refine List.rel_append (forall₂_same _) ?_
  by_cases hname : name = field
  · simp only [hname, decide_true, if_true, List.map_cons]
    exact .cons (.list h) (forall₂_same _)
  · simp only [hname, decide_false, Bool.false_eq_true, if_false]
    exact forall₂_same _

/-- A field, with an edit or without. -/
abbrev EditedField (mac : String) : Option Json → Option Json → Prop :=
  Option.Rel (EditedValue mac)

/-- A field that has been left alone. -/
theorem EditedField.same (field : Option Json) : EditedField mac field field := by
  cases field with
  | none => exact .none
  | some v => exact .some (.same v)

/-- The only member of a name in an object with an edit. How often the name stands there is the
same, so the object is refused before the edit just when it is afterwards. -/
theorem soleValue?_edited {members edited : List (String × Json)} {name : String}
    (h : List.Forall₂ (EditedValue mac) (valuesOf name members) (valuesOf name edited)) :
    Option.Rel (EditedField mac) (soleValue? members name) (soleValue? edited name) := by
  unfold soleValue?
  revert h
  generalize valuesOf name members = values, valuesOf name edited = valuesEdited
  intro h
  cases h with
  | nil => exact .some .none
  | cons hfirst hrest =>
    cases hrest with
    | nil => exact .some (.some hfirst)
    | cons _ _ => exact .none

/-- The fields of a record, name by name. -/
theorem mapM_edited {read readEdited : String → Option (Option Json)}
    (h : ∀ name, Option.Rel (EditedField mac) (read name) (readEdited name))
    (names : List String) :
    Option.Rel (List.Forall₂ (EditedField mac)) (names.mapM read) (names.mapM readEdited) := by
  induction names with
  | nil => exact .some .nil
  | cons name names ih =>
    rw [List.mapM_cons, List.mapM_cons]
    have hname := h name
    revert hname ih
    generalize read name = field, readEdited name = fieldEdited
    generalize names.mapM read = fields, names.mapM readEdited = fieldsEdited
    rintro (hfields | _) (hfield | _)
    · exact .some (.cons hfield hfields)
    all_goals exact .none

/-- **The fields of a document with an edit.** They are the fields of the document, but for the list
with the edit. -/
theorem record_edited {document edited : Json} (h : EditedDocument mac document edited)
    (names : List String) :
    Option.Rel (List.Forall₂ (EditedField mac)) (record names document) (record names edited) := by
  cases h with
  | member before after name h =>
    exact mapM_edited (fun field => soleValue?_edited (valuesOf_edited before after name h field))
      names
  | place before after h =>
    unfold record
    simp only [List.length_append, List.length_cons, List.map_append, List.map_cons]
    split
    · refine .some (List.rel_append (List.rel_append ?_ (.cons (.some (.list h)) ?_)) ?_)
      all_goals exact List.forall₂_same.mpr fun field _ => .same field
    · exact .none

/-- The own items of a value with an edit. -/
theorem EditedValue.map_ownItems {β : Type} (decode : Json → Option β) (default : β)
    {v edited : Json} (h : EditedValue mac v edited) :
    (v.canonical.map fun g => ownItems mac (deviceItems decode default g)) =
      edited.canonical.map fun g => ownItems mac (deviceItems decode default g) := by
  cases h with
  | same => rfl
  | list h =>
    simp only [canonical, Option.map_map]
    exact h.ownOfItems_eq decode default

/-- The own items of a field with an edit. -/
theorem chartField_edited {β : Type} (decode : Json → Option β) (default : β)
    {field edited : Option Json} (h : EditedField mac field edited) :
    (chartField (deviceItems decode default) field).map (ownItems mac) =
      (chartField (deviceItems decode default) edited).map (ownItems mac) := by
  cases h with
  | none => rfl
  | some h =>
    unfold chartField
    rw [Option.map_map, Option.map_map]
    exact h.map_ownItems decode default

/-- The charts of four fields, if all of them can be read. -/
def chartsOf {α : Type} (traffic : Option (List (DeviceItem (List (TrafficSample α)))))
    (domains : Option (List (DeviceItem (List (DomainSample α)))))
    (countries : Option (List (DeviceItem (List (CountrySample α)))))
    (protos : Option (List (DeviceItem (List (ProtoSample α))))) : Option (Charts α) := do
  return { traffic := ← traffic, domains := ← domains, countries := ← countries,
           protos := ← protos }

/-- The own items of charts, field by field. -/
theorem map_own_chartsOf {α : Type}
    (traffic : Option (List (DeviceItem (List (TrafficSample α)))))
    (domains : Option (List (DeviceItem (List (DomainSample α)))))
    (countries : Option (List (DeviceItem (List (CountrySample α)))))
    (protos : Option (List (DeviceItem (List (ProtoSample α))))) :
    (chartsOf traffic domains countries protos).map (Charts.own mac) =
      chartsOf (traffic.map (ownItems mac)) (domains.map (ownItems mac))
        (countries.map (ownItems mac)) (protos.map (ownItems mac)) := by
  cases traffic with
  | none => rfl
  | some _ =>
    cases domains with
    | none => rfl
    | some _ =>
      cases countries with
      | none => rfl
      | some _ =>
        cases protos with
        | none => rfl
        | some _ => rfl

/-- **The charts of a document with an edit.** It is read just when the document is, and the device
has the same items in all four charts. -/
theorem map_own_ofJson? {document edited : Json} (h : EditedDocument mac document edited) :
    (Charts.ofJson? document).map (Charts.own mac) =
      (Charts.ofJson? edited).map (Charts.own mac) := by
  have hrecord := record_edited h ["traffic", "domains", "countries", "protos"]
  unfold Charts.ofJson?
  revert hrecord
  generalize record _ document = fields, record _ edited = fieldsEdited
  rintro (hfields | _)
  · -- Both documents have as many fields, and only one with four of them is a document of charts.
    rcases hfields with _ | ⟨htraffic, _ | ⟨hdomains, _ | ⟨hcountries, _ | ⟨hprotos, _ | _⟩⟩⟩⟩
    case cons.cons.cons.cons.nil =>
      show (chartsOf _ _ _ _).map _ = (chartsOf _ _ _ _).map _
      rw [map_own_chartsOf, map_own_chartsOf]
      congr 1
      · exact chartField_edited (asList TrafficSample.ofJson?) [] htraffic
      · exact chartField_edited (asList DomainSample.ofJson?) [] hdomains
      · exact chartField_edited (asList CountrySample.ofJson?) [] hcountries
      · exact chartField_edited (asList ProtoSample.ofJson?) [] hprotos
    all_goals rfl
  · rfl

end Documents

/-! ### Views -/

/-- The views of charts with the same own items. -/
theorem ChartViews.ofCharts_scopedTo_congr {α : Type} [Count α] {mac : String}
    {charts edited : Charts α} (h : charts.own mac = edited.own mac) (fromSec toSec : Int)
    (budget : Budget) :
    ChartViews.ofCharts (charts.scopedTo fromSec toSec) mac budget =
      ChartViews.ofCharts (edited.scopedTo fromSec toSec) mac budget := by
  calc ChartViews.ofCharts (charts.scopedTo fromSec toSec) mac budget
    _ = ChartViews.ofCharts ((charts.own mac).scopedTo fromSec toSec) mac budget := by
      rw [← Charts.own_scopedTo, ChartViews.ofCharts_own]
    _ = ChartViews.ofCharts ((edited.own mac).scopedTo fromSec toSec) mac budget := by rw [h]
    _ = ChartViews.ofCharts (edited.scopedTo fromSec toSec) mac budget := by
      rw [← Charts.own_scopedTo, ChartViews.ofCharts_own]

/-- The views of tables with the same own items. -/
theorem TableViews.ofTables_congr {α : Type} [Count α] {mac : String} {tables edited : TableSet α}
    (h : tables.own mac = edited.own mac) (limit : Option Nat) :
    TableViews.ofTables tables mac limit = TableViews.ofTables edited mac limit := by
  rw [← TableViews.ofTables_own, h, TableViews.ofTables_own]

/-- What depends on nothing but what two options have in common is the same for both. -/
theorem map_eq_of_map_eq {β γ δ : Type} {o o' : Option β} {f : β → γ} {g : β → δ}
    (h : o.map f = o'.map f) (hg : ∀ b b', f b = f b' → g b = g b') : o.map g = o'.map g := by
  cases o with
  | none =>
    rw [Option.map_none, eq_comm, Option.map_eq_none_iff] at h
    rw [h]
  | some b =>
    rw [Option.map_some, eq_comm, Option.map_eq_some_iff] at h
    obtain ⟨b', rfl, hsame⟩ := h
    exact congrArg some (hg b b' hsame.symm)

/-- The own items of tables, one of which is read from a list with an edit. -/
theorem map_own_put {mac : String} {items edited : List Json} (h : EditedItems mac items edited)
    (kind : TableKind) (tables : TableSet Number.Double) :
    ((Json.array items).canonical.map fun generic =>
      (tables.put (Table.ofGeneric kind generic)).own mac) =
    (Json.array edited).canonical.map fun generic =>
      (tables.put (Table.ofGeneric kind generic)).own mac := by
  have htraffic := (EditedValue.list h).map_ownItems TrafficTotals.ofJson? ⟨.zero, .zero⟩
  have hcategory := (EditedValue.list h).map_ownItems CategoryField.ofJson? .missing
  -- Only the table of the kind is read from the list, so the others are the same anyway.
  cases kind with
  | traffic =>
    exact map_eq_of_map_eq htraffic fun _ _ hown =>
      congrArg (fun own => { tables.own mac with traffic := some own }) hown
  | domains =>
    exact map_eq_of_map_eq hcategory fun _ _ hown =>
      congrArg (fun own => { tables.own mac with domains := some own }) hown
  | countries =>
    exact map_eq_of_map_eq hcategory fun _ _ hown =>
      congrArg (fun own => { tables.own mac with countries := some own }) hown
  | protos =>
    exact map_eq_of_map_eq hcategory fun _ _ hown =>
      congrArg (fun own => { tables.own mac with protos := some own }) hown

/-- **The views of a device do not depend on the data of other devices.** Take a document of charts
and the one in which an element that is no item of the device has been deleted from a list, or
replaced by any other value that is none: null, a number, an item that cannot be read, the item of
another device. The charts and rankings of the device in any window are the same for both, and so is
whether the document can be read at all. The tables of the device are the same for a table with such
an edit, whichever table it is and whatever the others are. -/
theorem views_independent_of_other_devices (mac : String) :
    (∀ document edited, EditedDocument mac document edited → ∀ fromSec toSec budget,
      ((Charts.ofJson? document).map fun charts =>
        ChartViews.ofCharts (charts.scopedTo fromSec toSec) mac budget) =
      (Charts.ofJson? edited).map fun charts =>
        ChartViews.ofCharts (charts.scopedTo fromSec toSec) mac budget) ∧
    (∀ items edited, EditedItems mac items edited → ∀ kind (tables : TableSet Number.Double) limit,
      ((Json.array items).canonical.map fun generic =>
        TableViews.ofTables (tables.put (Table.ofGeneric kind generic)) mac limit) =
      (Json.array edited).canonical.map fun generic =>
        TableViews.ofTables (tables.put (Table.ofGeneric kind generic)) mac limit) := by
  constructor
  · intro document edited h fromSec toSec budget
    exact map_eq_of_map_eq (map_own_ofJson? h) fun _ _ hown =>
      ChartViews.ofCharts_scopedTo_congr hown fromSec toSec budget
  · intro items edited h kind tables limit
    exact map_eq_of_map_eq (map_own_put h kind tables) fun _ _ hown =>
      TableViews.ofTables_congr hown limit

/-- An item of another device next to the one of the device is replaced by null. -/
theorem views_beside_null :
    let item (mac : String) : Json := .object
      [("device", .object [("mac", .text mac)]),
        ("stats", .array [.object [("bucket", .ofInt 0), ("domains", .array [.text "x.org"])]])]
    let document (first : Json) : Json := .object [("domains", .array [first, item "aa"])]
    let views (document : Json) := (Charts.ofJson? document).map fun charts =>
      ChartViews.ofCharts (charts.scopedTo 0 60) "aa" {}
    (views (document .null)).isSome ∧ views (document (item "bb")) = views (document .null) ∧
      ∀ kind (tables : TableSet Number.Double) limit,
        ((Json.array [item "bb", item "aa"]).canonical.map fun generic =>
          TableViews.ofTables (tables.put (Table.ofGeneric kind generic)) "aa" limit) =
        (Json.array [.null, item "aa"]).canonical.map fun generic =>
          TableViews.ofTables (tables.put (Table.ofGeneric kind generic)) "aa" limit := by
  intro item document views
  have hother : Foreign "aa" (item "bb") := ⟨_, rfl, by decide⟩
  have hnull : Foreign "aa" .null := ⟨_, rfl, by decide⟩
  have hitems : EditedItems "aa" [item "bb", item "aa"] [.null, item "aa"] :=
    .replace [] _ _ [item "aa"] hother hnull
  have hdocument : EditedDocument "aa" (document (item "bb")) (document .null) :=
    .member [] [] "domains" hitems
  obtain ⟨hcharts, htables⟩ := views_independent_of_other_devices "aa"
  exact ⟨rfl, hcharts _ _ hdocument 0 60 {}, htables _ _ hitems⟩

end TrafficBoard
