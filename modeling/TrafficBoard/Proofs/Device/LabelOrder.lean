import Mathlib
import TrafficBoard.Proofs.Device.Items

namespace TrafficBoard

open Json

/-!
# Label order — categories that are read from a text and from a generic value

* `entries_toCounts` are the counts of an object of labels that is read from a text, in the order of
  the text;
* `Carrier` lists the ways in which a document of charts or a table carries a category, and
  `Carrier.Reads` says that one is read where a document carries a value;
* `labels_sorted_by_generic_reading` says which category it is there, and when its counts are those
  of the text.

A list of charts or of a table passes through its generic value, which lists the members of every
object by name. Labels with equal counts then rank in that order and not in the order in which they
were sent.
-/

/-! ### Counts of distinct labels -/

section Counts

variable {α : Type} [Count α]

/-- A new label goes last. -/
theorem CountMap.addEntry_of_new {label : String} {entries : List (String × α)}
    (h : label ∉ entries.map Prod.fst) (count : α) :
    CountMap.addEntry label count entries = entries ++ [(label, Count.add Count.zero count)] := by
  induction entries with
  | nil => rfl
  | cons entry entries ih =>
    rw [List.map_cons, List.mem_cons, not_or] at h
    unfold CountMap.addEntry
    rw [if_neg (Ne.symm h.1), ih h.2]
    rfl

/-- The counts of new labels go last, one after the other. -/
theorem CountMap.entries_addAll (m : CountMap α) (pairs : List (String × α))
    (h : ((m.entries ++ pairs).map Prod.fst).Nodup) :
    (m.addAll pairs).entries =
      m.entries ++ pairs.map fun pair => (pair.1, Count.add Count.zero pair.2) := by
  induction pairs generalizing m with
  | nil => exact (List.append_nil _).symm
  | cons pair pairs ih =>
    have hnew : pair.1 ∉ m.entries.map Prod.fst := by
      rw [(List.perm_middle.map Prod.fst).nodup_iff, List.map_cons, List.nodup_cons] at h
      rw [List.map_append, List.mem_append, not_or] at h
      exact h.1.1
    have hadd : (m.add pair.1 pair.2).entries =
        m.entries ++ [(pair.1, Count.add Count.zero pair.2)] := addEntry_of_new hnew pair.2
    show ((m.add pair.1 pair.2).addAll pairs).entries = _
    rw [ih _ (by rw [hadd]; simpa using h), hadd, List.append_assoc]
    rfl

end Counts

/-- What a count of a category may be: null or a number. -/
def IsCount (v : Json) : Prop :=
  v = .null ∨ ∃ n, v = .number n

/-- The count that a value denotes, if it is not null. -/
def countOf (v : Json) : Option Number.Double :=
  (orNull asReal v).join

/-- An object of labels, as a category. -/
def countsField (members : List (String × Json)) : CategoryField Number.Double :=
  .counts (members.map fun m => (m.1, countOf m.2))

section Members

variable {members : List (String × Json)}

/-- Values that may be counts are read as such. -/
theorem orNull_asReal {v : Json} (h : IsCount v) : orNull asReal v = some (countOf v) := by
  rcases h with rfl | ⟨n, rfl⟩
  · rfl
  · rfl

/-- A new label goes last here too. -/
theorem setCount_of_new {label : String} {entries : List (String × Option Number.Double)}
    (h : label ∉ entries.map Prod.fst) (count : Option Number.Double) :
    setCount label count entries = entries ++ [(label, count)] := by
  induction entries with
  | nil => rfl
  | cons entry entries ih =>
    rw [List.map_cons, List.mem_cons, not_or] at h
    unfold setCount
    rw [if_neg (Ne.symm h.1), ih h.2]
    rfl

/-- Distinct labels are read in their order. -/
theorem countsOf?_of_nodup (hlabels : (members.map Prod.fst).Nodup)
    (hcounts : ∀ m ∈ members, IsCount m.2) :
    countsOf? members = some (members.map fun m => (m.1, countOf m.2)) := by
  induction members using List.reverseRecOn with
  | nil => rfl
  | append_singleton members m ih =>
    rw [List.map_append, List.nodup_append] at hlabels
    have hmembers := ih hlabels.1 fun m' hm' => hcounts m' (List.mem_append_left _ hm')
    unfold countsOf? at hmembers ⊢
    rw [List.foldlM_append, hmembers, List.map_append]
    have hm := orNull_asReal (hcounts m (List.mem_append_right _ List.mem_cons_self))
    -- The last label is none of those before it, so its count does not take the place of another.
    have hnew : m.1 ∉ (members.map fun m' => (m'.1, countOf m'.2)).map Prod.fst := by
      rw [List.map_map]
      exact fun hmem => hlabels.2.2 m.1 hmem m.1 List.mem_cons_self rfl
    simp [hm, setCount_of_new hnew]

/-- Counts are their own generic readings, so an object of them is just sorted. -/
theorem canonical_of_counts (hcounts : ∀ m ∈ members, IsCount m.2) :
    (Json.object members).canonical = some (.object (sortMembers members)) := by
  have hsame : ∀ m ∈ members, m.2.canonical = some m.2 := by
    intro m hm
    rcases hcounts m hm with hnull | ⟨n, hnumber⟩
    · rw [hnull]
      rfl
    · rw [hnumber]
      rfl
  unfold canonical
  rw [canonicalMembers_of_mem hsame]
  rfl

/-- An object of distinct labels is read as such. -/
theorem ofJson?_of_counts (hlabels : (members.map Prod.fst).Nodup)
    (hcounts : ∀ m ∈ members, IsCount m.2) :
    CategoryField.ofJson? (.object members) = some (countsField members) := by
  unfold CategoryField.ofJson?
  rw [canonical_of_counts hcounts]
  simp only [Option.map_some, countsOf?_of_nodup hlabels hcounts]
  rfl

/-- **The counts of an object of distinct labels**, in the order of its members. -/
theorem entries_toCounts (hlabels : (members.map Prod.fst).Nodup) :
    (countsField members).toCounts.entries =
      members.map fun m => (m.1, Count.add Count.zero ((countOf m.2).getD Count.zero)) := by
  have hpairs : ((members.map fun m => (m.1, countOf m.2)).map fun entry =>
      (entry.1, entry.2.getD Count.zero)) =
      members.map fun m => (m.1, (countOf m.2).getD Count.zero) := List.map_map
  show (CountMap.empty.addAll ((members.map fun m => (m.1, countOf m.2)).map fun entry =>
    (entry.1, entry.2.getD Count.zero))).entries = _
  rw [hpairs, CountMap.entries_addAll]
  · show ([] : List (String × Number.Double)) ++ _ = _
    rw [List.nil_append, List.map_map]
    rfl
  · show (([] ++ _ : List (String × Number.Double)).map Prod.fst).Nodup
    rw [List.nil_append, List.map_map]
    exact hlabels

end Members

/-! ### Categories of the charts -/

/-- The fields of a document of charts. -/
def chartFields : List String :=
  ["traffic", "domains", "countries", "protos"]

/-- The categories of the charts. -/
inductive CategoryPlace where
  | domains
  | countries
  | companies
  | protos

namespace CategoryPlace

/-- The chart whose samples have the category. -/
def chart : CategoryPlace → String
  | .domains => "domains"
  | .countries => "countries"
  | .companies => "countries"
  | .protos => "protos"

/-- The fields of the samples of the chart. -/
def sampleFields : CategoryPlace → List String
  | .domains => ["bucket", "domains", "req_count"]
  | .countries => ["bucket", "countries", "companies", "req_count"]
  | .companies => ["bucket", "countries", "companies", "req_count"]
  | .protos => ["bucket", "protos", "req_count"]

/-- The field of the category. -/
def field : CategoryPlace → String
  | .domains => "domains"
  | .countries => "countries"
  | .companies => "companies"
  | .protos => "protos"

/-- The category of a sample that is read from a document. -/
def ofSample : CategoryPlace → Json → Option (CategoryField Number.Double)
  | .domains, document => (DomainSample.ofJson? document).map DomainSample.domains
  | .countries, document => (CountrySample.ofJson? document).map CountrySample.countries
  | .companies, document => (CountrySample.ofJson? document).map CountrySample.companies
  | .protos, document => (ProtoSample.ofJson? document).map ProtoSample.protos

/-- The items of the chart, with the categories of their samples. -/
def items (charts : Charts Number.Double) :
    CategoryPlace → List (DeviceItem (List (CategoryField Number.Double)))
  | .domains => charts.domains.map (.mapStats (List.map DomainSample.domains))
  | .countries => charts.countries.map (.mapStats (List.map CountrySample.countries))
  | .companies => charts.countries.map (.mapStats (List.map CountrySample.companies))
  | .protos => charts.protos.map (.mapStats (List.map ProtoSample.protos))

/-- What an element of the list of the chart is read as. -/
def readElement (place : CategoryPlace) (element : Json) :
    Option (DeviceItem (List (CategoryField Number.Double))) :=
  element.canonical.bind (DeviceItem.ofJson? (asList place.ofSample) [])

/-- **The items of a chart are what the elements of its list are read as.** -/
theorem items_ofJson? (place : CategoryPlace) {document : Json} {elements : List Json}
    {charts : Charts Number.Double}
    (hlist : fieldOf? chartFields place.chart document = some (.array elements))
    (hcharts : Charts.ofJson? document = some charts) :
    place.items charts = elements.filterMap place.readElement := by
  unfold Charts.ofJson? at hcharts
  simp only [Option.bind_eq_bind, Option.bind_eq_some_iff] at hcharts
  obtain ⟨fields, hfields, hcharts⟩ := hcharts
  have hplace : fields[chartFields.idxOf place.chart]? =
      some (fieldOf? chartFields place.chart document) :=
    record_fieldOf? hfields (by cases place <;> decide)
  rw [hlist] at hplace
  split at hcharts
  next traffic domains countries protos =>
    simp only [Option.bind_eq_some_iff] at hcharts
    obtain ⟨_, -, _, hdomains, _, hcountries, _, hprotos, heq⟩ := hcharts
    obtain rfl := Option.some.inj heq
    cases place with
    | domains =>
      obtain rfl := Option.some.inj hplace
      exact map_items_of_chartField hdomains
    | countries | companies =>
      obtain rfl := Option.some.inj hplace
      exact map_items_of_chartField hcountries
    | protos =>
      obtain rfl := Option.some.inj hplace
      exact map_items_of_chartField hprotos
  next => simp at hcharts

/-- The category of a sample is that of its field. -/
theorem category_ofSample (place : CategoryPlace) {sample : Json} {c : CategoryField Number.Double}
    (h : place.ofSample sample = some c) :
    Json.field CategoryField.ofJson? .missing (fieldOf? place.sampleFields place.field sample) =
      some c := by
  have hplace : ∀ fields, record place.sampleFields sample = some fields →
      fields[place.sampleFields.idxOf place.field]? =
        some (fieldOf? place.sampleFields place.field sample) :=
    fun fields hfields => record_fieldOf? hfields (by cases place <;> decide)
  cases place with
  | domains | protos =>
    simp only [ofSample, DomainSample.ofJson?, ProtoSample.ofJson?, Option.bind_eq_bind,
      Option.map_eq_some_iff, Option.bind_eq_some_iff] at h
    obtain ⟨s, ⟨fields, hfields, hs⟩, rfl⟩ := h
    have hcategory := hplace fields hfields
    split at hs
    next time category requests =>
      simp only [Option.bind_eq_some_iff] at hs
      obtain ⟨t, -, read, hread, r, -, heq⟩ := hs
      obtain rfl := Option.some.inj heq
      rw [← Option.some.inj hcategory]
      exact hread
    next => simp at hs
  | countries | companies =>
    simp only [ofSample, CountrySample.ofJson?, Option.bind_eq_bind, Option.map_eq_some_iff,
      Option.bind_eq_some_iff] at h
    obtain ⟨s, ⟨fields, hfields, hs⟩, rfl⟩ := h
    have hcategory := hplace fields hfields
    split at hs
    next time countries companies requests =>
      simp only [Option.bind_eq_some_iff] at hs
      obtain ⟨t, -, readCountries, hcountries, readCompanies, hcompanies, r, -, heq⟩ := hs
      obtain rfl := Option.some.inj heq
      rw [← Option.some.inj hcategory]
      -- The place of the category tells which of the two fields it is.
      first
        | exact hcountries
        | exact hcompanies
    next => simp at hs

/-- **The category of a sample in the data of an element.** It is read from the generic value of
what the sample carries. -/
theorem stats_readElement (place : CategoryPlace) {element sample carried w : Json}
    {samples : List Json} {item : DeviceItem (List (CategoryField Number.Double))} {j : Nat}
    {c : CategoryField Number.Double} (hitem : place.readElement element = some item)
    (hstats : fieldOf? itemFields "stats" element = some (.array samples))
    (hsample : samples[j]? = some sample)
    (hcarried : fieldOf? place.sampleFields place.field sample = some carried)
    (hw : carried.canonical = some w) (hc : item.stats[j]? = some c) :
    CategoryField.ofJson? w = some c := by
  obtain ⟨g, hg, hitem⟩ := Option.bind_eq_some_iff.mp hitem
  rw [stats_of_generic hg hitem hstats] at hc
  cases hcanonical : (Json.array samples).canonical with
  | none =>
    rw [hcanonical] at hc
    simp at hc
  | some generic =>
    obtain ⟨gs, hgs, rfl⟩ := Option.map_eq_some_iff.mp hcanonical
    rw [hcanonical, Option.bind_some] at hc
    cases hread : asList place.ofSample (.array gs) with
    | none =>
      rw [hread] at hc
      simp at hc
    | some categories =>
      -- Every sample was read, so what is read from this one stands at its place.
      rw [hread, Option.getD_some, getElem?_of_forall₂ (forall₂_of_mapM hread),
        getElem?_of_forall₂ (forall₂_canonicalItems hgs), hsample, Option.bind_some,
        Option.bind_eq_some_iff] at hc
      obtain ⟨g', hg', hc⟩ := hc
      have hread := place.category_ofSample hc
      rw [fieldOf?_canonical hg', hcarried, Option.bind_some, hw] at hread
      exact hread

end CategoryPlace

/-! ### Ways through a generic value -/

/-- The ways in which a document carries a category: in a sample of a chart, or as the data of an
item of a table, which skips or refuses the elements that are no items. -/
inductive Carrier where
  | chart (place : CategoryPlace)
  | table
  | strictTable

/-- A category is read where a document carries a value. The document may have anything else in it,
as long as it can be read. -/
inductive Carrier.Reads (carried : Json) (c : CategoryField Number.Double) : Carrier → Prop where
  | chart {place : CategoryPlace} {document element sample : Json} {elements samples : List Json}
      {charts : Charts Number.Double} {item : DeviceItem (List (CategoryField Number.Double))}
      {j : Nat} (hlist : fieldOf? chartFields place.chart document = some (.array elements))
      (hcharts : Charts.ofJson? document = some charts) (helement : element ∈ elements)
      (hitem : place.readElement element = some item) (hthere : item ∈ place.items charts)
      (hstats : fieldOf? itemFields "stats" element = some (.array samples))
      (hsample : samples[j]? = some sample)
      (hcarried : fieldOf? place.sampleFields place.field sample = some carried)
      (hc : item.stats[j]? = some c) : Reads carried c (.chart place)
  | table {elements : List Json} {generic element : Json}
      {item : DeviceItem (CategoryField Number.Double)}
      (hgeneric : (Json.array elements).canonical = some generic) (helement : element ∈ elements)
      (hitem : element.canonical.bind categoryItem? = some item)
      (hthere : item ∈ categoryTable generic)
      (hcarried : fieldOf? itemFields "stats" element = some carried) (hc : item.stats = c) :
      Reads carried c .table
  | strictTable {elements : List Json} {element : Json}
      {items : List (DeviceItem (CategoryField Number.Double))}
      {item : DeviceItem (CategoryField Number.Double)}
      (hitems : asList categoryItem? (.array elements) = some items) (helement : element ∈ elements)
      (hitem : categoryItem? element = some item) (hthere : item ∈ items)
      (hcarried : fieldOf? itemFields "stats" element = some carried) (hc : item.stats = c) :
      Reads carried c .strictTable

section Carried

variable {members : List (String × Json)}

/-- Sorting the members of an object leaves their labels distinct and their values counts. -/
theorem ofJson?_sortMembers (hcounts : ∀ m ∈ members, IsCount m.2) :
    CategoryField.ofJson? (.object (sortMembers members)) =
      some (countsField (sortMembers members)) :=
  ofJson?_of_counts (ascending_sortMembers members).nodup fun m hm =>
    hcounts m (mem_of_mem_sortMembers members hm)

/-- Whichever way it goes, a category is read from the generic value of what is carried. -/
theorem Carrier.Reads.eq {carrier : Carrier} {c : CategoryField Number.Double}
    (hcounts : ∀ m ∈ members, IsCount m.2) (h : carrier.Reads (.object members) c) :
    c = countsField (sortMembers members) := by
  have hgeneric := canonical_of_counts hcounts
  have hsorted := ofJson?_sortMembers hcounts
  cases h with
  | chart _ _ _ hitem _ hstats hsample hcarried hc =>
    have hread := CategoryPlace.stats_readElement _ hitem hstats hsample hcarried hgeneric hc
    exact Option.some.inj (hread.symm.trans hsorted)
  | table _ _ hitem _ hcarried hc =>
    obtain ⟨g, hg, hitem⟩ := Option.bind_eq_some_iff.mp hitem
    rw [← hc, stats_of_generic hg hitem hcarried, hgeneric, Option.bind_some, hsorted]
    rfl
  | strictTable _ _ hitem _ hcarried hc =>
    rw [← hc, stats_of_carried hitem hcarried, hgeneric, Option.bind_some, hsorted]
    rfl

end Carried

/-! ### Documents with nothing but a category -/

/-- An item without a device. -/
def bareItem (stats : Json) : Json :=
  .object [("stats", stats)]

/-- What an item without a device is read as. -/
theorem ofJson?_bareItem {β : Type} {decode : Json → Option β} (default : β) {b : β}
    {stats g : Json} (hg : stats.canonical = some g) (hb : decode g = some b) :
    DeviceItem.ofJson? decode default (bareItem stats) = some ⟨.ofMac "", b⟩ := by
  show ((lenient decode default (some stats)).bind fun stats =>
    some (DeviceItem.mk (.ofMac "") stats)) = some ⟨.ofMac "", b⟩
  simp only [lenient, hg, Option.map_some, hb, Option.getD_some, Option.bind_some]

namespace CategoryPlace

/-- A sample without anything but the category. -/
def bareSample (place : CategoryPlace) (carried : Json) : Json :=
  .object [(place.field, carried)]

/-- The category of a sample without anything else. -/
theorem ofSample_bareSample (place : CategoryPlace) {carried : Json}
    {c : CategoryField Number.Double} (h : CategoryField.ofJson? carried = some c) :
    place.ofSample (place.bareSample carried) = some c := by
  have hread : Json.field CategoryField.ofJson? .missing (some carried) = some c := h
  cases place with
  | domains =>
    show ((Json.field CategoryField.ofJson? .missing (some carried)).bind fun domains =>
      some (DomainSample.mk 0 domains none)).map DomainSample.domains = some c
    rw [hread]
    rfl
  | countries =>
    show ((Json.field CategoryField.ofJson? .missing (some carried)).bind fun countries =>
      some (CountrySample.mk 0 countries .missing none)).map CountrySample.countries = some c
    rw [hread]
    rfl
  | companies =>
    show ((Json.field CategoryField.ofJson? .missing (some carried)).bind fun companies =>
      some (CountrySample.mk 0 .missing companies none)).map CountrySample.companies = some c
    rw [hread]
    rfl
  | protos =>
    show ((Json.field CategoryField.ofJson? .missing (some carried)).bind fun protos =>
      some (ProtoSample.mk 0 protos none)).map ProtoSample.protos = some c
    rw [hread]
    rfl

/-- An element of the list of the chart with one sample. -/
def bareElement (place : CategoryPlace) (carried : Json) : Json :=
  bareItem (.array [place.bareSample carried])

/-- The generic reading of an element with one sample. -/
theorem canonical_bareElement (place : CategoryPlace) {carried w : Json}
    (hw : carried.canonical = some w) :
    (place.bareElement carried).canonical = some (place.bareElement w) :=
  canonical_object_single _ (canonical_array_single (canonical_object_single _ hw))

/-- What an element with one sample is read as. -/
theorem readElement_bareElement (place : CategoryPlace) {carried w : Json}
    {c : CategoryField Number.Double} (hw : carried.canonical = some w)
    (hc : CategoryField.ofJson? w = some c) :
    place.readElement (place.bareElement carried) = some ⟨.ofMac "", [c]⟩ := by
  have hsamples := canonical_array_single (canonical_object_single place.field
    (canonical_canonical hw))
  unfold readElement
  rw [place.canonical_bareElement hw, Option.bind_some]
  refine ofJson?_bareItem [] hsamples ?_
  show [place.bareSample w].mapM place.ofSample = some [c]
  rw [List.mapM_cons, place.ofSample_bareSample hc]
  rfl

/-- A document of charts with one list. -/
def bareDocument (place : CategoryPlace) (list : Json) : Json :=
  .object [(place.chart, list)]

/-- A document of charts with one list can be read if the list can. -/
theorem exists_charts (place : CategoryPlace) {list g : Json} (hg : list.canonical = some g) :
    ∃ charts, Charts.ofJson? (place.bareDocument list) = some charts := by
  cases place with
  | domains =>
    refine ⟨⟨[], domainChart g, [], []⟩, ?_⟩
    show ((list.canonical.map domainChart).bind fun domains =>
      some (Charts.mk [] domains [] [])) = _
    rw [hg]
    rfl
  | countries | companies =>
    refine ⟨⟨[], [], countryChart g, []⟩, ?_⟩
    show ((list.canonical.map countryChart).bind fun countries =>
      some (Charts.mk [] [] countries [])) = _
    rw [hg]
    rfl
  | protos =>
    refine ⟨⟨[], [], [], protoChart g⟩, ?_⟩
    show ((list.canonical.map protoChart).bind fun protos =>
      some (Charts.mk [] [] [] protos)) = _
    rw [hg]
    rfl

end CategoryPlace

/-- **Each way can be gone.** There is a document that carries the object and can be read. -/
theorem Carrier.reads_countsField {members : List (String × Json)}
    (hcounts : ∀ m ∈ members, IsCount m.2) (carrier : Carrier) :
    carrier.Reads (.object members) (countsField (sortMembers members)) := by
  have hgeneric := canonical_of_counts hcounts
  have hsorted := ofJson?_sortMembers hcounts
  cases carrier with
  | chart place =>
    have hitem := place.readElement_bareElement hgeneric hsorted
    obtain ⟨charts, hcharts⟩ :=
      place.exists_charts (canonical_array_single (place.canonical_bareElement hgeneric))
    have hlist : fieldOf? chartFields place.chart (place.bareDocument (.array
        [place.bareElement (.object members)])) =
        some (.array [place.bareElement (.object members)]) := fieldOf?_single _ _ _
    refine .chart hlist hcharts List.mem_cons_self hitem ?_ (fieldOf?_single _ _ _)
      (show [place.bareSample (.object members)][0]? = some _ from rfl) (fieldOf?_single _ _ _) rfl
    rw [place.items_ofJson? hlist hcharts, List.filterMap_cons, hitem]
    exact List.mem_cons_self
  | table =>
    have hread := ofJson?_bareItem .missing (canonical_canonical hgeneric) hsorted
    have helement : (bareItem (.object members)).canonical =
        some (bareItem (.object (sortMembers members))) := canonical_object_single _ hgeneric
    have hitem : (bareItem (.object members)).canonical.bind categoryItem? =
        some ⟨.ofMac "", countsField (sortMembers members)⟩ := by
      rw [helement]
      exact hread
    refine .table (canonical_array_single helement) List.mem_cons_self hitem ?_
      (fieldOf?_single _ _ _) rfl
    show _ ∈ [bareItem (.object (sortMembers members))].filterMap _
    rw [List.filterMap_cons, hread]
    exact List.mem_cons_self
  | strictTable =>
    have hread : categoryItem? (bareItem (.object members)) =
        some ⟨.ofMac "", countsField (sortMembers members)⟩ := by
      unfold categoryItem?
      exact ofJson?_bareItem .missing hgeneric hsorted
    have hitems : asList categoryItem? (.array [bareItem (.object members)]) =
        some [⟨.ofMac "", countsField (sortMembers members)⟩] := by
      show [bareItem (.object members)].mapM categoryItem? = _
      rw [List.mapM_cons, hread]
      rfl
    exact .strictTable hitems List.mem_cons_self hread List.mem_cons_self (fieldOf?_single _ _ _)
      rfl

/-! ### The order of the labels -/

/-- The counts of an object that has passed through its generic value are the same, by label. -/
theorem perm_toCounts_sortMembers {members : List (String × Json)}
    (hlabels : (members.map Prod.fst).Nodup) :
    (countsField (sortMembers members)).toCounts.entries.Perm
      (countsField members).toCounts.entries := by
  rw [entries_toCounts hlabels, entries_toCounts (ascending_sortMembers members).nodup]
  exact (perm_sortMembers hlabels).map _

/-- They are the same in the same order just if the labels were in order before. -/
theorem toCounts_sortMembers_eq_iff {members : List (String × Json)}
    (hlabels : (members.map Prod.fst).Nodup) :
    (countsField (sortMembers members)).toCounts = (countsField members).toCounts ↔
      Ascending members := by
  constructor
  · intro heq
    -- Equal counts have equal labels, and after sorting those are in order.
    have hfirsts := congrArg (fun m => m.entries.map Prod.fst) heq
    simp only [entries_toCounts hlabels, entries_toCounts (ascending_sortMembers members).nodup,
      List.map_map] at hfirsts
    have hnames : (sortMembers members).map Prod.fst = members.map Prod.fst := hfirsts
    have hsorted : ((sortMembers members).map Prod.fst).Pairwise (· < ·) :=
      List.pairwise_map.mpr (ascending_sortMembers members)
    rw [hnames] at hsorted
    exact List.pairwise_map.mp hsorted
  · intro hascending
    rw [sortMembers_of_ascending hascending]

/-- **A category that goes through a generic value has its labels sorted.** Take an object of
distinct labels whose values are null or numbers. Read from a text it has the counts of the labels
in the order of the text. Wherever a document of charts or a table carries it, and whatever else is
there, it is read with the same counts, but with the labels in the order of their code points. The
two are the same just if the labels were in that order on the way. -/
theorem labels_sorted_by_generic_reading (members : List (String × Json))
    (hlabels : (members.map Prod.fst).Nodup) (hcounts : ∀ m ∈ members, IsCount m.2) :
    ∃ direct generic : CategoryField Number.Double,
      CategoryField.ofJson? (.object members) = some direct ∧
      direct.toCounts.labels = members.map Prod.fst ∧
      (∀ (carrier : Carrier) (c : CategoryField Number.Double),
        carrier.Reads (.object members) c ↔ c = generic) ∧
      generic.toCounts.entries.Perm direct.toCounts.entries ∧
      generic.toCounts.labels.Pairwise (· < ·) ∧
      (generic.toCounts = direct.toCounts ↔ (members.map Prod.fst).Pairwise (· < ·)) := by
  refine ⟨countsField members, countsField (sortMembers members),
    ofJson?_of_counts hlabels hcounts, ?_, fun carrier c => ?_, perm_toCounts_sortMembers hlabels,
    ?_, ?_⟩
  · unfold CountMap.labels
    rw [entries_toCounts hlabels, List.map_map]
    rfl
  · constructor
    · exact Carrier.Reads.eq hcounts
    · rintro rfl
      exact Carrier.reads_countsField hcounts carrier
  · unfold CountMap.labels
    rw [entries_toCounts (ascending_sortMembers members).nodup, List.map_map]
    exact List.pairwise_map.mpr (ascending_sortMembers members)
  · rw [toCounts_sortMembers_eq_iff hlabels, List.pairwise_map]
    rfl

/-- Of two labels in the wrong order, the greater one ranks first in a text. -/
theorem labels_sorted_by_generic_reading_descending :
    let members : List (String × Json) := [("z", .ofInt 1), ("a", .ofInt 1)]
    ((members.map Prod.fst).Nodup ∧ ∀ m ∈ members, IsCount m.2) ∧
    ∃ direct generic : CategoryField Number.Double,
      CategoryField.ofJson? (.object members) = some direct ∧
      (∀ carrier : Carrier, carrier.Reads (.object members) generic) ∧
      generic.toCounts ≠ direct.toCounts := by
  intro members
  have hlabels : (members.map Prod.fst).Nodup := by decide
  have hcounts : ∀ m ∈ members, IsCount m.2 := by
    simp [members, IsCount, ofInt]
  obtain ⟨direct, generic, hdirect, -, hgeneric, -, -, hsame⟩ :=
    labels_sorted_by_generic_reading members hlabels hcounts
  refine ⟨⟨hlabels, hcounts⟩, direct, generic, hdirect,
    fun carrier => (hgeneric carrier generic).mpr rfl, fun heq => ?_⟩
  exact absurd (hsame.mp heq) (by decide)

/-- A chart has the labels of a sample in another order than its document. -/
theorem chart_reorders_labels :
    let category : Json := .object [("z", .ofInt 1), ("a", .ofInt 1)]
    let document : Json := .object [("domains", .array [.object
      [("stats", .array [.object [("domains", category)]])]])]
    (CategoryField.ofJson? category).map (fun c => c.toCounts.labels) = some ["z", "a"] ∧
    (Charts.ofJson? document).map (fun charts => charts.domains.map fun item =>
      item.stats.map fun sample => sample.domains.toCounts.labels) = some [[["a", "z"]]] := by
  intro category document
  exact ⟨rfl, rfl⟩

end TrafficBoard
