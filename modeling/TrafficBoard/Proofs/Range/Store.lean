import Mathlib
import TrafficBoard.Proofs.Files.Tree
import TrafficBoard.Proofs.Json.RoundTrip
import TrafficBoard.Range.Store

namespace TrafficBoard

/-!
# Stored selections — what is saved is loaded

* `Selection.Storable` says which selections a document can hold: the version and the bounds are
  words;
* `Selection.parse?_render` reads the text of a storable selection back, and
  `Selection.storable_of_ofJson?` says that every selection that can be read is storable;
* `Selection.read_writeVia` says that a text that is written through a draft is read under the path
  that it was written for, `Selection.load?_save_eq` what is loaded after a selection has been
  saved;
* `Selection.stored_and_loaded` puts the two together.
-/

/-- A field that is there is read. -/
theorem Json.field_some {α : Type} (decode : Json → Option α) (default : α) (v : Json) :
    Json.field decode default (some v) = decode v :=
  rfl

/-- A field has its default or a value that can be read. -/
theorem Json.field_cases {α : Type} {decode : Json → Option α} {default a : α} {v : Option Json}
    (h : Json.field decode default v = some a) : a = default ∨ ∃ w, decode w = some a := by
  cases v with
  | none => exact .inl (Option.some.inj h).symm
  | some v => exact .inr ⟨v, h⟩

namespace Selection

/-- A selection that a document can hold. -/
structure Storable (s : Selection) : Prop where
  version : s.version < versionLimit
  absoluteFrom : ∀ n ∈ s.absoluteFrom, Number.InWord n
  absoluteTo : ∀ n ∈ s.absoluteTo, Number.InWord n

/-- The standard selection can be stored, with any preset. -/
theorem storable_standard (p : Preset) : Storable { standard with preset := p } :=
  ⟨by show currentVersion < versionLimit; decide, by rintro _ ⟨⟩, by rintro _ ⟨⟩⟩

/-! ### Documents -/

/-- A natural number below a limit is read back. -/
theorem asSize_ofInt {limit n : Nat} (h : n < limit) : Json.asSize limit (.ofInt n) = some n := by
  have hbounds : 0 ≤ (n : Int) ∧ (n : Int) < limit := ⟨Int.natCast_nonneg _, Int.ofNat_lt.2 h⟩
  rw [Json.ofInt, Json.asSize, if_pos hbounds, Int.toNat_natCast]

/-- A bound that may be missing is read back. -/
theorem orNull_ofOption {bound : Option Int} (h : ∀ n ∈ bound, Number.InWord n) :
    Json.orNull Json.asWhole (Json.ofOption Json.ofInt bound) = some bound := by
  cases bound with
  | none => rfl
  | some n =>
    have hword : Number.word? n = some n := Number.word?_eq_some_iff.2 ⟨h n rfl, rfl⟩
    show (Number.word? n).map some = some (some n)
    rw [hword]
    rfl

/-- **The document of a selection is read as the selection.** -/
theorem ofJson?_toJson {s : Selection} (h : s.Storable) : ofJson? s.toJson = some s := by
  have hrecord : Json.record fieldNames s.toJson =
      some [some (.ofInt s.version), some (.text s.preset.label), some (.text s.mode.label),
        some (.text s.fromExpr), some (.text s.toExpr),
        some (.ofOption .ofInt s.absoluteFrom), some (.ofOption .ofInt s.absoluteTo)] := by
    simp [Json.record, fieldNames, toJson, Json.soleValue?, Json.valuesOf]
  rw [ofJson?, hrecord, Option.bind_eq_bind, Option.bind_some]
  dsimp only
  -- The bound on the version is too large a number to be computed with, so it is rewritten only.
  rw [Json.field_some, asSize_ofInt h.version, Option.bind_eq_bind, Option.bind_some]
  show (Preset.ofLabel? s.preset.label).bind _ = _
  rw [Preset.ofLabel?_label]
  show (RangeMode.ofLabel? s.mode.label).bind _ = _
  rw [RangeMode.ofLabel?_label]
  show (Json.orNull Json.asWhole (.ofOption .ofInt s.absoluteFrom)).bind _ = _
  rw [orNull_ofOption h.absoluteFrom]
  show (Json.orNull Json.asWhole (.ofOption .ofInt s.absoluteTo)).bind _ = _
  rw [orNull_ofOption h.absoluteTo]
  rfl

/-- Every part of the document of a storable selection can be read back. -/
theorem readable_toJson {s : Selection} (h : s.Storable) : Json.Readable 1 s.toJson := by
  have hword {n : Int} (hn : Number.InWord n) : (Json.Num.whole n).Fits := by
    obtain ⟨hlow, hhigh⟩ := hn
    have hmin : Number.wordMin = -(Number.Double.signBit : Int) := by decide
    have hmax : Number.wordMax < (Number.sizeLimit : Int) := by decide
    exact ⟨hmin ▸ hlow, hhigh.trans_lt hmax⟩
  have hbound {bound : Option Int} (hb : ∀ n ∈ bound, Number.InWord n) :
      Json.Readable 2 (Json.ofOption Json.ofInt bound) := by
    cases bound with
    | none => exact .null 2
    | some n => exact .number 2 (hword (hb n rfl))
  have hversion : (Json.Num.whole s.version).Fits := by
    have hlimit : versionLimit ≤ Number.sizeLimit := by decide
    exact ⟨(Int.neg_nonpos_of_nonneg (Int.natCast_nonneg _)).trans (Int.natCast_nonneg _),
      Int.ofNat_lt.2 (h.version.trans_le hlimit)⟩
  refine .object (by decide) ?_
  intro m hm
  simp only [List.mem_cons, List.not_mem_nil, or_false] at hm
  rcases hm with rfl | rfl | rfl | rfl | rfl | rfl | rfl
  · exact .number 2 hversion
  · exact .text 2 _
  · exact .text 2 _
  · exact .text 2 _
  · exact .text 2 _
  · exact hbound h.absoluteFrom
  · exact hbound h.absoluteTo

/-- **The text of a storable selection is read as the selection.** -/
theorem parse?_render {s : Selection} (h : s.Storable) : parse? s.render = some s := by
  rw [parse?, render, Json.parse?_render (readable_toJson h), Option.bind_some, ofJson?_toJson h]

/-- A selection that can be read is storable. -/
theorem storable_of_ofJson? {document : Json} {s : Selection} (h : ofJson? document = some s) :
    s.Storable := by
  have hsize {v : Json} {n : Nat} (hv : Json.asSize versionLimit v = some n) :
      n < versionLimit := by
    unfold Json.asSize at hv
    split at hv
    · split at hv
      · rename_i hbounds
        rw [← Option.some.inj hv]
        omega
      · cases hv
    · cases hv
  have hbound {v : Json} {bound : Option Int} (hv : Json.orNull Json.asWhole v = some bound) :
      ∀ n ∈ bound, Number.InWord n := by
    rintro n rfl
    unfold Json.orNull at hv
    split at hv
    · cases hv
    · obtain ⟨m, hm, hsome⟩ := Option.map_eq_some_iff.1 hv
      obtain rfl := Option.some.inj hsome
      unfold Json.asWhole at hm
      split at hm
      · exact (Number.word?_eq_some_iff.1 hm).2 ▸ (Number.word?_eq_some_iff.1 hm).1
      · cases hm
  unfold ofJson? at h
  obtain ⟨fields, -, h⟩ := Option.bind_eq_some_iff.1 h
  split at h
  · obtain ⟨version, hversion, h⟩ := Option.bind_eq_some_iff.1 h
    obtain ⟨preset, -, h⟩ := Option.bind_eq_some_iff.1 h
    obtain ⟨mode, -, h⟩ := Option.bind_eq_some_iff.1 h
    obtain ⟨fromExpr, -, h⟩ := Option.bind_eq_some_iff.1 h
    obtain ⟨toExpr, -, h⟩ := Option.bind_eq_some_iff.1 h
    obtain ⟨absoluteFrom, hfrom, h⟩ := Option.bind_eq_some_iff.1 h
    obtain ⟨absoluteTo, hto, h⟩ := Option.bind_eq_some_iff.1 h
    cases h
    refine ⟨?_, ?_, ?_⟩
    · rcases Json.field_cases hversion with rfl | ⟨v, hv⟩
      · exact (storable_standard .lastHour).version
      · exact hsize hv
    · rcases Json.field_cases hfrom with rfl | ⟨v, hv⟩
      · rintro _ ⟨⟩
      · exact hbound hv
    · rcases Json.field_cases hto with rfl | ⟨v, hv⟩
      · rintro _ ⟨⟩
      · exact hbound hv
  · cases h

/-- A selection that a file keeps is storable, and has the current version. -/
theorem storable_of_load? {path : Path} {tree : FileTree} {s : Selection}
    (h : load? path tree = some s) : s.Storable ∧ s.version = currentVersion := by
  unfold load? at h
  split at h
  · obtain ⟨hparse, hversion⟩ := Option.filter_eq_some_iff.1 h
    obtain ⟨document, -, hdecode⟩ := Option.bind_eq_some_iff.1 hparse
    exact ⟨storable_of_ofJson? hdecode, of_decide_eq_true hversion⟩
  · cases h

/-! ### Files -/

section Files

variable {path : Path} {tree after : FileTree}

/-- **A text that is written through a draft** is what is read under the path afterwards. -/
theorem read_writeVia {text : String} (h : writeVia path text tree = (.ok (), after)) :
    after.read path = .ok text := by
  unfold writeVia at h
  split at h
  · cases h
  · split at h
    · cases h
    · split at h
      · cases h
      · rename_i draft _ written hwrite
        split at h
        · cases h
        · rename_i replaced hreplace
          cases h
          unfold replace at hreplace
          split at hreplace
          · cases hreplace
          · rename_i place hlocate
            cases hname : path.namesDirectory with
            | true => simp [hname] at hreplace
            | false =>
              rw [hname, if_neg Bool.false_ne_true] at hreplace
              exact FileTree.read_rename (FileTree.entry?_write hwrite) hlocate hname hreplace

/-- The text of a selection that is saved is read under its path. -/
theorem read_save {s : Selection} (h : s.save path tree = (.ok (), after)) :
    after.read path = .ok s.render := by
  have hwritten : writeVia path s.render tree = (.ok (), after) := by
    unfold save at h
    split at h
    · rename_i hwrite
      rw [hwrite]
      cases h
      rfl
    · cases h
  exact read_writeVia hwritten

/-- **After a selection has been saved** it is loaded, if it has the current version; of another
version nothing is loaded. -/
theorem load?_save_eq {s : Selection} (hs : s.Storable)
    (h : s.save path tree = (.ok (), after)) :
    load? path after = if s.version = currentVersion then some s else none := by
  rw [load?, read_save h]
  show (parse? s.render).filter _ = _
  rw [parse?_render hs, Option.filter_some]
  simp only [decide_eq_true_eq]

/-- A selection of the current version that is saved is loaded. -/
theorem load?_save {s : Selection} (hs : s.Storable) (hversion : s.version = currentVersion)
    (h : s.save path tree = (.ok (), after)) : load? path after = some s := by
  rw [load?_save_eq hs h, if_pos hversion]

end Files

/-- **What is stored of a selection is the selection.** Whatever its expressions, its bounds and its
version, its text is read back as the selection. So once it has been saved, its text is what the
file holds, and it is loaded if it has the current version and not otherwise. -/
theorem stored_and_loaded {s : Selection} (hs : s.Storable) :
    parse? s.render = some s ∧
      ∀ path tree after, s.save path tree = (.ok (), after) →
        after.read path = .ok s.render ∧
          load? path after = if s.version = currentVersion then some s else none :=
  ⟨parse?_render hs, fun _ _ _ h => ⟨read_save h, load?_save_eq hs h⟩⟩

/-- Quotes, backslashes, control characters and characters of any plane are stored, with the least
and the greatest bound; of the greatest version nothing is loaded. -/
theorem stored_and_loaded_of_any_text :
    let s : Selection :=
      { version := 1, preset := .last7Days, mode := .absolute,
        fromExpr := "now-\"1\\h\"\n\x01\x00", toExpr := "😀 é \x7f",
        absoluteFrom := some Number.wordMin, absoluteTo := some Number.wordMax }
    let foreign : Selection := { s with version := 4294967295, absoluteTo := none }
    let holding (s : Selection) : FileTree := ⟨[(["state.json"], .file (.text s.render))]⟩
    s.Storable ∧ s.save ⟨"state.json"⟩ .empty = (.ok (), holding s) ∧
      parse? s.render = some s ∧ load? ⟨"state.json"⟩ (holding s) = some s ∧
      foreign.Storable ∧ foreign.save ⟨"state.json"⟩ (holding s) = (.ok (), holding foreign) ∧
      parse? foreign.render = some foreign ∧ load? ⟨"state.json"⟩ (holding foreign) = none := by
  intro s foreign holding
  have hs : s.Storable := by
    refine ⟨by show 1 < versionLimit; decide, ?_, ?_⟩
    · rintro n ⟨⟩
      decide
    · rintro n ⟨⟩
      decide
  have hforeign : foreign.Storable :=
    ⟨by show 4294967295 < versionLimit; decide, hs.absoluteFrom, by rintro n ⟨⟩⟩
  have hnew : s.save ⟨"state.json"⟩ .empty = (.ok (), holding s) := by
    have hwrite (text : String) : writeVia ⟨"state.json"⟩ text .empty =
        (.ok (), ⟨[(["state.json"], .file (.text text))]⟩) := rfl
    simp only [save, hwrite, holding]
  have hold : foreign.save ⟨"state.json"⟩ (holding s) = (.ok (), holding foreign) := by
    have hwrite (text old : String) :
        writeVia ⟨"state.json"⟩ text ⟨[(["state.json"], .file (.text old))]⟩ =
          (.ok (), ⟨[(["state.json"], .file (.text text))]⟩) := rfl
    simp only [save, hwrite, holding]
  obtain ⟨hparse, hload⟩ := stored_and_loaded hs
  obtain ⟨hparse', hload'⟩ := stored_and_loaded hforeign
  exact ⟨hs, hnew, hparse, (hload _ _ _ hnew).2, hforeign, hold, hparse', (hload' _ _ _ hold).2⟩

end Selection

end TrafficBoard
