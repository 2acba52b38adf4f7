import Mathlib
import TrafficBoard.Command.Run
import TrafficBoard.Proofs.Range.Restart
import TrafficBoard.Proofs.Range.Store

namespace TrafficBoard

/-!
# The file of the kept selection — what a rendering leaves in it, and what the next one makes of it

* `Controller.storable_ofSelection` and `storable_apply` say that the selection of a controller can
  be stored as long as the bounds that it is given are words;
* `Command.load?_keep` says what a file holds once a selection has been kept in it;
* `Command.UnderWay` says that a rendering reads its configuration and finds its capture directory,
  `Command.chosen` is the controller that it goes on with;
* `Command.state_file_consistent` is about two renderings after one another.

What a rendering fails with after its selection has been kept makes no difference to the file, so
nothing is assumed about the captured documents.
-/

/-! ### Selections of controllers -/

namespace Controller

/-- The bounds of a request are words. -/
def Operation.InWords : Operation → Prop
  | .absolute fromMs toMs => Number.InWord fromMs ∧ Number.InWord toMs
  | _ => True

section Storable

variable {s : Selection} (hs : s.Storable)

include hs

/-- What a request notes can be stored. -/
theorem Operation.storable_note (op : Operation) : (op.note s).Storable := by
  cases op with
  | expressions fromExpr toExpr => exact ⟨hs.version, hs.absoluteFrom, hs.absoluteTo⟩
  | _ => exact hs

/-- What a request stores can be stored, if its bounds are words. -/
theorem Operation.storable_store {op : Operation} (hop : op.InWords) : (op.store s).Storable := by
  cases op with
  | absolute fromMs toMs =>
    refine ⟨hs.version, ?_, ?_⟩
    · rintro _ ⟨⟩
      exact hop.1
    · rintro _ ⟨⟩
      exact hop.2
  | refresh => exact hs
  | _ => exact ⟨hs.version, hs.absoluteFrom, hs.absoluteTo⟩

/-- Repeating a storable selection is a request with words. -/
theorem inWords_replay : (replay s).InWords := by
  unfold replay
  split
  · rename_i hfrom hto
    exact ⟨hs.absoluteFrom _ hfrom, hs.absoluteTo _ hto⟩
  · trivial
  · trivial

end Storable

/-- **A request** leaves a selection that can be stored, whether it is refused or granted. -/
theorem storable_apply {c : Controller} (hc : c.selection.Storable) {op : Operation}
    (hop : op.InWords) (now : Int) : (c.apply now op).2.selection.Storable := by
  rcases c.apply_cases now op with ⟨e, -, hdone⟩ | ⟨range, -, hdone⟩
  · rw [hdone.selection]
    exact op.storable_note hc
  · rw [hdone.selection]
    exact Operation.storable_store hc hop

/-- **A controller made from a storable selection** has a storable selection. -/
theorem storable_ofSelection {kept : Selection} (h : kept.Storable) (now : Int) :
    (ofSelection now kept).selection.Storable := by
  have hblank : (blank now kept).selection.Storable :=
    ⟨(Selection.storable_standard kept.preset).version, h.absoluteFrom, h.absoluteTo⟩
  exact storable_apply hblank (inWords_replay h) now

end Controller

namespace Command

/-! ### Keeping a selection -/

/-- **What is kept is loaded,** and a file that holds it already is left alone. -/
theorem load?_keep {path : Path} {s : Selection} {tree after : FileTree} (hs : s.Storable)
    (hversion : s.version = Selection.currentVersion)
    (h : keep (some path) s tree = (.ok (), after)) :
    Selection.load? path after = some s ∧
      (Selection.load? path tree = some s → after = tree) := by
  unfold keep at h
  by_cases hload : Selection.load? path tree = some s
  · simp only [hload, if_true] at h
    cases h
    exact ⟨hload, fun _ => rfl⟩
  · simp only [hload, if_false] at h
    exact ⟨Selection.load?_save hs hversion h, fun hsame => absurd hsame hload⟩

/-! ### Renderings -/

/-- The bounds of a choice are words. -/
def RangeChoice.InWords : RangeChoice → Prop
  | .absolute fromMs toMs => Number.InWord fromMs ∧ Number.InWord toMs
  | _ => True

/-- The bounds that options give are words. -/
theorem inWords_rangeChoice (given : Given) : (rangeChoice given).InWords := by
  have hword {name : String} {n : Int} (h : given.word? name = some n) : Number.InWord n := by
    obtain ⟨text, -, hread⟩ := Option.bind_eq_some_iff.1 h
    obtain ⟨m, -, hm⟩ := Option.bind_eq_some_iff.1 hread
    obtain ⟨hn, rfl⟩ := Number.word?_eq_some_iff.1 hm
    exact hn
  unfold rangeChoice
  split
  · trivial
  · trivial
  · rename_i hfrom hto _
    exact ⟨hword hfrom, hword hto⟩
  · trivial

/-- A rendering gets under way: its configuration is read, its capture directory is there, and it
has a file to keep its selection in. -/
structure UnderWay (options : RenderOptions) (configPath : Option Path) (lookup : Config.Lookup)
    (tree : FileTree) (config : Config) (dataDir path : Path) : Prop where
  loads : Config.load tree lookup configPath = .ok config
  names : options.dataDir.or config.dataDir = some dataDir
  isDirectory : tree.isDirectory dataDir
  keeps : options.statePath.or config.statePath = some path

/-- The controller that a rendering goes on with: the kept selection, repeated and then changed by
the choice. -/
def chosen (now : Int) (path : Path) (fallback : Preset) (choice : RangeChoice) (tree : FileTree) :
    Except RangeError Controller :=
  choose now choice
    (Controller.ofSelection now (startSelection (Selection.load? path tree) fallback))

/-- A choice whose request has a range goes through, and stores its selection. -/
theorem choose_eq_ok {now : Int} {choice : RangeChoice} {op : Controller.Operation} {c : Controller}
    {range : TimeRange} (hop : choice.operation? = some op)
    (h : op.resolve now c.selection = .ok range) :
    ∃ d, choose now choice c = .ok d ∧ d.selection = op.store c.selection ∧ d.range = range := by
  have houtcome := c.outcome_apply now op
  rw [h] at houtcome
  refine ⟨(c.apply now op).2, ?_, houtcome.selection, houtcome.range⟩
  have hanswer := houtcome.answer
  rcases happly : c.apply now op with ⟨answer, d⟩
  rw [happly] at hanswer
  simp only [choose, hop, happly, show answer = _ from hanswer]

/-- The selection of the controller that a rendering goes on with can be stored. -/
theorem storable_chosen {now : Int} {path : Path} {fallback : Preset} {choice : RangeChoice}
    {tree : FileTree} {c : Controller} (hchoice : choice.InWords)
    (h : chosen now path fallback choice tree = .ok c) : c.selection.Storable := by
  have hstart : (startSelection (Selection.load? path tree) fallback).Storable := by
    cases hload : Selection.load? path tree with
    | none => exact Selection.storable_standard fallback
    | some s => exact (Selection.storable_of_load? hload).1
  have hkept := Controller.storable_ofSelection hstart now
  unfold chosen choose at h
  cases hop : choice.operation? with
  | none =>
    rw [hop] at h
    rw [← Except.ok.inj h]
    exact hkept
  | some op =>
    have hwords : op.InWords := by
      cases choice with
      | kept => cases hop
      | absolute fromMs toMs =>
        cases hop
        exact hchoice
      | _ =>
        cases hop
        trivial
    have hstored := Controller.storable_apply hkept hwords now
    simp only [hop] at h
    split at h
    · rename_i happly
      rw [happly, Except.ok.inj h] at hstored
      exact hstored
    · cases h

/-- A rendering under way selects its range, keeps the selection and shows the charts. -/
theorem render_of_underWay {options : RenderOptions} {configPath : Option Path}
    {lookup : Config.Lookup} {tree : FileTree} {config : Config} {dataDir path : Path}
    (h : UnderWay options configPath lookup tree config dataDir path) (json : Bool) (clock : Int) :
    render json options configPath lookup clock tree =
      match chosen (options.nowMs.getD clock) path config.defaultPreset options.choice tree with
      | .error e => (.failed (.range e), tree)
      | .ok c =>
        match keep (some path) c.selection tree with
        | (.ok (), after) => (present json options config dataDir after c, after)
        | (.error e, after) => (.failed (.state e), after) := by
  rw [render, h.loads]
  simp only [renderWith, h.names, h.isDirectory, h.keeps, if_true, settle, Option.bind_some]
  rw [← chosen]
  cases chosen (options.nowMs.getD clock) path config.defaultPreset options.choice tree with
  | error e => rfl
  | ok c =>
    rcases hkeep : keep (some path) c.selection tree with ⟨e | _, after⟩
    all_goals simp only [hkeep]

/-- Loading charts and tables leaves the controller of a session as it is. -/
theorem controller_loadSession {source : Source Number.Double} {c : Controller} {config : Config}
    {s : Session Number.Double} (h : loadSession source c config = .ok s) : s.controller = c := by
  have htable (s : Session Number.Double) (kind : TableKind) :
      (s.ensureTable kind source).2.controller = s.controller := by
    unfold Session.ensureTable Session.receive
    split
    · rfl
    · dsimp only
      split
      all_goals rfl
  have htables (kinds : List TableKind) (s : Session Number.Double) :
      (kinds.foldl (fun s kind => (s.ensureTable kind source).2) s).controller = s.controller := by
    induction kinds generalizing s with
    | nil => rfl
    | cons kind kinds ih => exact (ih _).trans (htable s kind)
  have hcharts (s : Session Number.Double) : (s.reload source).2.controller = s.controller := by
    unfold Session.reload Session.complete
    dsimp only
    split
    · split
      all_goals rfl
    · rfl
  unfold loadSession at h
  dsimp only at h
  split at h
  · cases h
  · rw [← Except.ok.inj h, htables, hcharts]
    rfl

/-- Showing charts and tables never fails for the sake of the file. -/
theorem failure_present_ne_state {json : Bool} {options : RenderOptions} {config : Config}
    {dataDir : Path} {tree : FileTree} {c : Controller} (e : SaveError) :
    (present json options config dataDir tree c).failure ≠ some (.state e) := by
  unfold present
  split
  · rintro ⟨⟩
  · unfold Rendering.failure?
    dsimp only
    split
    · rintro ⟨⟩
    · rintro ⟨⟩

/-! ### Two renderings after one another -/

/-- What the next rendering without a choice makes of a kept selection: at any instant at which the
selection resolves, it goes on with that selection and its range, and leaves the files alone. -/
def Repeats (path : Path) (kept : Selection) (tree : FileTree) : Prop :=
  ∀ {options : RenderOptions} {configPath : Option Path} {lookup : Config.Lookup} {config : Config}
    {dataDir : Path} {range : TimeRange} (json : Bool) (clock : Int),
    UnderWay options configPath lookup tree config dataDir path → options.choice = .kept →
    Controller.resolveStored (options.nowMs.getD clock) kept kept.mode = .ok range →
    ∃ last : Controller, last.selection = kept ∧ last.range = range ∧
      render json options configPath lookup clock tree =
        (present json options config dataDir tree last, tree) ∧
      ∀ s, loadSession (Snapshot.source tree dataDir) last config = .ok s → s.controller = last

/-- A selection that a file keeps is repeated. -/
theorem repeats_of_load? {path : Path} {kept : Selection} {tree : FileTree}
    (hload : Selection.load? path tree = some kept) : Repeats path kept tree := by
  intro options configPath lookup config dataDir range json clock h hchoice hresolve
  have hlast := Controller.ofSelection_of_ok hresolve
  have hselection : (Controller.ofSelection (options.nowMs.getD clock) kept).selection = kept := by
    rw [hlast]
    have hversion := (Selection.storable_of_load? hload).2
    cases kept
    cases hversion
    rfl
  have hchosen : chosen (options.nowMs.getD clock) path config.defaultPreset options.choice tree =
      .ok (Controller.ofSelection (options.nowMs.getD clock) kept) := by
    rw [hchoice, chosen, hload]
    rfl
  have hkeep : keep (some path) kept tree = (.ok (), tree) := if_pos hload
  refine ⟨_, hselection, by rw [hlast], ?_, fun s hs => controller_loadSession hs⟩
  rw [render_of_underWay h json clock, hchosen]
  dsimp only
  rw [hselection, hkeep]

/-- **The file of the kept selection is consistent.** Take any rendering that gets under way,
whatever its file holds. If its choice has no range, no file changes. Otherwise it goes on with a
controller and, unless a file could not be written, leaves a file that keeps the selection of this
controller, whatever becomes of the charts; a file that kept it before is left alone; and the next
rendering without a choice repeats it. -/
theorem state_file_consistent {options : RenderOptions} {configPath : Option Path}
    {lookup : Config.Lookup} {tree : FileTree} {config : Config} {dataDir path : Path}
    (h : UnderWay options configPath lookup tree config dataDir path)
    (hwords : options.choice.InWords) (json : Bool) (clock : Int) :
    let result := render json options configPath lookup clock tree
    let choice :=
      chosen (options.nowMs.getD clock) path config.defaultPreset options.choice tree
    (∀ e, choice = .error e → result = (.failed (.range e), tree)) ∧
    ∀ c, choice = .ok c → (∀ e, result.1.failure ≠ some (.state e)) →
      result.1 = present json options config dataDir result.2 c ∧
      Selection.load? path result.2 = some c.selection ∧
      (Selection.load? path tree = some c.selection → result.2 = tree) ∧
      Repeats path c.selection result.2 := by
  intro result choice
  have hrender : result = _ := render_of_underWay h json clock
  refine ⟨fun e hchoice => ?_, fun c hchoice hfiles => ?_⟩
  · rw [hrender, show chosen _ _ _ _ _ = _ from hchoice]
  · rw [show chosen _ _ _ _ _ = _ from hchoice] at hrender
    rcases hkeep : keep (some path) c.selection tree with ⟨e | _, after⟩
    · -- A selection that could not be saved is what the rendering fails with.
      simp only [hkeep] at hrender
      exact absurd (by rw [hrender]; rfl) (hfiles e)
    · simp only [hkeep] at hrender
      obtain ⟨hload, hsame⟩ := load?_keep (storable_chosen hwords hchoice) rfl hkeep
      rw [hrender]
      exact ⟨rfl, hload, hsame, repeats_of_load? hload⟩

/-- A selection is kept in a file that is made for it. -/
theorem keep_new_file (s : Selection) :
    keep (some ⟨"state.json"⟩) s ⟨[(["data"], .directory)]⟩ =
      (.ok (), ⟨[(["state.json"], .file (.text s.render)), (["data"], .directory)]⟩) := by
  have hwrite (text : String) : Selection.writeVia ⟨"state.json"⟩ text ⟨[(["data"], .directory)]⟩ =
      (.ok (), ⟨[(["state.json"], .file (.text text)), (["data"], .directory)]⟩) := rfl
  have hnone : Selection.load? ⟨"state.json"⟩ ⟨[(["data"], .directory)]⟩ ≠ some s := by
    rw [show Selection.load? ⟨"state.json"⟩ ⟨[(["data"], .directory)]⟩ = none from rfl]
    rintro ⟨⟩
  simp only [keep, if_neg hnone, Selection.save, hwrite]

/-- A first rendering with fixed bounds makes the file, and the next one repeats the bounds. -/
theorem state_file_consistent_first_run :
    let tree : FileTree := ⟨[(["data"], .directory)]⟩
    let path : Path := ⟨"state.json"⟩
    let options : RenderOptions :=
      { dataDir := some ⟨"data"⟩, mac := none, choice := .absolute 1000 5000,
        statePath := some path, validate := false, nowMs := some 7 }
    let after := (render false options (some ⟨"absent.toml"⟩) (fun _ => none) 0 tree).2
    UnderWay options (some ⟨"absent.toml"⟩) (fun _ => none) tree {} ⟨"data"⟩ path ∧
      options.choice.InWords ∧
      ∃ c, chosen 7 path .last24Hours options.choice tree = .ok c ∧
        c.selection.absoluteFrom = some 1000 ∧ c.selection.absoluteTo = some 5000 ∧
        Selection.load? path after = some c.selection ∧ Repeats path c.selection after := by
  intro tree path options after
  have h : UnderWay options (some ⟨"absent.toml"⟩) (fun _ => none) tree {} ⟨"data"⟩ path :=
    ⟨rfl, rfl, rfl, rfl⟩
  have hwords : options.choice.InWords := by
    show Number.InWord 1000 ∧ Number.InWord 5000
    decide
  refine ⟨h, hwords, ?_⟩
  obtain ⟨c, hchoose, hselection, -⟩ := @choose_eq_ok 7 options.choice (.absolute 1000 5000)
    (Controller.ofSelection 7 (startSelection (Selection.load? path tree) .last24Hours)) _ rfl rfl
  have hchosen : chosen 7 path .last24Hours options.choice tree = .ok c := hchoose
  have hkeep : keep (some path) c.selection tree = _ := keep_new_file c.selection
  have hfiles (e : SaveError) : (render false options (some ⟨"absent.toml"⟩) (fun _ => none) 0
      tree).1.failure ≠ some (.state e) := by
    rw [render_of_underWay h, show chosen (options.nowMs.getD 0) path _ options.choice tree = .ok c
      from hchosen]
    simp only [hkeep]
    exact failure_present_ne_state e
  obtain ⟨-, hok⟩ := state_file_consistent h hwords false 0
  obtain ⟨-, hload, -, hrepeats⟩ := hok c hchosen hfiles
  exact ⟨c, hchosen, by rw [hselection]; rfl, by rw [hselection]; rfl, hload, hrepeats⟩

end Command

end TrafficBoard
