import Svgd.Gate.Dashboard
import Svgd.Lib.WorkingCopy

/-!
# Layouts and their datasources

The page works on one layout at a time, the one of the active datasource: it is a desk with
the keys of the storage. Every event is a sequence of moves on it, and the page shows what the
desk holds (`Shows`). The desk also knows under which keys a layout was loaded and changed.

The events that change the active datasource without loading its layout are the ones that
are not careful: the deletion of the active datasource, and an answer with a default while no
selection was stored. A page that has not loaded its layout yet is not careful if it saves.
-/

namespace Svgd.Gate

open Lib

/-- The layout that a text in the storage stands for. -/
def PanelsText.layout : PanelsText → Option (List PanelConfig)
  | .json panels => some panels
  | .broken => none

/-- The desk of a page. -/
abbrev LayoutDesk := Desk Bytes (List PanelConfig)

/-- The page holds what is on the desk. -/
structure Shows (d : Dashboard) (desk : LayoutDesk) : Prop where
  active : desk.active = d.key
  copy : desk.copy.doc = d.list
  store : ∀ key, (desk.store key).map (·.doc) = (d.storage.panels key).bind PanelsText.layout

namespace Dashboard

/-- The layout of the active datasource is taken over from the time without datasources. -/
def migrates (d : Dashboard) : Bool :=
  (d.storage.panels d.key).isNone && (d.storage.panels legacyKey).isSome

/-- The moves that an event makes. -/
def movesOf (d : Dashboard) : DashboardEvent → List (Move Bytes (List PanelConfig))
  | .pageLoad => [.blank [], .activate (pageLoad d.storage).key]
  | .fetchDatasources names dflt => [.activate (d.fetchDatasources names dflt).key]
  | .deleteDatasource name => [.activate (d.deleteDatasource name).key]
  | .initializeDashboard =>
      .load d.key d.initializeDashboard.list ::
        (if d.migrates then [.save, .discard legacyKey] else [])
  | .selectDatasource name =>
      [.save, .load (getPanelsStorageKey name) (d.selectDatasource name).list]
  | .addPanel stat panel =>
      if (d.findIndex panel.id).isSome then [] else [.edit (d.addPanel stat panel).list]
  | .removePanel id => [.edit (d.removePanel id).list, .save]
  | .stopResize id cols height =>
      if (d.findIndex id).isSome then [.edit (d.stopResize id cols height).list, .save] else []
  | .dragstart _ => []
  | .drop targetId =>
      if (d.drop targetId).panels = d.panels then [] else [.edit (d.drop targetId).list]
  | .dragend => [.save]

/-- The moves that a sequence of events makes. -/
def trace (d : Dashboard) : List DashboardEvent → List (Move Bytes (List PanelConfig))
  | [] => []
  | e :: es => d.movesOf e ++ (d.step e).trace es

/-- The desk of a page that is loaded for the first time: every stored layout is in its place. -/
def firstDesk (storage : LocalStorage) : LayoutDesk where
  active := (pageLoad storage).key
  copy := ⟨[], []⟩
  store key := ((storage.panels key).bind PanelsText.layout).map fun panels => ⟨panels, [key]⟩

/-- The desk behind a sequence of events. -/
def deskAfter (storage : LocalStorage) (events : List DashboardEvent) : LayoutDesk :=
  (firstDesk storage).moves ((pageLoad storage).trace events)

end Dashboard

/-! ## The page and the desk -/

variable {d : Dashboard} {desk : LayoutDesk}

/-- Saving. -/
theorem Shows.save (h : Shows d desk) : Shows d.savePanelsToStorage (desk.move .save) where
  active := h.active
  copy := h.copy
  store key := by
    show (Function.update desk.store desk.active (some desk.copy) key).map (·.doc)
      = (Function.update d.storage.panels d.key (some (.json d.list)) key).bind PanelsText.layout
    by_cases hkey : key = d.key
    · rw [hkey, ← h.active, Function.update_self, h.active, Function.update_self]
      exact congrArg some h.copy
    · rw [h.active, Function.update_of_ne hkey, Function.update_of_ne hkey]
      exact h.store key

/-- An item is removed. -/
theorem Shows.discard (h : Shows d desk) (key' : Bytes) :
    Shows (d.setPanelsItem key' none) (desk.move (.discard key')) where
  active := h.active
  copy := h.copy
  store key := by
    show (Function.update desk.store key' none key).map (·.doc)
      = (Function.update d.storage.panels key' none key).bind PanelsText.layout
    by_cases hkey : key = key'
    · rw [hkey, Function.update_self, Function.update_self]
      rfl
    · rw [Function.update_of_ne hkey, Function.update_of_ne hkey]
      exact h.store key

/-- The list is changed. -/
theorem Shows.edit (h : Shows d desk) (d' : Dashboard) (hkey : d'.key = d.key)
    (hstorage : d'.storage = d.storage) : Shows d' (desk.move (.edit d'.list)) where
  active := h.active.trans hkey.symm
  copy := rfl
  store key := by
    rw [hstorage]
    exact h.store key

/-- Another list is loaded. -/
theorem Shows.load (h : Shows d desk) (d' : Dashboard)
    (hstorage : d'.storage.panels = d.storage.panels) :
    Shows d' (desk.move (.load d'.key d'.list)) where
  active := rfl
  copy := rfl
  store key := by
    rw [hstorage]
    exact h.store key

/-- Another datasource is active. -/
theorem Shows.activate (h : Shows d desk) (d' : Dashboard) (hlist : d'.list = d.list)
    (hstorage : d'.storage = d.storage) : Shows d' (desk.move (.activate d'.key)) where
  active := rfl
  copy := h.copy.trans hlist.symm
  store key := by
    rw [hstorage]
    exact h.store key

theorem Shows.initializeDashboard (h : Shows d desk) :
    Shows d.initializeDashboard (desk.moves (d.movesOf .initializeDashboard)) := by
  unfold Dashboard.movesOf Dashboard.migrates Dashboard.initializeDashboard
  cases hown : d.storage.panels d.key with
  | some text => exact h.load { d with panels := d.parsePanels (some text) } rfl
  | none =>
      cases hlegacy : d.storage.panels legacyKey with
      | some text =>
          have hload := h.load { d with panels := d.parsePanels (some text) } rfl
          exact hload.save.discard legacyKey
      | none => exact h.load { d with panels := d.defaultRefs } rfl

theorem Dashboard.stopResize_of_some {i : Nat} {id : Bytes} (h : d.findIndex id = some i)
    (cols height : Int) :
    d.stopResize id cols height = (d.setSize i cols height).savePanelsToStorage := by
  unfold Dashboard.stopResize
  rw [h]

theorem Dashboard.stopResize_of_none {id : Bytes} (h : d.findIndex id = none) (cols height : Int) :
    d.stopResize id cols height = d := by
  unfold Dashboard.stopResize
  rw [h]

/-- A size is no matter of the active datasource or the storage. -/
theorem Dashboard.setSize_frame (d : Dashboard) (i : Nat) (cols height : Int) :
    (d.setSize i cols height).activeDatasource = d.activeDatasource
      ∧ (d.setSize i cols height).storage = d.storage := by
  unfold Dashboard.setSize
  dsimp only
  split <;> exact ⟨rfl, rfl⟩

/-- Nor is the order of the panels. -/
theorem Dashboard.drop_frame (d : Dashboard) (targetId : Bytes) :
    (d.drop targetId).activeDatasource = d.activeDatasource
      ∧ (d.drop targetId).storage = d.storage ∧ (d.drop targetId).defaults = d.defaults := by
  unfold Dashboard.drop Dashboard.swapPanels
  split
  · split
    · split <;> exact ⟨rfl, rfl, rfl⟩
    · exact ⟨rfl, rfl, rfl⟩
  · exact ⟨rfl, rfl, rfl⟩

theorem Dashboard.key_congr {d' : Dashboard} (h : d'.activeDatasource = d.activeDatasource) :
    d'.key = d.key := by
  unfold Dashboard.key
  rw [h]

theorem Shows.stopResize (h : Shows d desk) (id : Bytes) (cols height : Int) :
    Shows (d.stopResize id cols height) (desk.moves (d.movesOf (.stopResize id cols height))) := by
  have hmoves : d.movesOf (.stopResize id cols height)
      = if (d.findIndex id).isSome then [.edit (d.stopResize id cols height).list, .save] else [] := rfl
  rw [hmoves]
  cases hfind : d.findIndex id with
  | none =>
      rw [Dashboard.stopResize_of_none hfind]
      exact h
  | some i =>
      obtain ⟨hactive, hstorage⟩ := d.setSize_frame i cols height
      rw [Dashboard.stopResize_of_some hfind]
      exact (h.edit _ (Dashboard.key_congr hactive) hstorage).save

theorem Shows.drop (h : Shows d desk) (targetId : Bytes) :
    Shows (d.drop targetId) (desk.moves (d.movesOf (.drop targetId))) := by
  obtain ⟨hactive, hstorage, hdefaults⟩ := d.drop_frame targetId
  have hkey := Dashboard.key_congr hactive
  have hmoves : d.movesOf (.drop targetId)
      = if (d.drop targetId).panels = d.panels then [] else [.edit (d.drop targetId).list] := rfl
  rw [hmoves]
  by_cases hsame : (d.drop targetId).panels = d.panels
  · rw [if_pos hsame]
    have hlist : (d.drop targetId).list = d.list := by
      unfold Dashboard.list
      rw [hsame, hdefaults]
    refine ⟨h.active.trans hkey.symm, h.copy.trans hlist.symm, fun key => ?_⟩
    rw [hstorage]
    exact h.store key
  · rw [if_neg hsame]
    exact h.edit _ hkey hstorage

/-- **The step**: the moves of an event leave on the desk what the event leaves on the page. -/
theorem Shows.step (h : Shows d desk) (e : DashboardEvent) :
    Shows (d.step e) (desk.moves (d.movesOf e)) := by
  cases e with
  | pageLoad => exact ⟨rfl, rfl, h.store⟩
  | fetchDatasources names dflt => exact h.activate (d.fetchDatasources names dflt) rfl rfl
  | deleteDatasource name =>
      have hkeep : (d.deleteDatasource name).list = d.list
          ∧ (d.deleteDatasource name).storage = d.storage := by
        unfold Dashboard.deleteDatasource
        split <;> exact ⟨rfl, rfl⟩
      exact h.activate _ hkeep.1 hkeep.2
  | initializeDashboard => exact h.initializeDashboard
  | selectDatasource name => exact h.save.load (d.selectDatasource name) rfl
  | addPanel stat panel =>
      have hmoves : d.movesOf (.addPanel stat panel)
          = if (d.findIndex panel.id).isSome then [] else [.edit (d.addPanel stat panel).list] := rfl
      show Shows (d.addPanel stat panel) _
      rw [hmoves]
      by_cases hfind : (d.findIndex panel.id).isSome = true
      · rw [if_pos hfind, Dashboard.addPanel, if_pos hfind]
        exact h
      · rw [if_neg hfind, Dashboard.addPanel, if_neg hfind]
        exact h.edit _ rfl rfl
  | removePanel id =>
      exact (h.edit { d with panels := d.panels.filter fun p => (p.get d.defaults).id ≠ id }
        rfl rfl).save
  | stopResize id cols height => exact h.stopResize id cols height
  | dragstart id => exact ⟨h.active, h.copy, h.store⟩
  | drop targetId => exact h.drop targetId
  | dragend =>
      have hend : Shows { d with draggedPanelId := [] } desk := ⟨h.active, h.copy, h.store⟩
      exact hend.save

/-- **The run.** -/
theorem Shows.run (h : Shows d desk) (events : List DashboardEvent) :
    Shows (d.run events) (desk.moves (d.trace events)) := by
  induction events generalizing d desk with
  | nil => exact h
  | cons e es ih =>
      rw [Dashboard.trace, Desk.moves_append]
      exact ih (h.step e)

theorem shows_firstDesk (storage : LocalStorage) :
    Shows (Dashboard.pageLoad storage) (Dashboard.firstDesk storage) where
  active := rfl
  copy := rfl
  store key := by
    show (((storage.panels key).bind PanelsText.layout).map fun panels =>
      (⟨panels, [key]⟩ : Marked Bytes (List PanelConfig))).map (·.doc) = _
    rw [Option.map_map]
    exact Option.map_id'

/-! ## Careful events -/

/-- Whether a layout is loaded behind an event. -/
def loadedBehind (loaded : Bool) : DashboardEvent → Bool
  | .pageLoad => false
  | .initializeDashboard => true
  | .selectDatasource _ => true
  | _ => loaded

/-- With a layout loaded, the active datasource is not changed behind its back; without one,
nothing is saved. -/
def Steady (d : Dashboard) (loaded : Bool) : DashboardEvent → Prop
  | .fetchDatasources _ dflt => loaded = true → dflt ≠ [] → d.storage.activeDatasource = [] →
      getPanelsStorageKey dflt = d.key
  | .deleteDatasource name => loaded = true → d.activeDatasource = name →
      getPanelsStorageKey d.nextDatasource = d.key
  | .selectDatasource _ => loaded = true
  | .removePanel _ => loaded = true
  | .stopResize id _ _ => (d.findIndex id).isSome = true → loaded = true
  | .dragend => loaded = true
  | _ => True

/-- Every event of a run is steady. -/
def SteadyFrom : Dashboard → Bool → List DashboardEvent → Prop
  | _, _, [] => True
  | d, loaded, e :: es => Steady d loaded e ∧ SteadyFrom (d.step e) (loadedBehind loaded e) es

/-- The same from the first load of the page on. -/
def SteadyRun (storage : LocalStorage) (events : List DashboardEvent) : Prop :=
  SteadyFrom (Dashboard.pageLoad storage) false events

/-- The layout on the desk carries a key exactly if one is loaded. -/
def MarkedWhen (desk : LayoutDesk) (loaded : Bool) : Prop := desk.copy.keys = [] ↔ loaded = false

theorem markedWhen_edit {loaded : Bool} (h : MarkedWhen desk loaded) (doc : List PanelConfig) :
    MarkedWhen (desk.move (.edit doc)) loaded := by
  unfold MarkedWhen at *
  rw [← h]
  show (if desk.copy.keys = [] then [] else desk.active :: desk.copy.keys) = [] ↔ _
  split
  · rename_i hnone
    exact ⟨fun _ => hnone, fun _ => rfl⟩
  · rename_i hsome
    exact ⟨fun hnil => (List.cons_ne_nil _ _ hnil).elim, fun hnil => absurd hnil hsome⟩

theorem MarkedWhen.ne_nil (h : MarkedWhen desk true) : desk.copy.keys ≠ [] :=
  fun hnil => Bool.noConfusion (h.mp hnil)

/-- The active key changes only while nothing is loaded. -/
theorem careful_activate {loaded : Bool} (hshows : Shows d desk) (hmarked : MarkedWhen desk loaded)
    {key : Bytes} (h : loaded = true → key = d.key) : desk.AllCareful [.activate key] := by
  refine ⟨?_, trivial⟩
  cases loaded with
  | false => exact .inl (hmarked.mpr rfl)
  | true => exact .inr ((h rfl).trans hshows.active.symm)

/-- **The moves of a steady event are careful.** -/
theorem careful_of_steady {loaded : Bool} (hshows : Shows d desk) (hmarked : MarkedWhen desk loaded)
    {e : DashboardEvent} (hsteady : Steady d loaded e) : desk.AllCareful (d.movesOf e) := by
  cases e with
  | pageLoad => exact ⟨trivial, .inl rfl, trivial⟩
  | fetchDatasources names dflt =>
      refine careful_activate hshows hmarked fun hloaded => ?_
      unfold Dashboard.fetchDatasources Dashboard.key
      dsimp only
      split
      · rename_i hdflt
        exact hsteady hloaded hdflt.1 hdflt.2
      · rfl
  | deleteDatasource name =>
      refine careful_activate hshows hmarked fun hloaded => ?_
      unfold Dashboard.deleteDatasource
      split
      · rename_i hname
        exact hsteady hloaded hname
      · rfl
  | initializeDashboard =>
      refine ⟨trivial, ?_⟩
      split
      · exact ⟨List.cons_ne_nil _ _, trivial, trivial⟩
      · trivial
  | selectDatasource name =>
      obtain rfl : loaded = true := hsteady
      exact ⟨hmarked.ne_nil, trivial, trivial⟩
  | addPanel stat panel =>
      show desk.AllCareful (if (d.findIndex panel.id).isSome then [] else [.edit _])
      split
      · trivial
      · exact ⟨trivial, trivial⟩
  | removePanel id =>
      obtain rfl : loaded = true := hsteady
      exact ⟨trivial, (markedWhen_edit hmarked _).ne_nil, trivial⟩
  | stopResize id cols height =>
      show desk.AllCareful (if (d.findIndex id).isSome then [.edit _, .save] else [])
      split
      · rename_i hfind
        obtain rfl : loaded = true := hsteady hfind
        exact ⟨trivial, (markedWhen_edit hmarked _).ne_nil, trivial⟩
      · trivial
  | dragstart id => trivial
  | drop targetId =>
      show desk.AllCareful (if (d.drop targetId).panels = d.panels then [] else [.edit _])
      split
      · trivial
      · exact ⟨trivial, trivial⟩
  | dragend =>
      obtain rfl : loaded = true := hsteady
      exact ⟨hmarked.ne_nil, trivial⟩

/-- An event marks the layout on the desk as it loads one. -/
theorem MarkedWhen.step {loaded : Bool} (h : MarkedWhen desk loaded) (d : Dashboard)
    (e : DashboardEvent) : MarkedWhen (desk.moves (d.movesOf e)) (loadedBehind loaded e) := by
  have hload : ∀ {m : LayoutDesk} (key : Bytes) (doc : List PanelConfig),
      m.copy = ⟨doc, [key]⟩ → MarkedWhen m true := by
    intro m key doc heq
    unfold MarkedWhen
    rw [heq]
    exact iff_of_false (List.cons_ne_nil _ _) (by decide)
  cases e with
  | pageLoad => exact ⟨fun _ => rfl, fun _ => rfl⟩
  | fetchDatasources names dflt => exact h
  | deleteDatasource name => exact h
  | initializeDashboard =>
      apply hload d.key d.initializeDashboard.list
      unfold Dashboard.movesOf
      dsimp only
      split <;> rfl
  | selectDatasource name => exact hload _ _ rfl
  | addPanel stat panel =>
      show MarkedWhen (desk.moves (if (d.findIndex panel.id).isSome then [] else [.edit _])) loaded
      split
      · exact h
      · exact markedWhen_edit h _
  | removePanel id => exact markedWhen_edit h _
  | stopResize id cols height =>
      show MarkedWhen (desk.moves (if (d.findIndex id).isSome then [.edit _, .save] else [])) loaded
      split
      · exact markedWhen_edit h _
      · exact h
  | dragstart id => exact h
  | drop targetId =>
      show MarkedWhen (desk.moves (if (d.drop targetId).panels = d.panels then [] else [.edit _]))
        loaded
      split
      · exact h
      · exact markedWhen_edit h _
  | dragend => exact h

/-! ## Runs -/

/-- What a steady event keeps. -/
structure Kept (d : Dashboard) (desk : LayoutDesk) (loaded : Bool) : Prop where
  shows : Shows d desk
  neat : desk.Neat
  marked : MarkedWhen desk loaded

theorem Kept.step {loaded : Bool} (h : Kept d desk loaded) {e : DashboardEvent}
    (hsteady : Steady d loaded e) :
    Kept (d.step e) (desk.moves (d.movesOf e)) (loadedBehind loaded e) where
  shows := h.shows.step e
  neat := h.neat.moves (careful_of_steady h.shows h.marked hsteady)
  marked := h.marked.step d e

theorem Kept.run {loaded : Bool} (h : Kept d desk loaded) {events : List DashboardEvent}
    (hsteady : SteadyFrom d loaded events) :
    Kept (d.run events) (desk.moves (d.trace events)) (events.foldl loadedBehind loaded) := by
  induction events generalizing d desk loaded with
  | nil => exact h
  | cons e es ih =>
      rw [Dashboard.trace, Desk.moves_append]
      exact ih (h.step hsteady.1) hsteady.2

theorem kept_pageLoad (storage : LocalStorage) :
    Kept (Dashboard.pageLoad storage) (Dashboard.firstDesk storage) false where
  shows := shows_firstDesk storage
  neat := by
    refine ⟨fun key m hm => ?_, fun k hk => absurd hk List.not_mem_nil⟩
    obtain ⟨panels, -, rfl⟩ := Option.map_eq_some_iff.mp hm
    exact ⟨List.cons_ne_nil _ _, fun k hk => List.mem_singleton.mp hk⟩
  marked := iff_of_true rfl rfl

theorem SteadyFrom.of_append {loaded : Bool} {before after : List DashboardEvent}
    (h : SteadyFrom d loaded (before ++ after)) : SteadyFrom d loaded before := by
  induction before generalizing d loaded with
  | nil => trivial
  | cons e es ih => exact ⟨h.1, ih h.2⟩

/-- The layouts that are stored are those on the desk, each of them in its place. -/
def LayoutsSorted (storage : LocalStorage) (events : List DashboardEvent) : Prop :=
  Shows ((Dashboard.pageLoad storage).run events) (Dashboard.deskAfter storage events)
    ∧ (Dashboard.deskAfter storage events).Sorted

/--
**Layouts stay with their datasources in every run of steady events.**

In every state of the run the storage holds what the desk stores, and each layout on it was
loaded and changed only under the key that it is stored under.
-/
theorem layouts_stay_sorted (storage : LocalStorage) (events : List DashboardEvent)
    (h : SteadyRun storage events) (before : List DashboardEvent) (hbefore : before <+: events) :
    LayoutsSorted storage before := by
  obtain ⟨after, rfl⟩ := hbefore
  have hkept := (kept_pageLoad storage).run h.of_append
  exact ⟨hkept.shows, hkept.neat.sorted⟩

/-- Two datasources with a layout each, and the first of them selected. -/
def twoLayouts : LocalStorage where
  activeDatasource := str "a"
  panels key :=
    if key = getPanelsStorageKey (str "a") then some (.json [⟨str "x", str "x", str "X", some 1, none⟩])
    else if key = getPanelsStorageKey (str "b") then
      some (.json [⟨str "y", str "y", str "Y", some 1, none⟩])
    else none

/-- Both are selected in turn, and a panel is resized in between. -/
def selectBoth : List DashboardEvent :=
  [.fetchDatasources [str "a", str "b"] (str "b"), .initializeDashboard,
    .selectDatasource (str "b"), .stopResize (str "y") 2 300, .selectDatasource (str "a")]

theorem layouts_stay_sorted_select : LayoutsSorted twoLayouts selectBoth :=
  layouts_stay_sorted twoLayouts selectBoth
    ⟨fun h => absurd h (by decide), trivial, rfl, fun _ => rfl, rfl, trivial⟩ selectBoth
    (List.prefix_refl _)

/-- The active datasource is deleted, and the other one selected. -/
def deleteActive : List DashboardEvent :=
  [.fetchDatasources [str "a", str "b"] (str "a"), .initializeDashboard,
    .fetchDatasources [str "b"] (str "b"), .deleteDatasource (str "a"), .selectDatasource (str "b")]

/-- The layout of the other one is lost to that of the deleted one. -/
theorem deleted_layout_overwrites :
    (¬ ∀ storage events, LayoutsSorted storage events)
      ∧ (((Dashboard.pageLoad twoLayouts).run deleteActive).storage.panels
          (getPanelsStorageKey (str "b"))
        = twoLayouts.panels (getPanelsStorageKey (str "a"))) := by
  constructor
  · intro h
    have hsorted := (h twoLayouts deleteActive).2 (getPanelsStorageKey (str "b"))
      ⟨[⟨str "x", str "x", str "X", some 1, none⟩], [getPanelsStorageKey (str "a")]⟩ rfl
    exact absurd (hsorted.2 _ (List.mem_singleton.mpr rfl)) (by decide)
  · rfl

end Svgd.Gate
