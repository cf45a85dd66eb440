import Svgd.Lib.CString
import Mathlib.Logic.Function.Basic

/-!
# The dashboard page

`gate/static/script.js` as far as it changes the active datasource, the list of panels and
what is stored of them. Everything up to an `await` or the end of a handler is one event.
The list holds objects: those of `defaultPanels` are shared by all lists that are made of
them, and a panel that is resized is changed in place. A text in the storage is the JSON
text of a list of panels, or one that `JSON.parse` rejects.
-/

namespace Svgd.Gate

open Lib

/-- A panel. -/
structure PanelConfig where
  id : Bytes
  endpoint : Bytes
  title : Bytes
  cols : Option Int := none
  height : Option Int := none
deriving DecidableEq, Inhabited

/-- `defaultPanels`, as the page defines them. -/
def defaultPanels : List PanelConfig :=
  [{ id := str "cpu", endpoint := str "cpu", title := str "CPU Total Usage", cols := some 2 },
    { id := str "ram", endpoint := str "ram", title := str "RAM Total Usage", cols := some 2 }]

/-- An element of `config.panels`. -/
inductive PanelRef where
  /-- The object of `defaultPanels` at this index. -/
  | shared (i : Nat)
  | own (panel : PanelConfig)
deriving DecidableEq

/-- What is stored of a list of panels. -/
inductive PanelsText where
  | json (panels : List PanelConfig)
  | broken
deriving DecidableEq

/-- `localStorage`: the item `svgd-active-datasource`, empty if it is missing, and the items that
hold panels. -/
structure LocalStorage where
  activeDatasource : Bytes
  panels : Bytes → Option PanelsText

/-- The variables of the page, and the storage. -/
structure Dashboard where
  activeDatasource : Bytes
  /-- The names in `config.datasources`. -/
  datasources : List Bytes
  panels : List PanelRef
  /-- The objects of `defaultPanels`. -/
  defaults : List PanelConfig
  draggedPanelId : Bytes
  storage : LocalStorage

/-- `getPanelsStorageKey`. -/
def getPanelsStorageKey (datasource : Bytes) : Bytes :=
  str "svgd-panels-" ++ (if datasource = [] then str "default" else datasource)

/-- The key of layouts that were stored without a datasource. -/
def legacyKey : Bytes := str "svgd-panels"

/-- The object that is referred to. -/
def PanelRef.get (defaults : List PanelConfig) : PanelRef → PanelConfig
  | .shared i => defaults.getD i default
  | .own panel => panel

namespace Dashboard

/-- The panels of the list. -/
def list (d : Dashboard) : List PanelConfig := d.panels.map (PanelRef.get d.defaults)

/-- The key of the active datasource. -/
def key (d : Dashboard) : Bytes := getPanelsStorageKey d.activeDatasource

/-- `findIndex(p => p.id === id)`. -/
def findIndex (d : Dashboard) (id : Bytes) : Option Nat := d.list.findIdx? (·.id == id)

/-- `localStorage.setItem` and `localStorage.removeItem`, for an item that holds panels. -/
def setPanelsItem (d : Dashboard) (key : Bytes) (text : Option PanelsText) : Dashboard :=
  { d with storage := { d.storage with panels := Function.update d.storage.panels key text } }

/-- `savePanelsToStorage`. -/
def savePanelsToStorage (d : Dashboard) : Dashboard := d.setPanelsItem d.key (some (.json d.list))

/-- `[...defaultPanels]`. -/
def defaultRefs (d : Dashboard) : List PanelRef := (List.range d.defaults.length).map .shared

/-- The list for a text in the storage, if there is one. -/
def parsePanels (d : Dashboard) : Option PanelsText → List PanelRef
  | some (.json panels) => panels.map .own
  | some .broken => d.defaultRefs
  | none => d.defaultRefs

/-- The page is loaded; what was stored of the last one is there. -/
def pageLoad (storage : LocalStorage) : Dashboard where
  activeDatasource := if storage.activeDatasource = [] then str "default" else storage.activeDatasource
  datasources := []
  panels := []
  defaults := defaultPanels
  draggedPanelId := []
  storage := storage

/-- `fetchDatasources`, with the names and the default of the answer. -/
def fetchDatasources (names : List Bytes) (dflt : Bytes) (d : Dashboard) : Dashboard :=
  { d with
    datasources := names
    activeDatasource :=
      if dflt ≠ [] ∧ d.storage.activeDatasource = [] then dflt else d.activeDatasource }

/-- The name `deleteDatasource` switches to. -/
def nextDatasource (d : Dashboard) : Bytes := d.datasources.headD []

/-- `deleteDatasource`, behind `fetchDatasources`. -/
def deleteDatasource (name : Bytes) (d : Dashboard) : Dashboard :=
  if d.activeDatasource = name then { d with activeDatasource := d.nextDatasource } else d

/-- `selectDatasource`. -/
def selectDatasource (name : Bytes) (d : Dashboard) : Dashboard :=
  let d := d.savePanelsToStorage
  let d := { d with
    activeDatasource := name
    storage := { d.storage with activeDatasource := name } }
  { d with panels := d.parsePanels (d.storage.panels (getPanelsStorageKey name)) }

/-- `initializeDashboard`, behind its requests. -/
def initializeDashboard (d : Dashboard) : Dashboard :=
  match d.storage.panels d.key with
  | some text => { d with panels := d.parsePanels (some text) }
  | none =>
      match d.storage.panels legacyKey with
      | some text =>
          ({ d with panels := d.parsePanels (some text) }).savePanelsToStorage.setPanelsItem legacyKey none
      | none => { d with panels := d.defaultRefs }

/-- `addPanel`; `stat` is `isStatPanel` of the endpoint. -/
def addPanel (stat : Bool) (panel : PanelConfig) (d : Dashboard) : Dashboard :=
  if (d.findIndex panel.id).isSome then d
  else
    let cols := if panel.cols = none ∨ panel.cols = some 0 then some (if stat then 1 else 2)
      else panel.cols
    { d with panels := d.panels ++ [.own { panel with cols }] }

/-- `removePanel`, behind its timeout. -/
def removePanel (id : Bytes) (d : Dashboard) : Dashboard :=
  ({ d with panels := d.panels.filter fun p => (p.get d.defaults).id ≠ id }).savePanelsToStorage

/-- `panelConfig.cols = ...; panelConfig.height = ...`. -/
def setSize (i : Nat) (cols height : Int) (d : Dashboard) : Dashboard :=
  let sized (panel : PanelConfig) : PanelConfig := { panel with cols := some cols, height := some height }
  match d.panels[i]? with
  | some (.shared j) => { d with defaults := d.defaults.modify j sized }
  | some (.own panel) => { d with panels := d.panels.set i (.own (sized panel)) }
  | none => d

/-- `stopResize`. -/
def stopResize (id : Bytes) (cols height : Int) (d : Dashboard) : Dashboard :=
  match d.findIndex id with
  | some i => (d.setSize i cols height).savePanelsToStorage
  | none => d

/-- `swapPanels`. -/
def swapPanels (draggedId targetId : Bytes) (d : Dashboard) : Dashboard :=
  match d.findIndex draggedId, d.findIndex targetId with
  | some i, some j =>
      match d.panels[i]? with
      | some removed => { d with panels := (d.panels.eraseIdx i).insertIdx j removed }
      | none => d
  | _, _ => d

/-- The listener for `drop`; the panel that is dropped on is empty if there is none. -/
def drop (targetId : Bytes) (d : Dashboard) : Dashboard :=
  if d.draggedPanelId ≠ [] ∧ targetId ≠ [] ∧ d.draggedPanelId ≠ targetId then
    d.swapPanels d.draggedPanelId targetId
  else d

/-- The listener for `dragend`, which the panel gets that was dragged, also when it was rendered
anew. -/
def dragend (d : Dashboard) : Dashboard := { d with draggedPanelId := [] }.savePanelsToStorage

end Dashboard

/-- What happens on the page. `addDatasource` and `setDefaultDatasource` come down to
`fetchDatasources`. -/
inductive DashboardEvent where
  | pageLoad
  | fetchDatasources (names : List Bytes) (dflt : Bytes)
  | deleteDatasource (name : Bytes)
  | initializeDashboard
  | selectDatasource (name : Bytes)
  | addPanel (stat : Bool) (panel : PanelConfig)
  | removePanel (id : Bytes)
  | stopResize (id : Bytes) (cols height : Int)
  | dragstart (id : Bytes)
  | drop (targetId : Bytes)
  | dragend

namespace Dashboard

/-- The page behind an event. -/
def step (d : Dashboard) : DashboardEvent → Dashboard
  | .pageLoad => pageLoad d.storage
  | .fetchDatasources names dflt => d.fetchDatasources names dflt
  | .deleteDatasource name => d.deleteDatasource name
  | .initializeDashboard => d.initializeDashboard
  | .selectDatasource name => d.selectDatasource name
  | .addPanel stat panel => d.addPanel stat panel
  | .removePanel id => d.removePanel id
  | .stopResize id cols height => d.stopResize id cols height
  | .dragstart id => { d with draggedPanelId := id }
  | .drop targetId => d.drop targetId
  | .dragend => d.dragend

/-- The page behind a sequence of events. -/
def run (d : Dashboard) (events : List DashboardEvent) : Dashboard := events.foldl step d

end Dashboard

end Svgd.Gate
