import Svgd.Gate.Dashboard
import Svgd.Lib.Board

/-!
# The pictures on the page

`renderPanels`, `updatePanel`, `updateAllPanels` and `fetchSVG` of `gate/static/script.js`, over
the dashboard. An update goes through its panels one at a time and waits for each answer; any
number of updates may be under way, and their answers arrive in any order. Whatever runs up to
an `await` or a timer is one event.

An update writes into the element it found when it asked, which may have left the document by
the time the answer arrives. So elements have numbers: rendering makes new ones.

The size of a picture, which the layout of the page gives, is left out of its request.
-/

namespace Svgd.Gate

open Lib

/-- What `fetchSVG` asks for; without an active datasource the URL names none. -/
structure PanelRequest where
  endpoint : Bytes
  period : Int
  datasource : Bytes
deriving DecidableEq, Repr

/-- What `setTimeout` is waiting to do. -/
inductive PageTimer where
  /-- The end of `removePanel`, with the element it found. -/
  | remove (id : Bytes) (element : Nat)
  /-- The end of `toggleFullscreen`: `updatePanel` of a panel. -/
  | update (id endpoint : Bytes)
deriving DecidableEq

structure Page where
  dashboard : Dashboard
  currentPeriod : Int := 3600
  searchTerm : Bytes := []
  /-- The elements `graph-<id>` of the document, with the id of their panel. -/
  elements : List (Bytes × Nat) := []
  /-- What the elements show, and the requests on their way; a picture, or an error text. -/
  board : Board Nat PanelRequest (Except Bytes Bytes) := {}
  /-- The panels an update goes on with behind the answer to a request. -/
  rests : Nat → List (Bytes × Bytes) := fun _ => []
  timers : List PageTimer := []
  nextElement : Nat := 0

/-- What happens on the page. -/
inductive PageEvent where
  | dashboard (e : DashboardEvent)
  /-- A click on the button that removes a panel. -/
  | removePanel (id : Bytes)
  /-- The button for the full screen, or the escape key. -/
  | toggleFullscreen (id : Bytes)
  /-- A timer fires. -/
  | fire (i : Nat)
  | refreshPanel (id : Bytes)
  /-- The button that refreshes all panels, the refresh timer, or the timer of a resize. -/
  | updateAllPanels
  /-- An entry of the time range menu. -/
  | setPeriod (period : Int)
  | search (term : Bytes)
  /-- An answer arrives, or waiting for it is given up. -/
  | arrive (i : Nat) (result : Except Bytes Bytes)

namespace Page

/-- `document.getElementById('graph-' + id)`. -/
def element (p : Page) (id : Bytes) : Option Nat :=
  (p.elements.find? (·.1 == id)).map (·.2)

/-- The request of `updatePanel` for an element, in an update that goes on with `rest`. -/
def fetchSVG (p : Page) (n : Nat) (endpoint : Bytes) (rest : List (Bytes × Bytes)) : Page := { p with
  board := p.board.ask n ⟨endpoint, p.currentPeriod, p.dashboard.activeDatasource⟩
  rests := Function.update p.rests p.board.sent rest }

/-- `updatePanel` of the first of these panels that has an element, up to its request. -/
def advance (p : Page) : List (Bytes × Bytes) → Page
  | [] => p
  | (id, endpoint) :: rest =>
      match p.element id with
      | none => p.advance rest
      | some n => p.fetchSVG n endpoint rest

/-- What an update reads of a panel. -/
def target (panel : PanelConfig) : Bytes × Bytes := (panel.id, panel.endpoint)

/-- The panels of `updateAllPanels`; `lower` is `toLowerCase`. -/
def visiblePanels (lower : Bytes → Bytes) (p : Page) : List PanelConfig :=
  p.dashboard.list.filter fun panel =>
    p.searchTerm = [] ∨ (strstr (lower panel.title) (lower p.searchTerm)).isSome

def updateAllPanels (lower : Bytes → Bytes) (p : Page) : Page :=
  p.advance ((p.visiblePanels lower).map target)

/-- New elements for all panels. -/
def withElements (p : Page) : Page := { p with
  elements := (p.dashboard.list.map (·.id)).zipIdx p.nextElement
  nextElement := p.nextElement + p.dashboard.list.length }

def renderPanels (lower : Bytes → Bytes) (p : Page) : Page :=
  p.withElements.updateAllPanels lower

/-- The document is loaded. -/
def load (storage : LocalStorage) : Page where
  dashboard := Dashboard.pageLoad storage

/-- `swapPanels` finds both panels, and renders. -/
def swaps (d : Dashboard) (targetId : Bytes) : Bool :=
  d.draggedPanelId ≠ [] ∧ targetId ≠ [] ∧ d.draggedPanelId ≠ targetId
    ∧ (d.findIndex d.draggedPanelId).isSome ∧ (d.findIndex targetId).isSome

/-- An event of the dashboard, with what its handler renders. -/
def dashboardStep (lower : Bytes → Bytes) (p : Page) (e : DashboardEvent) : Page :=
  let behind := { p with dashboard := p.dashboard.step e }
  match e with
  | .pageLoad => load p.dashboard.storage
  | .initializeDashboard => behind.renderPanels lower
  | .selectDatasource _ => behind.renderPanels lower
  | .addPanel _ panel =>
      if (p.dashboard.findIndex panel.id).isSome then p else behind.renderPanels lower
  | .drop targetId => if swaps p.dashboard targetId then behind.renderPanels lower else behind
  -- a panel is removed by a timer
  | .removePanel _ => p
  | _ => behind

/-- What a timer does. -/
def fire (p : Page) : PageTimer → Page
  | .remove id n => { p with
      dashboard := p.dashboard.step (.removePanel id)
      elements := p.elements.filter fun x => x.2 ≠ n }
  | .update id endpoint => p.advance [(id, endpoint)]

/-- The page behind an event. -/
def step (lower : Bytes → Bytes) (p : Page) : PageEvent → Page
  | .dashboard e => p.dashboardStep lower e
  | .removePanel id =>
      match p.element id with
      | some n => { p with timers := p.timers ++ [.remove id n] }
      | none => p
  | .toggleFullscreen id =>
      match p.element id, p.dashboard.list.find? (·.id == id) with
      | some _, some panel => { p with timers := p.timers ++ [.update panel.id panel.endpoint] }
      | _, _ => p
  | .fire i =>
      match p.timers[i]? with
      | some timer => { p with timers := p.timers.eraseIdx i }.fire timer
      | none => p
  | .refreshPanel id =>
      match p.dashboard.list.find? (·.id == id) with
      | some panel => p.advance [target panel]
      | none => p
  | .updateAllPanels => p.updateAllPanels lower
  | .setPeriod period => { p with currentPeriod := period }.updateAllPanels lower
  | .search term => { p with searchTerm := term }
  | .arrive i result =>
      match p.board.flying[i]? with
      | some f => { p with board := p.board.answer i result }.advance (p.rests f.serial)
      | none => p

/-- The page behind a sequence of events. -/
def run (lower : Bytes → Bytes) (p : Page) (events : List PageEvent) : Page :=
  events.foldl (step lower) p

end Page

end Svgd.Gate
