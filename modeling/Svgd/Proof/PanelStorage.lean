import Svgd.Proof.Layouts

/-!
# What a reload brings back

With one datasource active all the time, the page restores what is stored under its key. An
operation that removes, resizes or drags a panel ends in saving the list; one that adds a
panel does not. So behind each operation the stored list is the one on screen, or shorter.
-/

namespace Svgd.Gate

open Lib

/-- An operation of the user on the panels, from its first event to its last. -/
inductive PanelOp where
  | add (stat : Bool) (panel : PanelConfig)
  | remove (id : Bytes)
  | resize (id : Bytes) (cols height : Int)
  /-- A panel is dropped on another, or on none. -/
  | drag (id targetId : Bytes)

namespace Dashboard

/-- The panel is on screen. -/
def onScreen (d : Dashboard) (id : Bytes) : Bool := (d.findIndex id).isSome

/-- The events of an operation; a panel that is not on screen has no buttons and no handles. -/
def eventsOf (d : Dashboard) : PanelOp → List DashboardEvent
  | .add stat panel => [.addPanel stat panel]
  | .remove id => if d.onScreen id then [.removePanel id] else []
  | .resize id cols height => if d.onScreen id then [.stopResize id cols height] else []
  | .drag id targetId => if d.onScreen id then [.dragstart id, .drop targetId, .dragend] else []

/-- The page behind an operation. -/
def perform (d : Dashboard) (op : PanelOp) : Dashboard := d.run (d.eventsOf op)

/-- The page that is opened: the datasources are fetched, which may fail, and the dashboard is
initialised. -/
def opened (storage : LocalStorage) (answer : Option (List Bytes × Bytes)) : Dashboard :=
  match answer with
  | some (names, dflt) => ((pageLoad storage).fetchDatasources names dflt).initializeDashboard
  | none => (pageLoad storage).initializeDashboard

/-- The operation adds a panel. -/
def adds (d : Dashboard) : PanelOp → Bool
  | .add _ panel => !d.onScreen panel.id
  | _ => false

/-- The operation saves the list. -/
def saves (d : Dashboard) : PanelOp → Bool
  | .add _ _ => false
  | .remove id => d.onScreen id
  | .resize id _ _ => d.onScreen id
  | .drag id _ => d.onScreen id

/-- Whether a panel was added and nothing saved since. -/
def addedUnsaved : Dashboard → Bool → List PanelOp → Bool
  | _, pending, [] => pending
  | d, pending, op :: ops => (d.perform op).addedUnsaved (d.adds op || (pending && !d.saves op)) ops

/-- The panels for a text in the storage. -/
def parsed : PanelsText → List PanelConfig
  | .json panels => panels
  | .broken => defaultPanels

/-- What `initializeDashboard` finds for a key. -/
def restored (storage : LocalStorage) (key : Bytes) : List PanelConfig :=
  match storage.panels key with
  | some text => parsed text
  | none =>
      match storage.panels legacyKey with
      | some text => parsed text
      | none => defaultPanels

end Dashboard

variable {d : Dashboard}

/-! ## Opening the page -/

theorem key_ne_legacy (d : Dashboard) : d.key ≠ legacyKey := by
  intro h
  have hlen := congrArg List.length h
  unfold Dashboard.key getPanelsStorageKey legacyKey at hlen
  rw [List.length_append] at hlen
  have hstem : (str "svgd-panels-").length = 12 := by decide
  have hlegacy : (str "svgd-panels").length = 11 := by decide
  omega

theorem list_own (d : Dashboard) (panels : List PanelConfig) :
    ({ d with panels := panels.map .own } : Dashboard).list = panels := by
  show (panels.map PanelRef.own).map (PanelRef.get d.defaults) = panels
  rw [List.map_map]
  exact List.map_id' _

theorem list_defaultRefs (h : d.defaults = defaultPanels) :
    ({ d with panels := d.defaultRefs } : Dashboard).list = defaultPanels := by
  show ((List.range d.defaults.length).map PanelRef.shared).map (PanelRef.get d.defaults)
    = defaultPanels
  rw [h]
  rfl

theorem list_parsePanels (h : d.defaults = defaultPanels) (text : PanelsText) :
    ({ d with panels := d.parsePanels (some text) } : Dashboard).list = Dashboard.parsed text := by
  cases text with
  | json panels => exact list_own d panels
  | broken => exact list_defaultRefs h

theorem initializeDashboard_own {text : PanelsText} (h : d.storage.panels d.key = some text) :
    d.initializeDashboard = { d with panels := d.parsePanels (some text) } := by
  unfold Dashboard.initializeDashboard
  rw [h]

theorem initializeDashboard_legacy {text : PanelsText} (h : d.storage.panels d.key = none)
    (hlegacy : d.storage.panels legacyKey = some text) :
    d.initializeDashboard = (({ d with panels := d.parsePanels (some text) } :
      Dashboard).savePanelsToStorage.setPanelsItem legacyKey none) := by
  unfold Dashboard.initializeDashboard
  rw [h, hlegacy]

theorem initializeDashboard_new (h : d.storage.panels d.key = none)
    (hlegacy : d.storage.panels legacyKey = none) :
    d.initializeDashboard = { d with panels := d.defaultRefs } := by
  unfold Dashboard.initializeDashboard
  rw [h, hlegacy]

/-- What was saved is restored, whatever becomes of the old item. -/
theorem restored_save (d : Dashboard) :
    Dashboard.restored d.savePanelsToStorage.storage d.savePanelsToStorage.key
        = d.savePanelsToStorage.list
      ∧ Dashboard.restored (d.savePanelsToStorage.setPanelsItem legacyKey none).storage d.key
        = d.list := by
  have hitem : d.savePanelsToStorage.storage.panels d.key = some (.json d.list) :=
    Function.update_self d.key _ _
  have hkept : (d.savePanelsToStorage.setPanelsItem legacyKey none).storage.panels d.key
      = some (.json d.list) := by
    show Function.update d.savePanelsToStorage.storage.panels legacyKey none d.key = _
    rw [Function.update_of_ne (key_ne_legacy d)]
    exact hitem
  constructor
  · show Dashboard.restored _ d.key = d.list
    rw [Dashboard.restored, hitem]
    rfl
  · rw [Dashboard.restored, hkept]
    rfl

/-- The page shows what it restores, and would restore it again. -/
theorem initializeDashboard_spec (h : d.defaults = defaultPanels) :
    d.initializeDashboard.activeDatasource = d.activeDatasource
      ∧ d.initializeDashboard.list = Dashboard.restored d.storage d.key
      ∧ Dashboard.restored d.initializeDashboard.storage d.key = d.initializeDashboard.list := by
  cases hown : d.storage.panels d.key with
  | some text =>
      have hlist := list_parsePanels h text
      have hrestored : Dashboard.restored d.storage d.key = Dashboard.parsed text := by
        rw [Dashboard.restored, hown]
      rw [initializeDashboard_own hown]
      exact ⟨rfl, hlist.trans hrestored.symm, hrestored.trans hlist.symm⟩
  | none =>
      cases hlegacy : d.storage.panels legacyKey with
      | some text =>
          have hlist := list_parsePanels h text
          have hrestored : Dashboard.restored d.storage d.key = Dashboard.parsed text := by
            rw [Dashboard.restored, hown, hlegacy]
          have hsaved := (restored_save { d with panels := d.parsePanels (some text) }).2
          rw [initializeDashboard_legacy hown hlegacy]
          exact ⟨rfl, hlist.trans hrestored.symm, hsaved⟩
      | none =>
          have hlist := list_defaultRefs h
          have hrestored : Dashboard.restored d.storage d.key = defaultPanels := by
            rw [Dashboard.restored, hown, hlegacy]
          rw [initializeDashboard_new hown hlegacy]
          exact ⟨rfl, hlist.trans hrestored.symm, hrestored.trans hlist.symm⟩

/-- A page that is opened shows what is stored under the key it ends up with. -/
theorem opened_spec (storage : LocalStorage) (answer : Option (List Bytes × Bytes)) :
    (Dashboard.opened storage answer).list
        = Dashboard.restored storage (Dashboard.opened storage answer).key
      ∧ Dashboard.restored (Dashboard.opened storage answer).storage
          (Dashboard.opened storage answer).key = (Dashboard.opened storage answer).list := by
  have hspec : ∀ d : Dashboard, d.defaults = defaultPanels → d.storage = storage →
      d.initializeDashboard.list = Dashboard.restored storage d.initializeDashboard.key
        ∧ Dashboard.restored d.initializeDashboard.storage d.initializeDashboard.key
          = d.initializeDashboard.list := by
    intro d hdefaults hstorage
    obtain ⟨hactive, hlist, hagain⟩ := initializeDashboard_spec hdefaults
    rw [Dashboard.key_congr hactive, ← hstorage]
    exact ⟨hlist, hagain⟩
  cases answer with
  | none => exact hspec _ rfl rfl
  | some answer => exact hspec _ rfl rfl

/-! ## Operations -/

theorem perform_remove (d : Dashboard) (id : Bytes) :
    d.perform (.remove id) = if d.onScreen id then d.removePanel id else d := by
  show d.run (if d.onScreen id then [.removePanel id] else []) = _
  split <;> rfl

theorem perform_resize (d : Dashboard) (id : Bytes) (cols height : Int) :
    d.perform (.resize id cols height) = if d.onScreen id then d.stopResize id cols height else d := by
  show d.run (if d.onScreen id then [.stopResize id cols height] else []) = _
  split <;> rfl

theorem perform_drag (d : Dashboard) (id targetId : Bytes) :
    d.perform (.drag id targetId)
      = if d.onScreen id then (({ d with draggedPanelId := id } : Dashboard).drop targetId).dragend
        else d := by
  show d.run (if d.onScreen id then [.dragstart id, .drop targetId, .dragend] else []) = _
  split <;> rfl

/-- **What an operation does**: it adds a panel, saves the list, or does nothing. -/
theorem perform_cases (d : Dashboard) (op : PanelOp) :
    (d.perform op).activeDatasource = d.activeDatasource ∧
    ((d.adds op = true ∧ d.saves op = false ∧ (d.perform op).storage = d.storage
        ∧ (d.perform op).list.length = d.list.length + 1)
      ∨ (d.adds op = false ∧ d.saves op = true ∧ ∃ d' : Dashboard, d.perform op = d'.savePanelsToStorage)
      ∨ (d.adds op = false ∧ d.saves op = false ∧ d.perform op = d)) := by
  cases op with
  | add stat panel =>
      have hadds : d.adds (.add stat panel) = !d.onScreen panel.id := rfl
      have hperform : d.perform (.add stat panel) = d.addPanel stat panel := rfl
      rw [hadds, hperform]
      by_cases hfind : d.onScreen panel.id = true
      · have hsame : d.addPanel stat panel = d := if_pos hfind
        rw [hsame, hfind]
        exact ⟨rfl, .inr (.inr ⟨rfl, rfl, rfl⟩)⟩
      · obtain ⟨ref, hadd⟩ : ∃ ref, d.addPanel stat panel = { d with panels := d.panels ++ [ref] } :=
          ⟨_, if_neg hfind⟩
        rw [hadd, Bool.eq_false_iff.mpr hfind]
        refine ⟨rfl, .inl ⟨rfl, rfl, rfl, ?_⟩⟩
        show ((d.panels ++ [ref]).map _).length = (d.panels.map _).length + 1
        rw [List.length_map, List.length_append, List.length_map]
        rfl
  | remove id =>
      have hsaves : d.saves (.remove id) = d.onScreen id := rfl
      rw [hsaves, perform_remove]
      cases hfind : d.onScreen id with
      | false => exact ⟨rfl, .inr (.inr ⟨rfl, rfl, rfl⟩)⟩
      | true => exact ⟨rfl, .inr (.inl ⟨rfl, rfl, _, rfl⟩)⟩
  | resize id cols height =>
      have hsaves : d.saves (.resize id cols height) = d.onScreen id := rfl
      rw [hsaves, perform_resize]
      cases hfind : d.onScreen id with
      | false => exact ⟨rfl, .inr (.inr ⟨rfl, rfl, rfl⟩)⟩
      | true =>
          obtain ⟨i, hi⟩ := Option.isSome_iff_exists.mp hfind
          have hactive := (d.setSize_frame i cols height).1
          rw [if_pos rfl, Dashboard.stopResize_of_some hi cols height]
          exact ⟨hactive, .inr (.inl ⟨rfl, rfl, _, rfl⟩)⟩
  | drag id targetId =>
      have hsaves : d.saves (.drag id targetId) = d.onScreen id := rfl
      rw [hsaves, perform_drag]
      cases hfind : d.onScreen id with
      | false => exact ⟨rfl, .inr (.inr ⟨rfl, rfl, rfl⟩)⟩
      | true =>
          have hactive := (({ d with draggedPanelId := id } : Dashboard).drop_frame targetId).1
          exact ⟨hactive, .inr (.inl ⟨rfl, rfl, _, rfl⟩)⟩

/-- The list on screen is stored, or it is longer than the stored one because of a panel that
was added. -/
def StoredUpTo (d : Dashboard) (pending : Bool) : Prop :=
  if pending then (Dashboard.restored d.storage d.key).length < d.list.length
  else Dashboard.restored d.storage d.key = d.list

/-- **The step.** -/
theorem StoredUpTo.perform {pending : Bool} (h : StoredUpTo d pending) (op : PanelOp) :
    StoredUpTo (d.perform op) (d.adds op || (pending && !d.saves op)) := by
  obtain ⟨hactive, hcases⟩ := perform_cases d op
  have hkey := Dashboard.key_congr hactive
  rcases hcases with ⟨hadds, hsaves, hstorage, hlen⟩ | ⟨hadds, hsaves, d', heq⟩ | ⟨hadds, hsaves, heq⟩
  · rw [hadds]
    show (Dashboard.restored (d.perform op).storage (d.perform op).key).length < _
    rw [hstorage, hkey, hlen]
    cases pending with
    | false =>
        have hstored : Dashboard.restored d.storage d.key = d.list := h
        rw [hstored]
        exact Nat.lt_succ_self _
    | true => exact Nat.lt_succ_of_lt h
  · rw [hadds, hsaves, heq, Bool.not_true, Bool.and_false]
    exact (restored_save d').1
  · rw [hadds, hsaves, heq, Bool.not_false, Bool.and_true]
    exact h

/-- **The run.** -/
theorem StoredUpTo.performAll {pending : Bool} (h : StoredUpTo d pending) (ops : List PanelOp) :
    StoredUpTo (ops.foldl Dashboard.perform d) (d.addedUnsaved pending ops)
      ∧ (ops.foldl Dashboard.perform d).activeDatasource = d.activeDatasource := by
  induction ops generalizing d pending with
  | nil => exact ⟨h, rfl⟩
  | cons op ops ih =>
      obtain ⟨hstored, hactive⟩ := ih (h.perform op)
      exact ⟨hstored, hactive.trans (perform_cases d op).1⟩

/-! ## Reloading -/

/-- The page is opened, the operations are performed, and it is opened again. -/
def Restores (storage : LocalStorage) (answer answer' : Option (List Bytes × Bytes))
    (ops : List PanelOp) : Prop :=
  (Dashboard.opened (ops.foldl Dashboard.perform (Dashboard.opened storage answer)).storage answer').list
    = (ops.foldl Dashboard.perform (Dashboard.opened storage answer)).list

/--
**A reload restores the panels on screen exactly if the last panel that was added has been
followed by an operation that saves.**

The active datasource is the same on both pages.
-/
theorem panels_restored_iff (storage : LocalStorage) (answer answer' : Option (List Bytes × Bytes))
    (ops : List PanelOp)
    (hactive : (Dashboard.opened (ops.foldl Dashboard.perform (Dashboard.opened storage answer)).storage
      answer').activeDatasource = (Dashboard.opened storage answer).activeDatasource) :
    Restores storage answer answer' ops
      ↔ (Dashboard.opened storage answer).addedUnsaved false ops = false := by
  have hopened : StoredUpTo (Dashboard.opened storage answer) false := (opened_spec storage answer).2
  obtain ⟨hstored, hsame⟩ := hopened.performAll ops
  have hlist := (opened_spec (ops.foldl Dashboard.perform (Dashboard.opened storage answer)).storage
    answer').1
  rw [Dashboard.key_congr (hactive.trans hsame.symm)] at hlist
  unfold Restores
  rw [hlist]
  unfold StoredUpTo at hstored
  cases hpending : (Dashboard.opened storage answer).addedUnsaved false ops with
  | false =>
      rw [hpending] at hstored
      exact iff_of_true hstored rfl
  | true =>
      rw [hpending] at hstored
      refine iff_of_false (fun heq => ?_) (by decide)
      rw [if_pos rfl, heq] at hstored
      exact absurd hstored (Nat.lt_irrefl _)

/-- A storage with nothing in it. -/
def emptyStorage : LocalStorage := ⟨[], fun _ => none⟩

/-- A panel for the disks. -/
def diskPanel : PanelConfig := { id := str "disk", endpoint := str "disk", title := str "Disk" }

/-- A panel is added and another one resized. -/
theorem panels_restored_resize :
    Restores emptyStorage none none [.add false diskPanel, .resize (str "cpu") 3 300] :=
  (panels_restored_iff emptyStorage none none [.add false diskPanel, .resize (str "cpu") 3 300]
    rfl).mpr rfl

/-- A panel is added and the page reloaded. -/
theorem added_panel_lost : ¬ ∀ storage answer answer' ops,
    (Dashboard.opened (ops.foldl Dashboard.perform (Dashboard.opened storage answer)).storage
      answer').activeDatasource = (Dashboard.opened storage answer).activeDatasource →
    Restores storage answer answer' ops := by
  intro h
  have hrestores := h emptyStorage none none [.add false diskPanel] rfl
  unfold Restores at hrestores
  exact absurd (congrArg List.length hrestores) (by decide)

end Svgd.Gate
