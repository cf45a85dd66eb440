import Svgd.Proof.PanelPictures
import Mathlib.Data.List.Find

/-!
# When the panels settle

If the answers for each element arrive in the order of their requests, then a page with nothing
on its way shows in every panel a picture of the current period, and of the active datasource
if that was changed by selections only.

What carries this is `Covered`: the last request for a panel was one of the current period, or
an update under way will still come to the panel. A change of the period and a rendering start
an update that covers all panels, and an update covers a panel until it has asked for it.
-/

namespace Svgd.Gate

open Lib

namespace Dashboard

variable {d : Dashboard}

/-- The ids of the panels. -/
def ids (d : Dashboard) : List Bytes := d.list.map (·.id)

theorem ids_setSize (d : Dashboard) (i : Nat) (cols height : Int) : (d.setSize i cols height).ids = d.ids := by
  have hsized : ∀ panel : PanelConfig,
      ({ panel with cols := some cols, height := some height } : PanelConfig).id = panel.id := fun _ => rfl
  unfold setSize
  dsimp only
  split
  · rename_i j _
    -- the object is shared, so it may stand in the list more than once
    have hget : ∀ ref : PanelRef, (ref.get (d.defaults.modify j fun panel =>
        { panel with cols := some cols, height := some height })).id = (ref.get d.defaults).id := by
      intro ref
      cases ref with
      | own panel => rfl
      | shared k =>
          unfold PanelRef.get
          dsimp only
          rw [List.getD_eq_getElem?_getD, List.getD_eq_getElem?_getD, List.getElem?_modify]
          cases d.defaults[k]? with
          | none => rfl
          | some panel =>
              rw [Option.map_eq_map, Option.map_some, Option.getD_some, Option.getD_some]
              split <;> rfl
    unfold ids list
    rw [List.map_map, List.map_map]
    exact List.map_congr_left fun ref _ => hget ref
  · rename_i panel hget
    unfold ids list
    dsimp only
    rw [List.map_map, List.map_map, List.map_set]
    have hid : (d.panels.map ((·.id) ∘ PanelRef.get d.defaults))[i]? = some panel.id := by
      rw [List.getElem?_map, hget]
      rfl
    obtain ⟨hi, hval⟩ := List.getElem?_eq_some_iff.mp hid
    exact (congrArg _ hval.symm).trans (List.set_getElem_self hi)
  · rfl

theorem ids_removePanel (d : Dashboard) (id : Bytes) :
    ∀ id' ∈ (d.removePanel id).ids, id' ∈ d.ids ∧ id' ≠ id := by
  intro id' h
  have hlist : (d.removePanel id).ids = (((d.panels.filter fun p => (p.get d.defaults).id ≠ id).map
    (PanelRef.get d.defaults)).map (·.id)) := rfl
  rw [hlist, List.map_map] at h
  obtain ⟨ref, href, rfl⟩ := List.mem_map.mp h
  obtain ⟨hmem, hne⟩ := List.mem_filter.mp href
  refine ⟨?_, by simpa using hne⟩
  unfold ids list
  rw [List.map_map]
  exact List.mem_map.mpr ⟨ref, hmem, rfl⟩

theorem drop_of_not_swaps {targetId : Bytes} (h : Page.swaps d targetId = false) :
    d.drop targetId = d := by
  unfold Page.swaps at h
  rw [decide_eq_false_iff_not] at h
  unfold drop
  split
  · rename_i hcond
    unfold swapPanels
    split
    · rename_i i j hi hj
      exact absurd ⟨hcond.1, hcond.2.1, hcond.2.2, by rw [hi]; rfl, by rw [hj]; rfl⟩ h
    · rfl
  · rfl

end Dashboard

namespace Page

variable {p q : Page} {lower : Bytes → Bytes}

/-- The last request for the element was one of the current period, or an update that is under
way will come to the panel. -/
def Covered (p : Page) (id : Bytes) (n : Nat) : Prop :=
  (∃ s r, p.board.latest n = some (s, r) ∧ r.period = p.currentPeriod)
    ∨ ∃ f ∈ p.board.flying, id ∈ (p.rests f.serial).map (·.1)

/-- **An update covers its panels until it has asked for them.** -/
theorem covered_advance (hnum : p.board.Numbered) {rest : List (Bytes × Bytes)} {id : Bytes} {n : Nat}
    (hel : p.element id = some n) (h : p.Covered id n ∨ id ∈ rest.map (·.1)) :
    (p.advance rest).Covered id n := by
  rcases p.advance_cases rest with ⟨heq, hnone⟩ | ⟨skipped, id', endpoint, rest', m, hr, hskip, hm, heq⟩
  · rw [heq]
    refine h.resolve_right fun hmem => ?_
    obtain ⟨x, hx, rfl⟩ := List.mem_map.mp hmem
    exact absurd hel (by rw [hnone x hx]; simp)
  · rw [heq]
    by_cases hnm : n = m
    · subst hnm
      exact .inl ⟨_, _, Board.latest_ask _ _ _, rfl⟩
    have hlatest : ((p.fetchSVG m endpoint rest').board.latest n) = p.board.latest n :=
      Board.latest_ask_of_ne hnm
    have hlater : id ∈ rest'.map (·.1) → (p.fetchSVG m endpoint rest').Covered id n := by
      intro hmem
      refine .inr ⟨_, Board.mem_flying_ask.mpr (.inr rfl), ?_⟩
      exact (congrArg (fun l => id ∈ l.map (·.1))
        (Function.update_self (f := p.rests) p.board.sent rest')).mpr hmem
    rcases h with (⟨s, r, hl, hperiod⟩ | ⟨f, hf, hmem⟩) | hmem
    · exact .inl ⟨s, r, hlatest.trans hl, hperiod⟩
    · refine .inr ⟨f, Board.mem_flying_ask.mpr (.inl hf), ?_⟩
      have hne : f.serial ≠ p.board.sent := Nat.ne_of_lt (hnum.below f hf)
      exact (congrArg (fun l => id ∈ l.map (·.1)) (Function.update_of_ne hne rest' p.rests)).mpr hmem
    · rw [hr, List.map_append, List.map_cons, List.mem_append, List.mem_cons] at hmem
      rcases hmem with hmem | rfl | hmem
      · obtain ⟨x, hx, rfl⟩ := List.mem_map.mp hmem
        exact absurd hel (by rw [hskip x hx]; simp)
      · exact absurd (Option.some.inj (hel.symm.trans hm)) hnm
      · exact hlater hmem

/-! ## The invariant -/

/-- Elements, timers and requests belong together, and nothing is searched for. -/
structure Wired (p : Page) : Prop where
  tidy : p.board.Tidy
  /-- An element belongs to one panel. -/
  owner : ∀ x ∈ p.elements, ∀ y ∈ p.elements, x.2 = y.2 → x.1 = y.1
  below : ∀ x ∈ p.elements, x.2 < p.nextElement
  timers : ∀ id n, PageTimer.remove id n ∈ p.timers →
    n < p.nextElement ∧ ∀ x ∈ p.elements, x.2 = n → x.1 = id
  search : p.searchTerm = []

/-- Every panel with an element is covered. -/
structure SettleInv (p : Page) : Prop extends Wired p where
  covered : ∀ id ∈ p.dashboard.ids, ∀ n, p.element id = some n → p.Covered id n

/-- Or is one of those that an update will go through. -/
structure Ready (p : Page) (rest : List (Bytes × Bytes)) : Prop extends Wired p where
  covered : ∀ id ∈ p.dashboard.ids, ∀ n, p.element id = some n →
    p.Covered id n ∨ id ∈ rest.map (·.1)

theorem settleInv_load (storage : LocalStorage) : SettleInv (load storage) where
  tidy := Board.tidy_empty
  owner := by simp [load]
  below := by simp [load]
  timers := by simp [load]
  search := rfl
  covered := by simp [load, element]

theorem element_congr (h : q.elements = p.elements) (id : Bytes) : q.element id = p.element id := by
  unfold element
  rw [h]

/-- **The update.** -/
theorem Ready.advance {rest : List (Bytes × Bytes)} (h : Ready q rest) : SettleInv (q.advance rest) := by
  obtain ⟨hdash, -, hsearch, hels, htimers, hnext⟩ := q.advance_frame rest
  refine ⟨⟨?_, by rw [hels]; exact h.owner, by rw [hels, hnext]; exact h.below,
    by rw [hels, htimers, hnext]; exact h.timers, hsearch.trans h.search⟩, fun id hid n hel => ?_⟩
  · rcases q.advance_cases rest with ⟨heq, -⟩ | ⟨_, _, _, _, _, _, _, _, heq⟩
    · rw [heq]
      exact h.tidy
    · rw [heq]
      exact h.tidy.ask
  · rw [hdash] at hid
    rw [element_congr hels] at hel
    exact covered_advance h.tidy.toNumbered hel (h.covered id hid n hel)

/-- A page that goes on with an update of panels. -/
theorem SettleInv.ready (h : SettleInv p) (rest : List (Bytes × Bytes)) : Ready p rest where
  toWired := h.toWired
  covered := fun id hid n hel => .inl (h.covered id hid n hel)

/-- An update of all panels covers them, whatever was asked before. -/
theorem map_visiblePanels (hsearch : q.searchTerm = []) :
    ((q.visiblePanels lower).map target).map (·.1) = q.dashboard.ids := by
  have hall : q.visiblePanels lower = q.dashboard.list := by
    unfold visiblePanels
    exact List.filter_eq_self.mpr fun x _ => by simp [hsearch]
  rw [hall, List.map_map]
  rfl

theorem Wired.updateAllPanels (h : Wired q) : SettleInv (q.updateAllPanels lower) := by
  refine Ready.advance ⟨h, fun id hid n _ => .inr ?_⟩
  rw [map_visiblePanels h.search]
  exact hid

/-- Rendering makes new elements, one for each panel. -/
theorem SettleInv.render (h : SettleInv p) (d : Dashboard) :
    SettleInv (renderPanels lower { p with dashboard := d }) := by
  have hrange : ∀ x ∈ (withElements { p with dashboard := d }).elements,
      p.nextElement ≤ x.2 ∧ x.2 < (withElements { p with dashboard := d }).nextElement :=
    fun x hx => mem_withElements (p := { p with dashboard := d }) hx
  refine Wired.updateAllPanels ⟨h.tidy, fun x hx y hy hxy => ?_, fun x hx => (hrange x hx).2,
    fun id n ht => ?_, h.search⟩
  · have hx : x ∈ (d.list.map (·.id)).zipIdx p.nextElement := hx
    have hy : y ∈ (d.list.map (·.id)).zipIdx p.nextElement := hy
    obtain ⟨_, _, h1⟩ := List.mem_zipIdx hx
    obtain ⟨_, _, h2⟩ := List.mem_zipIdx hy
    rw [h1, h2]
    simp only [hxy]
  · have hn := (h.timers id n ht).1
    have hle : p.nextElement ≤ (withElements { p with dashboard := d }).nextElement :=
      Nat.le_add_right _ _
    refine ⟨by omega, fun x hx hxn => ?_⟩
    have := (hrange x hx).1
    omega

/-- The panels keep their ids, and nothing is rendered. -/
theorem SettleInv.keep (h : SettleInv p) {d : Dashboard} (hids : d.ids = p.dashboard.ids) :
    SettleInv { p with dashboard := d } where
  toWired := ⟨h.tidy, h.owner, h.below, h.timers, h.search⟩
  covered := fun id hid n hel => h.covered id (hids ▸ hid) n hel

theorem SettleInv.dashboardStep (h : SettleInv p) (e : DashboardEvent) :
    SettleInv (p.dashboardStep lower e) := by
  cases e with
  | pageLoad => exact settleInv_load _
  | initializeDashboard => exact h.render _
  | selectDatasource name => exact h.render _
  | addPanel stat panel =>
      unfold Page.dashboardStep
      dsimp only
      split
      · exact h
      · exact h.render _
  | drop targetId =>
      unfold Page.dashboardStep
      dsimp only
      split
      · exact h.render _
      · rename_i hswap
        refine h.keep ?_
        show (p.dashboard.drop targetId).ids = _
        rw [Dashboard.drop_of_not_swaps (by simpa using hswap)]
  | removePanel id => exact h
  | fetchDatasources names dflt => exact h.keep rfl
  | deleteDatasource name =>
      refine h.keep ?_
      show (p.dashboard.deleteDatasource name).ids = _
      unfold Dashboard.deleteDatasource
      split <;> rfl
  | stopResize id cols height =>
      refine h.keep ?_
      show (p.dashboard.stopResize id cols height).ids = _
      unfold Dashboard.stopResize
      split
      · exact Dashboard.ids_setSize _ _ _ _
      · rfl
  | dragstart id => exact h.keep rfl
  | dragend => exact h.keep rfl

/-- The end of `removePanel`. -/
theorem SettleInv.remove (h : SettleInv p) {id : Bytes} {n : Nat}
    (htimer : ∀ x ∈ p.elements, x.2 = n → x.1 = id) : SettleInv (p.fire (.remove id n)) := by
  have hsub : ∀ x ∈ (p.fire (.remove id n)).elements, x ∈ p.elements :=
    fun x hx => (List.mem_filter.mp hx).1
  refine ⟨⟨h.tidy, fun x hx y hy => h.owner x (hsub x hx) y (hsub y hy),
    fun x hx => h.below x (hsub x hx), fun id' n' ht => ?_, h.search⟩, fun id' hid m hel => ?_⟩
  · obtain ⟨h1, h2⟩ := h.timers id' n' ht
    exact ⟨h1, fun x hx => h2 x (hsub x hx)⟩
  · obtain ⟨hid, hne⟩ := Dashboard.ids_removePanel p.dashboard id id' hid
    refine h.covered id' hid m ?_
    -- the removed element was one of another panel
    have hfind : p.element id' = (p.fire (.remove id n)).element id' := by
      unfold element Page.fire
      dsimp only
      rw [List.find?_filter]
      refine congrArg _ (List.find?_congr fun x hx => ?_)
      by_cases hx' : x.1 = id'
      · have hxn : x.2 ≠ n := fun he => hne (hx'.symm.trans (htimer x hx he))
        simp [hx', hxn]
      · simp [hx']
    exact hfind.trans hel

/-- The answer to a request whose update goes on. -/
theorem SettleInv.arrive (h : SettleInv p) {i : Nat} (hin : p.board.InOrder i)
    {f : Outstanding Nat PanelRequest} (hf : p.board.flying[i]? = some f) (a : Except Bytes Bytes) :
    Ready { p with board := p.board.answer i a } (p.rests f.serial) where
  toWired := ⟨h.tidy.answer hin, h.owner, h.below, h.timers, h.search⟩
  covered id hid n hel := by
    rcases h.covered id hid n hel with ⟨s, r, hl, hperiod⟩ | ⟨g, hg, hmem⟩
    · exact .inl (.inl ⟨s, r, (congrFun (Board.latest_answer p.board i a) n).trans hl, hperiod⟩)
    · rcases Board.mem_flying_answer (a := a) hf hg with hs | hg
      · exact .inr (hs ▸ hmem)
      · exact .inl (.inr ⟨g, hg, hmem⟩)

/-- The event is no search, and an answer is one to the oldest request for its element. -/
def Orderly (p : Page) : PageEvent → Prop
  | .search _ => False
  | .arrive i _ => p.board.InOrder i
  | _ => True

/-- Every event of a run is orderly. -/
def OrderlyRun (lower : Bytes → Bytes) : Page → List PageEvent → Prop
  | _, [] => True
  | p, e :: es => p.Orderly e ∧ OrderlyRun lower (p.step lower e) es

/-- **The step.** -/
theorem SettleInv.step (h : SettleInv p) {e : PageEvent} (he : p.Orderly e) :
    SettleInv (p.step lower e) := by
  cases e with
  | dashboard e => exact h.dashboardStep e
  | removePanel id =>
      unfold Page.step
      dsimp only
      split
      · rename_i n hn
        refine ⟨⟨h.tidy, h.owner, h.below, fun id' n' ht => ?_, h.search⟩, h.covered⟩
        rcases List.mem_append.mp ht with ht | ht
        · exact h.timers id' n' ht
        · obtain ⟨rfl, rfl⟩ := PageTimer.remove.inj (List.mem_singleton.mp ht)
          have hmem := mem_of_element hn
          exact ⟨h.below _ hmem, fun x hx hxn => h.owner x hx _ hmem hxn⟩
      · exact h
  | toggleFullscreen id =>
      unfold Page.step
      dsimp only
      split
      · refine ⟨⟨h.tidy, h.owner, h.below, fun id' n' ht => ?_, h.search⟩, h.covered⟩
        rcases List.mem_append.mp ht with ht | ht
        · exact h.timers id' n' ht
        · exact absurd (List.mem_singleton.mp ht) (by simp)
      · exact h
  | fire i =>
      unfold Page.step
      dsimp only
      split
      · rename_i timer htimer
        have hmem : timer ∈ p.timers := List.mem_of_getElem? htimer
        have hrest : SettleInv { p with timers := p.timers.eraseIdx i } :=
          ⟨⟨h.tidy, h.owner, h.below, fun id' n' ht => h.timers id' n' (List.mem_of_mem_eraseIdx ht),
            h.search⟩, h.covered⟩
        cases timer with
        | remove id n => exact hrest.remove (h.timers id n hmem).2
        | update id endpoint => exact (hrest.ready _).advance
      · exact h
  | refreshPanel id =>
      unfold Page.step
      dsimp only
      split
      · exact (h.ready _).advance
      · exact h
  | updateAllPanels => exact h.toWired.updateAllPanels
  | setPeriod period =>
      have hwired : Wired { p with currentPeriod := period } :=
        ⟨h.tidy, h.owner, h.below, h.timers, h.search⟩
      exact hwired.updateAllPanels
  | search term => exact he.elim
  | arrive i result =>
      unfold Page.step
      dsimp only
      split
      · rename_i f hf
        exact (h.arrive he hf result).advance
      · exact h

/-- **The run.** -/
theorem SettleInv.run (events : List PageEvent) : ∀ {p : Page}, SettleInv p →
    OrderlyRun lower p events → SettleInv (p.run lower events) := by
  induction events with
  | nil => exact fun h _ => h
  | cons e events ih => exact fun h hrun => ih (h.step hrun.1) hrun.2

end Page

/--
**The panels settle.**

In a run from the load of the page on, in which nothing is searched for and the answers for each
element arrive in the order of their requests: when no request is on its way, every panel shows
the answer to a request for the current period; and for the active datasource, if that was
changed by selections only. An import and a reset of the layout are followed by a reload, which
ends the run.
-/
theorem pictures_settle (lower : Bytes → Bytes) (storage : LocalStorage) (events : List PageEvent)
    (horder : Page.OrderlyRun lower (Page.load storage) events)
    (hquiet : (pageAfter lower storage events).board.flying = [])
    (panel : PanelConfig) (hpanel : panel ∈ (pageAfter lower storage events).dashboard.list)
    (n : Nat) (hel : (pageAfter lower storage events).element panel.id = some n) :
    ∃ req res, (pageAfter lower storage events).board.shown n = some (req, res)
      ∧ req.period = (pageAfter lower storage events).currentPeriod
      ∧ (Selective lower storage events →
        req.datasource = (pageAfter lower storage events).dashboard.activeDatasource) := by
  have hinv : Page.SettleInv (pageAfter lower storage events) :=
    (Page.settleInv_load storage).run events horder
  have hid : panel.id ∈ (pageAfter lower storage events).dashboard.ids :=
    List.mem_map.mpr ⟨panel, hpanel, rfl⟩
  rcases hinv.covered panel.id hid n hel with ⟨s, req, hlatest, hperiod⟩ | ⟨f, hf, -⟩
  · rcases hinv.tidy.last n s req hlatest with hfly | ⟨⟨res, hshown⟩, -⟩
    · rw [hquiet] at hfly
      exact absurd hfly List.not_mem_nil
    · refine ⟨req, res, hshown, hperiod, fun hsel => ?_⟩
      obtain ⟨before, after, heq, hfree, -, hds, -⟩ :=
        (pictureInv_run events).shown _ (Page.mem_of_element hel) req res hshown
      rw [hds, active_of_selective hsel after before heq hfree]
  · rw [hquiet] at hf
    exact absurd hf List.not_mem_nil

/-- The page is initialized, and the pictures of the two default panels arrive. -/
def twoPictures : List PageEvent :=
  [.dashboard .initializeDashboard, .arrive 0 (.ok (str "<svg/>")), .arrive 0 (.ok (str "<svg/>"))]

/-- When both pictures of `twoPictures` are there, the first panel shows one. -/
theorem pictures_settle_two :
    ∃ req res, (pageAfter id freshStorage twoPictures).board.shown 0 = some (req, res)
      ∧ req.period = 3600 := by
  have hsingle : ∀ (p : Page) (f : Outstanding Nat PanelRequest), p.board.flying = [f] →
      p.board.InOrder 0 := by
    intro p f hp g hg g' hg' _
    rw [hp] at hg hg'
    obtain rfl := Option.some.inj hg
    rw [List.mem_singleton.mp hg']
  have horder : Page.OrderlyRun id (Page.load freshStorage) twoPictures :=
    ⟨trivial, hsingle _ ⟨0, 0, ⟨str "cpu", 3600, str "default"⟩⟩ rfl,
      hsingle _ ⟨1, 1, ⟨str "ram", 3600, str "default"⟩⟩ rfl, trivial⟩
  obtain ⟨req, res, hshown, hperiod, -⟩ := pictures_settle id freshStorage twoPictures horder rfl
    ⟨str "cpu", str "cpu", str "CPU Total Usage", some 2, none⟩ List.mem_cons_self 0 rfl
  exact ⟨req, res, hshown, hperiod⟩

end Svgd.Gate
