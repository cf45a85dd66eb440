import Svgd.Gate.Pictures

/-!
# What the panels show

Answers to the requests of the page arrive in any order, while the user selects datasources,
changes the period, and adds, drags and removes panels. Whatever the order, a picture on the
page was asked for its own element, under the datasource and the period of that moment, and no
datasource has been selected since: a selection renders the panels anew, and an answer to an
older request goes into an element that has left the document.

The period is another matter: a change renders nothing, so an older answer may arrive last and
stay. If the answers for each element arrive in order, the page settles: when nothing is on its
way, every panel shows a picture of the current period.
-/

namespace Svgd.Gate

open Lib

namespace Page

variable {p : Page} {lower : Bytes → Bytes}

theorem mem_of_element {id : Bytes} {n : Nat} (h : p.element id = some n) : (id, n) ∈ p.elements := by
  unfold element at h
  obtain ⟨x, hx, rfl⟩ := Option.map_eq_some_iff.mp h
  have hid : x.1 = id := by simpa using List.find?_some hx
  rw [← hid]
  exact List.mem_of_find?_eq_some hx

/-- **What an update does next**: nothing, or it asks for the first panel that has an element. -/
theorem advance_cases (p : Page) : ∀ rest : List (Bytes × Bytes),
    (p.advance rest = p ∧ ∀ x ∈ rest, p.element x.1 = none)
      ∨ ∃ skipped id endpoint rest' n, rest = skipped ++ (id, endpoint) :: rest'
        ∧ (∀ x ∈ skipped, p.element x.1 = none) ∧ p.element id = some n
        ∧ p.advance rest = p.fetchSVG n endpoint rest'
  | [] => .inl ⟨rfl, by simp⟩
  | (id, endpoint) :: rest => by
      cases hid : p.element id with
      | some n =>
          refine .inr ⟨[], id, endpoint, rest, n, rfl, by simp, hid, ?_⟩
          rw [advance, hid]
      | none =>
          have hstep : p.advance ((id, endpoint) :: rest) = p.advance rest := by rw [advance, hid]
          rw [hstep]
          rcases advance_cases p rest with ⟨heq, hnone⟩ | ⟨skipped, id', e', rest', n, hr, hs, hn, heq⟩
          · exact .inl ⟨heq, List.forall_mem_cons.mpr ⟨hid, hnone⟩⟩
          · exact .inr ⟨(id, endpoint) :: skipped, id', e', rest', n, by rw [hr]; rfl,
              List.forall_mem_cons.mpr ⟨hid, hs⟩, hn, heq⟩

/-- An update changes nothing but the board. -/
theorem advance_frame (p : Page) (rest : List (Bytes × Bytes)) :
    (p.advance rest).dashboard = p.dashboard ∧ (p.advance rest).currentPeriod = p.currentPeriod
      ∧ (p.advance rest).searchTerm = p.searchTerm ∧ (p.advance rest).elements = p.elements
      ∧ (p.advance rest).timers = p.timers ∧ (p.advance rest).nextElement = p.nextElement := by
  rcases advance_cases p rest with ⟨heq, -⟩ | ⟨_, _, _, _, _, _, _, _, heq⟩
  · rw [heq]
    exact ⟨rfl, rfl, rfl, rfl, rfl, rfl⟩
  · rw [heq]
    exact ⟨rfl, rfl, rfl, rfl, rfl, rfl⟩

theorem mem_withElements {x : Bytes × Nat} (h : x ∈ p.withElements.elements) :
    p.nextElement ≤ x.2 ∧ x.2 < p.withElements.nextElement := by
  have hlen : (p.dashboard.list.map (·.id)).length = p.dashboard.list.length := List.length_map _
  have h : x ∈ (p.dashboard.list.map (·.id)).zipIdx p.nextElement := h
  have hnext : p.withElements.nextElement = p.nextElement + p.dashboard.list.length := rfl
  obtain ⟨hle, hlt, -⟩ := List.mem_zipIdx h
  rw [hnext]
  omega

end Page

/-! ## One step -/

/-- The events that render the panels for another datasource. -/
def PageEvent.Selects : PageEvent → Prop
  | .dashboard .pageLoad => True
  | .dashboard .initializeDashboard => True
  | .dashboard (.selectDatasource _) => True
  | _ => False

/-- The page `q` before an event starts or continues an update: the elements are old ones, or all
of them are new. -/
structure Prepared (p : Page) (e : PageEvent) (q : Page) : Prop where
  board : q.board = p.board ∨ ∃ i a, q.board = p.board.answer i a
  elements : (¬ e.Selects ∧ q.nextElement = p.nextElement ∧ ∀ x ∈ q.elements, x ∈ p.elements)
    ∨ ∀ x ∈ q.elements, p.nextElement ≤ x.2 ∧ x.2 < q.nextElement
  next : p.nextElement ≤ q.nextElement

namespace Page

variable {p : Page} {lower : Bytes → Bytes}

/-- Nothing but the variables changes. -/
theorem prepared_same {q : Page} {e : PageEvent} (he : ¬ e.Selects) (hboard : q.board = p.board)
    (helements : q.elements = p.elements) (hnext : q.nextElement = p.nextElement) :
    Prepared p e q where
  board := .inl hboard
  elements := .inl ⟨he, hnext, fun _ hx => helements ▸ hx⟩
  next := hnext.ge

theorem prepared_withElements {q : Page} (e : PageEvent) (hboard : q.board = p.board)
    (hnext : q.nextElement = p.nextElement) : Prepared p e q.withElements where
  board := .inl hboard
  elements := .inr fun _ hx => hnext ▸ mem_withElements hx
  next := by
    have : q.withElements.nextElement = q.nextElement + q.dashboard.list.length := rfl
    omega

/-- **What an event does**: the document is loaded, or a page that is prepared takes up an update. -/
theorem step_cases (lower : Bytes → Bytes) (p : Page) (e : PageEvent) :
    (∃ storage, p.step lower e = load storage)
      ∨ ∃ q rest, p.step lower e = q.advance rest ∧ Prepared p e q := by
  have hsame : ∀ q : Page, ¬ e.Selects → q.board = p.board → q.elements = p.elements →
      q.nextElement = p.nextElement → ∃ q' rest, q = q'.advance rest ∧ Prepared p e q' :=
    fun q he hb hx hn => ⟨q, [], rfl, prepared_same he hb hx hn⟩
  cases e with
  | dashboard e =>
      cases e with
      | pageLoad => exact .inl ⟨_, rfl⟩
      | initializeDashboard => exact .inr ⟨_, _, rfl, prepared_withElements _ rfl rfl⟩
      | selectDatasource name => exact .inr ⟨_, _, rfl, prepared_withElements _ rfl rfl⟩
      | addPanel stat panel =>
          right
          have hstep : p.step lower (.dashboard (.addPanel stat panel))
              = if (p.dashboard.findIndex panel.id).isSome then p else renderPanels lower
                { p with dashboard := p.dashboard.step (.addPanel stat panel) } := rfl
          rw [hstep]
          split
          · exact hsame p id rfl rfl rfl
          · exact ⟨_, _, rfl, prepared_withElements _ rfl rfl⟩
      | drop targetId =>
          right
          have hstep : p.step lower (.dashboard (.drop targetId))
              = if swaps p.dashboard targetId then renderPanels lower
                  { p with dashboard := p.dashboard.step (.drop targetId) }
                else { p with dashboard := p.dashboard.step (.drop targetId) } := rfl
          rw [hstep]
          split
          · exact ⟨_, _, rfl, prepared_withElements _ rfl rfl⟩
          · exact hsame _ id rfl rfl rfl
      | fetchDatasources names dflt => exact .inr (hsame _ id rfl rfl rfl)
      | deleteDatasource name => exact .inr (hsame _ id rfl rfl rfl)
      | removePanel id' => exact .inr (hsame _ id rfl rfl rfl)
      | stopResize id' cols height => exact .inr (hsame _ id rfl rfl rfl)
      | dragstart id' => exact .inr (hsame _ id rfl rfl rfl)
      | dragend => exact .inr (hsame _ id rfl rfl rfl)
  | removePanel id' =>
      right
      unfold step
      dsimp only
      split <;> exact hsame _ id rfl rfl rfl
  | toggleFullscreen id' =>
      right
      unfold step
      dsimp only
      split <;> exact hsame _ id rfl rfl rfl
  | fire i =>
      right
      unfold step
      dsimp only
      split
      · rename_i timer _
        cases timer with
        | remove id' n =>
            refine ⟨_, [], rfl, .inl rfl, .inl ⟨id, rfl, fun x hx => ?_⟩, le_rfl⟩
            exact (List.mem_filter.mp hx).1
        | update id' endpoint => exact ⟨_, _, rfl, prepared_same id rfl rfl rfl⟩
      · exact hsame _ id rfl rfl rfl
  | refreshPanel id' =>
      right
      unfold step
      dsimp only
      split
      · exact ⟨_, _, rfl, prepared_same id rfl rfl rfl⟩
      · exact hsame _ id rfl rfl rfl
  | updateAllPanels => exact .inr ⟨_, _, rfl, prepared_same id rfl rfl rfl⟩
  | setPeriod period => exact .inr ⟨_, _, rfl, prepared_same id rfl rfl rfl⟩
  | search term => exact .inr (hsame _ id rfl rfl rfl)
  | arrive i result =>
      right
      unfold step
      dsimp only
      split
      · exact ⟨_, _, rfl, .inr ⟨_, _, rfl⟩, .inl ⟨id, rfl, fun x hx => hx⟩, le_rfl⟩
      · exact hsame _ id rfl rfl rfl

/-- An answer changes nothing but the board, and the update it belongs to goes on. -/
theorem step_arrive_dashboard (i : Nat) (result : Except Bytes Bytes) :
    (p.step lower (.arrive i result)).dashboard = p.dashboard := by
  unfold step
  dsimp only
  split
  · exact (advance_frame _ _).1
  · rfl

end Page

/-! ## Where a picture comes from -/

section

variable (lower : Bytes → Bytes) (storage : LocalStorage)

/-- The page behind a run. -/
def pageAfter (events : List PageEvent) : Page := (Page.load storage).run lower events

theorem pageAfter_snoc (events : List PageEvent) (e : PageEvent) :
    pageAfter lower storage (events ++ [e]) = (pageAfter lower storage events).step lower e := by
  unfold pageAfter Page.run
  rw [List.foldl_append]
  rfl

/-- The request was made for an element of the document, at a moment of the run behind which no
datasource has been selected, with the datasource and the period of that moment. -/
def Asked (events : List PageEvent) (n : Nat) (req : PanelRequest) : Prop :=
  ∃ before after, events = before ++ after ∧ (∀ e ∈ after, ¬ e.Selects)
    ∧ (∃ id, (id, n) ∈ (pageAfter lower storage before).elements)
    ∧ req.datasource = (pageAfter lower storage before).dashboard.activeDatasource
    ∧ req.period = (pageAfter lower storage before).currentPeriod

/-- What holds of the elements of the document behind a run. -/
structure PictureInv (events : List PageEvent) (p : Page) : Prop where
  elements : ∀ x ∈ p.elements, x.2 < p.nextElement
  /-- A number that has not been given shows nothing. -/
  shown_below : ∀ n q, p.board.shown n = some q → n < p.nextElement
  flying_below : ∀ f ∈ p.board.flying, f.slot < p.nextElement
  shown : ∀ x ∈ p.elements, ∀ req res, p.board.shown x.2 = some (req, res) →
    Asked lower storage events x.2 req
  flying : ∀ x ∈ p.elements, ∀ f ∈ p.board.flying, f.slot = x.2 →
    Asked lower storage events x.2 f.request

variable {lower storage}

theorem Asked.snoc {events : List PageEvent} {n : Nat} {req : PanelRequest}
    (h : Asked lower storage events n req) {e : PageEvent} (he : ¬ e.Selects) :
    Asked lower storage (events ++ [e]) n req := by
  obtain ⟨before, after, rfl, hfree, hn, hds, hperiod⟩ := h
  refine ⟨before, after ++ [e], List.append_assoc .., ?_, hn, hds, hperiod⟩
  intro e' he'
  rcases List.mem_append.mp he' with h | h
  · exact hfree e' h
  · exact List.mem_singleton.mp h ▸ he

/-- Nothing on the board of a page that was loaded just now. -/
theorem pictureInv_load (storage' : LocalStorage) (events : List PageEvent) :
    PictureInv lower storage events (Page.load storage') where
  elements := fun x hx => absurd hx List.not_mem_nil
  shown_below := fun n q h => absurd h (by simp [Page.load])
  flying_below := fun f hf => absurd hf List.not_mem_nil
  shown := fun x hx => absurd hx List.not_mem_nil
  flying := fun x hx => absurd hx List.not_mem_nil

/-- The invariant of a prepared page, for the run that the event extends. -/
theorem pictureInv_prepared {events : List PageEvent} {p q : Page} {e : PageEvent}
    (h : PictureInv lower storage events p) (hq : Prepared p e q) :
    PictureInv lower storage (events ++ [e]) q := by
  have hshown : ∀ n r, q.board.shown n = some r →
      p.board.shown n = some r ∨ ∃ f ∈ p.board.flying, f.slot = n ∧ r.1 = f.request := by
    intro n r hr
    rcases hq.board with hb | ⟨i, a, hb⟩
    · exact .inl (hb ▸ hr)
    · rw [hb] at hr
      rcases Board.shown_answer_cases hr with hr | ⟨f, hf, hfn, rfl⟩
      · exact .inl hr
      · exact .inr ⟨f, hf, hfn, rfl⟩
  have hflying : ∀ f ∈ q.board.flying, f ∈ p.board.flying := by
    intro f hf
    rcases hq.board with hb | ⟨i, a, hb⟩
    · exact hb ▸ hf
    · rw [hb] at hf
      exact Board.mem_of_mem_answer hf
  have hbelow : ∀ n r, q.board.shown n = some r → n < p.nextElement := by
    intro n r hr
    rcases hshown n r hr with hr | ⟨f, hf, rfl, -⟩
    · exact h.shown_below n r hr
    · exact h.flying_below f hf
  rcases hq.elements with ⟨hselect, hnext, hsub⟩ | hnew
  · -- the elements are old ones, and so is what is known of them
    refine ⟨fun x hx => ?_, fun n r hr => ?_, fun f hf => ?_, fun x hx req res hr => ?_,
      fun x hx f hf hfx => ?_⟩
    · rw [hnext]
      exact h.elements x (hsub x hx)
    · rw [hnext]
      exact hbelow n r hr
    · rw [hnext]
      exact h.flying_below f (hflying f hf)
    · rcases hshown _ _ hr with hr | ⟨f, hf, hfx, hreq⟩
      · exact (h.shown x (hsub x hx) req res hr).snoc hselect
      · have hreq : req = f.request := hreq
        rw [hreq]
        exact (h.flying x (hsub x hx) f hf hfx).snoc hselect
    · exact (h.flying x (hsub x hx) f (hflying f hf) hfx).snoc hselect
  · -- the elements are new: nothing was ever asked for them
    refine ⟨fun x hx => (hnew x hx).2, fun n r hr => (hbelow n r hr).trans_le hq.next,
      fun f hf => (h.flying_below f (hflying f hf)).trans_le hq.next, fun x hx req res hr => ?_,
      fun x hx f hf hfx => ?_⟩
    · exact absurd (hbelow _ _ hr) (Nat.not_lt.mpr (hnew x hx).1)
    · have := h.flying_below f (hflying f hf)
      rw [hfx] at this
      exact absurd this (Nat.not_lt.mpr (hnew x hx).1)

/-- **The step.** -/
theorem pictureInv_step {events : List PageEvent}
    (h : PictureInv lower storage events (pageAfter lower storage events)) (e : PageEvent) :
    PictureInv lower storage (events ++ [e]) (pageAfter lower storage (events ++ [e])) := by
  rw [pageAfter_snoc]
  rcases Page.step_cases lower (pageAfter lower storage events) e with
    ⟨storage', heq⟩ | ⟨q, rest, heq, hq⟩
  · rw [heq]
    exact pictureInv_load storage' _
  have hinv := pictureInv_prepared h hq
  obtain ⟨hdash, hperiod, -, hels, -, hnext⟩ := q.advance_frame rest
  have hafter := pageAfter_snoc lower storage events e
  rw [heq] at hafter ⊢
  rcases q.advance_cases rest with ⟨hsame, -⟩ | ⟨-, id, endpoint, rest', n, -, -, hn, hsent⟩
  · rw [hsame]
    exact hinv
  · have hmem := Page.mem_of_element hn
    -- the new request is made behind the event, with what is current then
    have hasked : Asked lower storage (events ++ [e]) n
        ⟨endpoint, q.currentPeriod, q.dashboard.activeDatasource⟩ := by
      refine ⟨events ++ [e], [], (List.append_nil _).symm, by simp, ⟨id, ?_⟩, ?_, ?_⟩
      · rw [hafter, hels]
        exact hmem
      · rw [hafter, hdash]
      · rw [hafter, hperiod]
    rw [hsent]
    refine ⟨hinv.elements, fun m r hr => ?_, fun f hf => ?_, fun x hx req res hr => ?_,
      fun x hx f hf hfx => ?_⟩
    · by_cases hm : m = n
      · exact hm ▸ hinv.elements _ hmem
      · rw [Page.fetchSVG, Board.shown_ask_of_ne hm] at hr
        exact hinv.shown_below m r hr
    · rcases Board.mem_flying_ask.mp hf with hf | rfl
      · exact hinv.flying_below f hf
      · exact hinv.elements _ hmem
    · by_cases hx' : x.2 = n
      · rw [Page.fetchSVG, hx'] at hr
        exact absurd (hr.symm.trans (Function.update_self ..)) (by simp)
      · rw [Page.fetchSVG, Board.shown_ask_of_ne hx'] at hr
        exact hinv.shown x hx req res hr
    · rcases Board.mem_flying_ask.mp hf with hf | rfl
      · exact hinv.flying x hx f hf hfx
      · exact hfx ▸ hasked

/-- **The run.** -/
theorem pictureInv_run (events : List PageEvent) :
    PictureInv lower storage events (pageAfter lower storage events) := by
  induction events using List.reverseRecOn with
  | nil => exact pictureInv_load storage []
  | append_singleton events e ih => exact pictureInv_step ih e

/-- The active datasource is changed by selections only. -/
def Selective (lower : Bytes → Bytes) (storage : LocalStorage) (events : List PageEvent) : Prop :=
  ∀ before e after, events = before ++ e :: after → e.Selects ∨
    (pageAfter lower storage (before ++ [e])).dashboard.activeDatasource
      = (pageAfter lower storage before).dashboard.activeDatasource

/-- Without a selection the active datasource stays. -/
theorem active_of_selective {events : List PageEvent} (hsel : Selective lower storage events) :
    ∀ (after before : List PageEvent), events = before ++ after → (∀ e ∈ after, ¬ e.Selects) →
    (pageAfter lower storage events).dashboard.activeDatasource
      = (pageAfter lower storage before).dashboard.activeDatasource
  | [], before, heq, _ => by rw [heq, List.append_nil]
  | e :: after, before, heq, hfree => by
      have hstep := (hsel before e after heq).resolve_left (hfree e List.mem_cons_self)
      rw [← hstep]
      exact active_of_selective hsel after (before ++ [e]) (by rw [heq, List.append_assoc]; rfl)
        fun e' he' => hfree e' (List.mem_cons_of_mem e he')

end

/--
**No picture of another datasource, in any order of answers.**

In every run from the load of the page on: a picture in the document was asked for under the
datasource and the period that were current at some moment behind the last selection. So if
the active datasource is changed by selections only, the picture is one of the active datasource.
An import and a reset of the layout are followed by a reload, which ends the run.
-/
theorem picture_origin (lower : Bytes → Bytes) (storage : LocalStorage) (events : List PageEvent)
    (id : Bytes) (n : Nat) (req : PanelRequest) (res : Except Bytes Bytes)
    (hel : (id, n) ∈ (pageAfter lower storage events).elements)
    (hshown : (pageAfter lower storage events).board.shown n = some (req, res)) :
    (∃ before after, events = before ++ after ∧ (∀ e ∈ after, ¬ e.Selects)
      ∧ req.datasource = (pageAfter lower storage before).dashboard.activeDatasource
      ∧ req.period = (pageAfter lower storage before).currentPeriod)
    ∧ (Selective lower storage events →
      req.datasource = (pageAfter lower storage events).dashboard.activeDatasource) := by
  obtain ⟨before, after, heq, hfree, -, hds, hperiod⟩ :=
    (pictureInv_run events).shown (id, n) hel req res hshown
  refine ⟨⟨before, after, heq, hfree, hds, hperiod⟩, fun hsel => ?_⟩
  rw [hds, active_of_selective hsel after before heq hfree]

/-- A storage without layouts. -/
def freshStorage : LocalStorage := ⟨[], fun _ => none⟩

/-- Another datasource is selected while a picture of the first one is on its way, and that
picture is overtaken by one of the second. -/
def overtakenPicture : List PageEvent :=
  [.dashboard .initializeDashboard, .dashboard (.selectDatasource (str "b2")),
    .arrive 1 (.ok (str "<svg>b2</svg>")), .arrive 0 (.ok (str "<svg>default</svg>"))]

theorem selective_overtakenPicture : Selective id freshStorage overtakenPicture := by
  intro before e after heq
  rw [pageAfter_snoc]
  have hmem : e ∈ overtakenPicture := heq ▸ List.mem_append_right _ List.mem_cons_self
  simp only [overtakenPicture, List.mem_cons, List.not_mem_nil, or_false] at hmem
  rcases hmem with rfl | rfl | rfl | rfl
  · exact Or.inl trivial
  · exact Or.inl trivial
  · exact Or.inr (congrArg Dashboard.activeDatasource (Page.step_arrive_dashboard _ _))
  · exact Or.inr (congrArg Dashboard.activeDatasource (Page.step_arrive_dashboard _ _))

/-- The late picture goes into an element that has left the document; the first panel shows one of
the datasource that is active. -/
theorem picture_origin_overtaken :
    let p := pageAfter id freshStorage overtakenPicture
    p.board.shown 0 = some (⟨str "cpu", 3600, str "default"⟩, .ok (str "<svg>default</svg>"))
      ∧ p.element (str "cpu") = some 2
      ∧ p.board.shown 2 = some (⟨str "cpu", 3600, str "b2"⟩, .ok (str "<svg>b2</svg>"))
      ∧ str "b2" = p.dashboard.activeDatasource := by
  have hshown : (pageAfter id freshStorage overtakenPicture).board.shown 2
      = some (⟨str "cpu", 3600, str "b2"⟩, .ok (str "<svg>b2</svg>")) := rfl
  have helement : (pageAfter id freshStorage overtakenPicture).element (str "cpu") = some 2 := by
    decide +kernel
  obtain ⟨-, hactive⟩ := picture_origin id freshStorage overtakenPicture _ 2 _ _
    (Page.mem_of_element helement) hshown
  exact ⟨rfl, helement, hshown, hactive selective_overtakenPicture⟩

end Svgd.Gate
