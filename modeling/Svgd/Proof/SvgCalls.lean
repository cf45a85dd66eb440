import Svgd.Backend.SvgArguments

/-!
# The stack of a context is balanced

A thread draws all its pictures in one context, which lives as long as the thread. Whatever the
data is and whatever the script does, `svg_generate` needs six slots of the value stack and
leaves the stack as it found it, on each of its four ways out, and the script is called with
two objects that read as the data.
-/

namespace Svgd.Backend

open Lib

/-! ## The arguments -/

theorem fills_prop (key : String) (x : DukPrim) :
    Fills (putPropString key (pushPrim x)) [(DukKey.name (str key), .prim x)] 1 :=
  (builds_push (T := DukKind) (K := DukKey) x).field (DukKey.name (str key))

theorem builds_point (p : DataPoint) : Builds (pushPoint p) (pointTree p) 2 :=
  ((fills_prop "timestamp" (.number (.round p.timestamp))).append
    (fills_prop "value" (.number p.value)) (by simp; decide)).object .object

/-- The keys of an array from an index on. -/
theorem index_of_mem {ts : List DukTree} {i : Nat} {k : DukKey}
    (h : k ∈ ((ts.zipIdx i).map fun t => (DukKey.index t.2, t.1)).map Prod.fst) :
    ∃ j, i ≤ j ∧ k = .index j := by
  simp only [List.map_map, List.mem_map, Function.comp_apply] at h
  obtain ⟨t, ht, rfl⟩ := h
  exact ⟨t.2, List.le_snd_of_mem_zipIdx ht, rfl⟩

/-- An element, and the others behind it. -/
theorem Fills.element {p q : DukBuild Unit} {t : DukTree} {ts : List DukTree} {i d : Nat}
    (hp : Builds p t d)
    (hq : Fills q ((ts.zipIdx (i + 1)).map fun t => (DukKey.index t.2, t.1)) d) :
    Fills (putPropIndex i p >>= fun _ => q)
      (((t :: ts).zipIdx i).map fun t => (DukKey.index t.2, t.1)) d := by
  refine (hp.field (.index i)).append hq fun k hk hmem => ?_
  obtain ⟨j, hj, rfl⟩ := index_of_mem hk
  rw [List.map_singleton, List.mem_singleton] at hmem
  have := DukKey.index.inj hmem
  omega

theorem fills_points (ps : List DataPoint) : ∀ i,
    Fills (pushPoints i ps) (((ps.map pointTree).zipIdx i).map fun t => (DukKey.index t.2, t.1)) 2 := by
  induction ps with
  | nil => exact fun _ => fills_nil.weaken (by decide)
  | cons p ps ih => exact fun i => Fills.element (builds_point p) (ih (i + 1))

theorem builds_series (s : Series) : Builds (pushSeries s) (seriesTree s) 4 := by
  have hdata : Builds _ (arrayTree (s.points.map pointTree)) 3 := (fills_points s.points 0).object .array
  exact (((fills_prop "name" (stringPrim s.name)).weaken (by decide)).append
    (hdata.field (.name (str "data"))) (by simp; decide)).object .object

theorem fills_series (ss : List Series) : ∀ i, Fills (pushSeriesFrom i ss)
    ((((ss.filter (·.points ≠ [])).map seriesTree).zipIdx i).map fun t => (DukKey.index t.2, t.1)) 4 := by
  induction ss with
  | nil => exact fun _ => fills_nil.weaken (by decide)
  | cons s ss ih =>
      intro i
      rw [pushSeriesFrom]
      by_cases hempty : s.points = []
      · rw [if_pos hempty, List.filter_cons_of_neg (by simpa using hempty)]
        exact ih i
      · rw [if_neg hempty, List.filter_cons_of_pos (by simpa using hempty)]
        exact Fills.element (builds_series s) (ih (i + 1))

/-- The program adds the options, if their names differ. -/
def SetsOptions (p : DukBuild Unit) (options : List (String × Option DukPrim)) : Prop :=
  (options.map fun o => str o.1).Nodup → Fills p (optionFields options) 1

theorem key_of_mem_optionFields {options : List (String × Option DukPrim)} {k : DukKey}
    (h : k ∈ (optionFields options).map Prod.fst) : ∃ o ∈ options, k = .name (str o.1) := by
  obtain ⟨f, hf, rfl⟩ := List.mem_map.mp h
  obtain ⟨o, ho, hof⟩ := List.mem_filterMap.mp hf
  obtain ⟨y, -, rfl⟩ := Option.map_eq_some_iff.mp hof
  exact ⟨o, ho, rfl⟩

/-- An option, and the others behind it. -/
theorem SetsOptions.cons {p q : DukBuild Unit} {key : String} {x : Option DukPrim}
    {rest : List (String × Option DukPrim)} (hp : Fills p (optionFields [(key, x)]) 1)
    (hq : SetsOptions q rest) : SetsOptions (p >>= fun _ => q) ((key, x) :: rest) := by
  intro hdistinct
  obtain ⟨hnew, hrest⟩ := List.nodup_cons.mp hdistinct
  have hsplit : optionFields ((key, x) :: rest) = optionFields [(key, x)] ++ optionFields rest :=
    List.filterMap_append (l := [(key, x)]) ..
  rw [hsplit]
  refine hp.append (hq hrest) fun k hk hmem => ?_
  obtain ⟨o, ho, rfl⟩ := key_of_mem_optionFields hk
  obtain ⟨o', ho', heq⟩ := key_of_mem_optionFields hmem
  rw [List.mem_singleton.mp ho'] at heq
  exact hnew (List.mem_map.mpr ⟨o, ho, DukKey.name.inj heq⟩)

theorem fills_option (key : String) (x : DukPrim) :
    Fills (putPropString key (pushPrim x)) (optionFields [(key, some x)]) 1 := fills_prop key x

theorem fills_nonEmpty (key : String) (s : Option Bytes) :
    Fills (putNonEmpty key s) (optionFields [(key, (nonEmpty s).map .string)]) 1 := by
  unfold putNonEmpty
  cases nonEmpty s with
  | none => exact fills_nil.weaken (by decide)
  | some s => exact fills_prop key (.string s)

/-- The options of the metric, in front of others. -/
theorem SetsOptions.metric {q : DukBuild Unit} {rest : List (String × Option DukPrim)}
    (hq : SetsOptions q rest) (config : Option MetricEntry) :
    SetsOptions (putMetricConfig config >>= fun _ => q)
      (("title", config.map (.string ·.title)) :: ("yLabel", config.map (.string ·.yLabel))
        :: ("isPercentage", config.map fun cfg => .boolean (cfg.isPercentage != 0))
        :: ("transformType", config.map (.string ·.transformType))
        :: ("valueMultiplier", config.map (.number ·.valueMultiplier))
        :: ("transformDivisor", config.map (.number ·.transformDivisor))
        :: ("valueFormat", config.map (.string ·.valueFormat))
        :: ("panelType", config.map (.string ·.panelType)) :: rest) := by
  cases config with
  | none =>
      intro hdistinct
      have hrest := hdistinct.sublist (List.drop_sublist 8 _)
      exact hq hrest
  | some cfg =>
      simp only [putMetricConfig, putConfig, bind_assoc]
      exact .cons (fills_option _ _) (.cons (fills_option _ _) (.cons (fills_option _ _)
        (.cons (fills_option _ _) (.cons (fills_option _ _) (.cons (fills_option _ _)
        (.cons (fills_option _ _) (.cons (fills_option _ _) hq)))))))

theorem builds_options (job : SvgJob) : Builds (pushOptions job) (optionsTree job) 2 := by
  have htheme : SetsOptions (putNonEmpty "theme" job.theme)
      [("theme", (nonEmpty job.theme).map .string)] := fun _ => fills_nonEmpty "theme" job.theme
  have hsize := SetsOptions.cons (fills_option "width" (.number (.round job.width)))
    (.cons (fills_option "height" (.number (.round job.height))) htheme)
  have hall := SetsOptions.cons (fills_nonEmpty "param1" job.param1) (hsize.metric job.config)
  refine (hall ?_).object .object
  show [str "param1", str "title", str "yLabel", str "isPercentage", str "transformType",
    str "valueMultiplier", str "transformDivisor", str "valueFormat", str "panelType", str "width",
    str "height", str "theme"].Nodup
  decide

/-! ## One call -/

/-- The picture that a call of the script leaves. -/
def pictureOf (ok : Bool) (v : DukSlot) : Option Bytes := if ok then dupString v else none

/-- What a call has done: the context has no such function, or the script was called on the
data, with all older objects as they were. -/
inductive Drawn (engine : DukEngine) (job : SvgJob) (heap : DukHeap) :
    Option Bytes → DukHeap → Prop where
  | missing : DukHeap.prop heap engine.global (str "generateSVG") = none →
      Drawn engine job heap none heap
  | called {f series options : DukSlot} {heap₁ : DukHeap} :
      DukHeap.prop heap engine.global (str "generateSVG") = some f → KeepsFrom 0 heap heap₁ →
      Reads heap₁ heap.length series (argumentTree job) →
      Reads heap₁ heap.length options (optionsTree job) →
      Drawn engine job heap
        (pictureOf (engine.call heap₁ f [series, options]).2.1
          (engine.call heap₁ f [series, options]).2.2)
        (engine.call heap₁ f [series, options]).1

theorem getProp_some {m : DukContext} {a : Nat} {st : List DukSlot} {key : String} {v : DukSlot}
    (hstack : m.stack = .object a :: st) (hroom : m.stack.length < m.room)
    (h : DukHeap.prop m.heap a (str key) = some v) :
    getProp key m = some (true, { m with stack := v :: m.stack }) := by
  unfold getProp
  rw [hstack]
  dsimp only
  rw [h]
  dsimp only
  rw [Build.push_run hroom, Option.map_some, hstack]

theorem getProp_none {m : DukContext} {a : Nat} {st : List DukSlot} {key : String}
    (hstack : m.stack = .object a :: st) (hroom : m.stack.length < m.room)
    (h : DukHeap.prop m.heap a (str key) = none) :
    getProp key m = some (false, { m with stack := .prim .undefined :: m.stack }) := by
  unfold getProp
  rw [hstack]
  dsimp only
  rw [h]
  dsimp only
  rw [Build.push_run hroom, Option.map_some, hstack]

/-- **A call needs six slots, and leaves the stack as it was.** -/
theorem svgGenerateIn_spec (engine : DukEngine) (job : SvgJob) (m : DukContext)
    (hglobal : engine.global < m.heap.length) (hroom : m.stack.length + 6 ≤ m.room) :
    ∃ svg heap, svgGenerateIn engine job m = some (svg, { m with heap })
      ∧ engine.global < heap.length ∧ Drawn engine job m.heap svg heap := by
  have hpush := Build.push_run (m := m) (by omega) (.object engine.global)
  have hroom₁ : ({ m with stack := .object engine.global :: m.stack } : DukContext).stack.length
      < m.room := show m.stack.length + 1 < m.room by omega
  unfold svgGenerateIn
  rw [Build.bind_run hpush]
  cases hprop : DukHeap.prop m.heap engine.global (str "generateSVG") with
  | none =>
      rw [Build.bind_run (getProp_none rfl hroom₁ hprop)]
      exact ⟨none, m.heap, rfl, hglobal, .missing hprop⟩
  | some f =>
      have hremove : Build.removeBelow { m with stack := f :: .object engine.global :: m.stack }
          = some ((), { m with stack := f :: m.stack }) := rfl
      have hbuild : Builds (pushSeriesArray job.series) (argumentTree job) 5 :=
        (fills_series job.series 0).object .array
      obtain ⟨series, heap₁, hseries, hkeep₁, hreads₁⟩ := hbuild { m with stack := f :: m.stack }
        (show m.stack.length + 1 + 5 ≤ m.room by omega)
      obtain ⟨options, heap₂, hoptions, hkeep₂, hreads₂⟩ := builds_options job
        { m with stack := series :: f :: m.stack, heap := heap₁ }
        (show m.stack.length + 1 + 1 + 2 ≤ m.room by omega)
      have hkeep : KeepsFrom 0 m.heap heap₂ := fun b o hb hget =>
        hkeep₂ b o hb (hkeep₁ b o hb hget)
      have hread : Reads heap₂ m.heap.length options (optionsTree job) :=
        hreads₂.mono hkeep₁.length_le
      have hcall : pcall2 engine { m with stack := options :: series :: f :: m.stack, heap := heap₂ }
          = some ((engine.call heap₂ f [series, options]).2.1, { m with
              stack := (engine.call heap₂ f [series, options]).2.2 :: m.stack
              heap := (engine.call heap₂ f [series, options]).1 }) := rfl
      rw [Build.bind_run (getProp_some rfl hroom₁ hprop), if_pos rfl, Build.bind_run hremove,
        Build.bind_run hseries, Build.bind_run hoptions, Build.bind_run hcall]
      refine ⟨_, _, ?_, engine.call_global _ _ _ (Nat.lt_of_lt_of_le hglobal hkeep.length_le),
        .called hprop hkeep (hreads₁.kept hkeep₂) hread⟩
      unfold pictureOf
      split
      · rfl
      · rfl

/-! ## Every run -/

/-- The calls, each on the heap that the one before it left. -/
inductive DrawnAll (engine : DukEngine) : List SvgJob → DukHeap → List (Option Bytes) → DukHeap → Prop
  | nil {heap : DukHeap} : DrawnAll engine [] heap [] heap
  | cons {job : SvgJob} {jobs : List SvgJob} {heap heap₁ heap₂ : DukHeap} {svg : Option Bytes}
      {svgs : List (Option Bytes)} :
      Drawn engine job heap svg heap₁ → DrawnAll engine jobs heap₁ svgs heap₂ →
      DrawnAll engine (job :: jobs) heap (svg :: svgs) heap₂

/--
**A context draws for ever.**

Whatever is drawn in a context and whatever the script makes of it: with six free slots on the
stack no call aborts, each finds the stack as the first one did, and in each the script is
given the series that have points and the options of the job, or the context has no such
function. The picture is the string of the script, up to its first NUL. Duktape is taken to
allocate what it is asked for, and to run nothing when a property is read or written: no setter
is inherited, and `generateSVG` has no getter.
-/
theorem svg_runs_balanced (engine : DukEngine) (jobs : List SvgJob) (m : DukContext)
    (hglobal : engine.global < m.heap.length) (hroom : m.stack.length + 6 ≤ m.room) :
    ∃ svgs heap, runJobs engine jobs m = some (svgs, { m with heap })
      ∧ DrawnAll engine jobs m.heap svgs heap := by
  induction jobs generalizing m with
  | nil => exact ⟨[], m.heap, rfl, .nil⟩
  | cons job jobs ih =>
      obtain ⟨svg, heap₁, hrun, hglobal₁, hdrawn⟩ := svgGenerateIn_spec engine job m hglobal hroom
      obtain ⟨svgs, heap₂, hruns, hdrawns⟩ := ih { m with heap := heap₁ } hglobal₁ hroom
      refine ⟨svg :: svgs, heap₂, ?_, .cons hdrawn hdrawns⟩
      rw [runJobs, Build.bind_run hrun, Build.bind_run hruns]
      rfl

/-- A script that draws the same picture whatever it is given. -/
def samplePicture : DukEngine where
  global := 0
  call heap _ _ := (heap, true, .prim (.string (str "<svg/>")))
  call_global _ _ _ h := h

/-- Two points of one series, and a series without points. -/
def sampleJob : SvgJob where
  series := [⟨none, []⟩, ⟨some (str "used"), [⟨60, .fin 1⟩, ⟨120, .fin 2⟩]⟩]
  param1 := some (str "eth0")
  config := some { endpoint := str "network", title := str "Network" }
  width := 800
  height := 450
  theme := some []

/-- A context with the function and room for six values. -/
def sampleContext : DukContext where
  stack := []
  heap := [⟨.object, [(.name (str "generateSVG"), .object 1)]⟩, ⟨.function, []⟩]
  room := 6

theorem svg_runs_balanced_six :
    (runJobs samplePicture [sampleJob, sampleJob] sampleContext).map (fun r => r.2.stack) = some [] := by
  obtain ⟨svgs, heap, hrun, -⟩ := svg_runs_balanced samplePicture [sampleJob, sampleJob]
    sampleContext (by decide) (by decide)
  rw [hrun]
  rfl

end Svgd.Backend
