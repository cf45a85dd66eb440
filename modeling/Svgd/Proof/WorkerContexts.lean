import Svgd.Backend.Contexts

/-!
# Which threads can render

A context is filled when it is made and never again. A thread that asked for one before
there was a script keeps an empty one for good, whatever is loaded later. All other contexts
are made from the script.
-/

namespace Svgd.Backend

open Lib

variable {engine : Engine} {s : SvgState} {t thread : Nat} {early : Nat → Prop}

/-- The cache holds a script that runs and defines the function. -/
def Loaded (engine : Engine) (s : SvgState) : Prop :=
  s.initialized = true ∧ ∃ text names, s.jsCache = some text
    ∧ engine.eval (cstr text) = some names ∧ generateSVG ∈ names

/-- Whatever thread renders, the function is called. -/
def Usable (engine : Engine) (s : SvgState) : Prop :=
  ∀ thread file, (svgGenerate engine thread file s).2 = true

/-- In every state that the calls go through, a script that is loaded can be called. -/
def AlwaysUsable (engine : Engine) (calls : List SvgCall) : Prop :=
  ∀ h, h <+: calls → Loaded engine (runSvg engine h) → Usable engine (runSvg engine h)

/-! ## What a step leaves -/

@[simp] theorem setContext_initialized (s : SvgState) (thread : Nat) (names : List Bytes) :
    (s.setContext thread names).initialized = s.initialized := rfl

/-- The context of a thread is the one it has, or a new one. -/
theorem getThreadContext_cases (engine : Engine) (thread : Nat) (s : SvgState) :
    (∃ names, s.contexts thread = some names ∧ getThreadContext engine thread s = (s, some names))
    ∨ s.contexts thread = none ∧
      ((∃ names, getThreadContext engine thread s = (s.setContext thread names, some names)
        ∧ (s.initialized = false → names = [])
        ∧ (Loaded engine s → generateSVG ∈ names))
      ∨ (getThreadContext engine thread s = (s, none) ∧ s.initialized = true ∧ ¬ Loaded engine s)) := by
  unfold getThreadContext
  cases hcontext : s.contexts thread with
  | some names => exact .inl ⟨names, rfl, rfl⟩
  | none =>
      right
      refine ⟨rfl, ?_⟩
      by_cases hinit : s.initialized = true
      · rw [if_pos hinit]
        cases htext : s.jsCache with
        | none =>
            left
            refine ⟨[], rfl, fun _ => rfl, fun hloaded => ?_⟩
            obtain ⟨-, text, names, hsome, -⟩ := hloaded
            rw [htext] at hsome
            cases hsome
        | some text =>
            dsimp only
            cases heval : engine.eval (cstr text) with
            | none =>
                right
                refine ⟨rfl, hinit, fun hloaded => ?_⟩
                obtain ⟨-, text', names, hsome, hnames, -⟩ := hloaded
                obtain rfl := Option.some.inj (htext.symm.trans hsome)
                rw [heval] at hnames
                cases hnames
            | some names =>
                left
                refine ⟨names, rfl, fun hfalse => ?_, fun hloaded => ?_⟩
                · rw [hinit] at hfalse
                  cases hfalse
                · obtain ⟨-, text', names', hsome, hnames, hmem⟩ := hloaded
                  obtain rfl := Option.some.inj (htext.symm.trans hsome)
                  obtain rfl := Option.some.inj (heval.symm.trans hnames)
                  exact hmem
      · rw [if_neg hinit]
        exact .inl ⟨[], rfl, fun _ => rfl, fun hloaded => absurd hloaded.1 hinit⟩

/-- The cache is initialised behind a call that says so, and the contexts are as they were. -/
theorem svgInitCache_spec (file : Option Bytes) (s : SvgState) :
    (svgInitCache file s).1.contexts = s.contexts
      ∧ (svgInitCache file s).2 = (svgInitCache file s).1.initialized
      ∧ (s.initialized = true → svgInitCache file s = (s, true)) := by
  unfold svgInitCache
  by_cases hinit : s.initialized = true
  · rw [if_pos hinit]
    exact ⟨rfl, hinit.symm, fun _ => rfl⟩
  · rw [if_neg hinit]
    cases file with
    | none => exact ⟨rfl, (Bool.eq_false_iff.mpr hinit).symm, fun h => absurd h hinit⟩
    | some text => exact ⟨rfl, rfl, fun h => absurd h hinit⟩

/-- `svg_generate` fails without a script, or looks into the context of its thread. -/
theorem svgGenerate_eq (engine : Engine) (thread : Nat) (file : Option Bytes) (s : SvgState) :
    svgGenerate engine thread file s
      = if (svgInitCache file s).1.initialized then
          callGenerateSVG engine thread (getThreadContext engine thread (svgInitCache file s).1)
        else ((svgInitCache file s).1, false) := by
  obtain ⟨-, hreturn, honce⟩ := svgInitCache_spec file s
  have hinit : (if s.initialized then (s, true) else svgInitCache file s) = svgInitCache file s := by
    by_cases h : s.initialized = true
    · rw [if_pos h, honce h]
    · rw [if_neg h]
  unfold svgGenerate
  rw [hinit]
  generalize svgInitCache file s = p at hreturn
  obtain ⟨s₁, ok⟩ := p
  dsimp only at hreturn ⊢
  rw [← hreturn]
  cases ok <;> rfl

theorem callGenerateSVG_of_mem {names : List Bytes} (h : generateSVG ∈ names) :
    callGenerateSVG engine thread (s, some names) = (s.setContext thread (engine.call names), true) :=
  if_pos h

theorem callGenerateSVG_of_not_mem {names : List Bytes} (h : generateSVG ∉ names) :
    callGenerateSVG engine thread (s, some names) = (s, false) := if_neg h

/-! ## The contexts -/

/-- The threads in `early` have an empty context, the others one of the script, if any. -/
structure Tracks (engine : Engine) (early : Nat → Prop) (s : SvgState) : Prop where
  empty : ∀ t, early t → s.contexts t = some []
  fresh : s.initialized = false → ∀ t, ¬ early t → s.contexts t = none
  filled : Loaded engine s → ∀ t, ¬ early t → ∀ names, s.contexts t = some names →
    generateSVG ∈ names

theorem Tracks.init (h : Tracks engine early s) (file : Option Bytes) :
    Tracks engine early (svgInitCache file s).1 := by
  obtain ⟨hcontexts, -, honce⟩ := svgInitCache_spec file s
  by_cases hinit : s.initialized = true
  · rw [honce hinit]
    exact h
  · have hfresh := h.fresh (Bool.eq_false_iff.mpr hinit)
    refine ⟨fun t ht => ?_, fun _ t ht => ?_, fun _ t ht names hnames => ?_⟩
    · rw [hcontexts]
      exact h.empty t ht
    · rw [hcontexts]
      exact hfresh t ht
    · rw [hcontexts, hfresh t ht] at hnames
      cases hnames

/-- A context that is made before there is a script is empty. -/
theorem Tracks.get (h : Tracks engine early s) (thread : Nat) :
    Tracks engine (fun t => early t ∨ t = thread ∧ s.initialized = false)
      (getThreadContext engine thread s).1 := by
  rcases getThreadContext_cases engine thread s with
    ⟨names, hsome, heq⟩ | ⟨hnone, ⟨names, heq, hempty, hfilled⟩ | ⟨heq, hinit, -⟩⟩
  · rw [heq]
    refine ⟨fun t ht => ?_, fun hinit t ht => h.fresh hinit t fun he => ht (.inl he),
      fun hloaded t ht => h.filled hloaded t fun he => ht (.inl he)⟩
    rcases ht with ht | ⟨rfl, hinit⟩
    · exact h.empty t ht
    · by_cases ht : early t
      · exact h.empty t ht
      · rw [h.fresh hinit t ht] at hsome
        cases hsome
  · rw [heq]
    have hother : ∀ t, t ≠ thread → (s.setContext thread names).contexts t = s.contexts t :=
      fun t ht => if_neg ht
    have hthread : (s.setContext thread names).contexts thread = some names := if_pos rfl
    refine ⟨fun t ht => ?_, fun hinit t ht => ?_, fun hloaded t ht names' hnames' => ?_⟩
    · rcases ht with ht | ⟨rfl, hinit⟩
      · rw [hother t, h.empty t ht]
        rintro rfl
        rw [h.empty t ht] at hnone
        cases hnone
      · rw [hthread, hempty hinit]
    · have hne : t ≠ thread := fun he => ht (.inr ⟨he, hinit⟩)
      rw [hother t hne]
      exact h.fresh hinit t fun he => ht (.inl he)
    · by_cases hne : t = thread
      · rw [hne, hthread] at hnames'
        obtain rfl := Option.some.inj hnames'
        exact hfilled hloaded
      · rw [hother t hne] at hnames'
        exact h.filled hloaded t (fun he => ht (.inl he)) names' hnames'
  · rw [heq]
    refine ⟨fun t ht => ?_, fun hfalse => ?_, fun hloaded t ht => h.filled hloaded t fun he =>
      ht (.inl he)⟩
    · rcases ht with ht | ⟨-, hfalse⟩
      · exact h.empty t ht
      · rw [hinit] at hfalse
        cases hfalse
    · rw [hinit] at hfalse
      cases hfalse

/-- With a script, no thread is added to the early ones. -/
theorem Tracks.get_initialized (h : Tracks engine early s) (hinit : s.initialized = true)
    (thread : Nat) : Tracks engine early (getThreadContext engine thread s).1 := by
  have hget := h.get thread
  simp only [hinit, Bool.true_eq_false, and_false, or_false] at hget
  exact hget

/-- What is looked into is the context of the thread, and the script is the same. -/
theorem getThreadContext_spec (engine : Engine) (thread : Nat) (s : SvgState) :
    (getThreadContext engine thread s).1.initialized = s.initialized
      ∧ (getThreadContext engine thread s).1.jsCache = s.jsCache
      ∧ ∀ names, (getThreadContext engine thread s).2 = some names →
        (getThreadContext engine thread s).1.contexts thread = some names := by
  rcases getThreadContext_cases engine thread s with
    ⟨names, hsome, heq⟩ | ⟨-, ⟨names, heq, -⟩ | ⟨heq, -⟩⟩
  · rw [heq]
    refine ⟨rfl, rfl, fun names' h => ?_⟩
    obtain rfl := Option.some.inj h
    exact hsome
  · rw [heq]
    refine ⟨rfl, rfl, fun names' h => ?_⟩
    obtain rfl := Option.some.inj h
    exact if_pos rfl
  · rw [heq]
    exact ⟨rfl, rfl, fun names h => by cases h⟩

/-- The call is made in a context that has the function, and leaves it there. -/
theorem Tracks.call (h : Tracks engine early s) (hinit : s.initialized = true)
    {context : Option (List Bytes)} (hcontext : ∀ names, context = some names →
      s.contexts thread = some names) :
    Tracks engine early (callGenerateSVG engine thread (s, context)).1 := by
  cases context with
  | none => exact h
  | some names =>
      have hnames := hcontext names rfl
      by_cases hmem : generateSVG ∈ names
      · rw [callGenerateSVG_of_mem hmem]
        have hother : ∀ t, t ≠ thread → (s.setContext thread (engine.call names)).contexts t
            = s.contexts t := fun t ht => if_neg ht
        refine ⟨fun t ht => ?_, fun hfalse => ?_, fun hloaded t ht names' hnames' => ?_⟩
        · rw [hother t, h.empty t ht]
          rintro rfl
          rw [h.empty t ht] at hnames
          obtain rfl := Option.some.inj hnames
          cases hmem
        · rw [setContext_initialized, hinit] at hfalse
          cases hfalse
        · by_cases hne : t = thread
          · obtain rfl : engine.call names = names' := by
              rw [hne] at hnames'
              exact Option.some.inj ((if_pos rfl).symm.trans hnames')
            exact engine.call_keeps names hmem
          · rw [hother t hne] at hnames'
            exact h.filled hloaded t ht names' hnames'
      · rw [callGenerateSVG_of_not_mem hmem]
        exact h

theorem Tracks.generate (h : Tracks engine early s) (thread : Nat) (file : Option Bytes) :
    Tracks engine early (svgGenerate engine thread file s).1 := by
  have hs₁ := h.init file
  rw [svgGenerate_eq]
  by_cases hinit : (svgInitCache file s).1.initialized = true
  · rw [if_pos hinit]
    obtain ⟨hsame, -, hcontext⟩ := getThreadContext_spec engine thread (svgInitCache file s).1
    exact (hs₁.get_initialized hinit thread).call (hsame.trans hinit) hcontext
  · rw [if_neg hinit]
    exact hs₁

/-- **The step**: only `svg_get_context` in front of the script makes a thread early. -/
theorem Tracks.step (h : Tracks engine early s) (call : SvgCall) :
    Tracks engine (fun t => early t ∨ call = .getContext t ∧ s.initialized = false)
      (svgStep engine s call) := by
  have hsame : ∀ {s' : SvgState}, Tracks engine early s' → (∀ t, call ≠ .getContext t) →
      Tracks engine (fun t => early t ∨ call = .getContext t ∧ s.initialized = false) s' := by
    intro s' h' hcall
    simp only [hcall, false_and, or_false]
    exact h'
  cases call with
  | initCache file => exact hsame (h.init file) fun t heq => by cases heq
  | getContext thread =>
      have hget := h.get thread
      simp only [SvgCall.getContext.injEq, eq_comm (a := thread)]
      exact hget
  | prewarmContext thread =>
      refine hsame ?_ fun t heq => by cases heq
      show Tracks engine early (svgPrewarmContext engine thread s)
      unfold svgPrewarmContext
      by_cases hinit : s.initialized = true
      · rw [if_pos hinit]
        exact h.get_initialized hinit thread
      · rw [if_neg hinit]
        exact h
  | generate thread file => exact hsame (h.generate thread file) fun t heq => by cases heq

/-! ## Runs -/

/-- The thread asked for a context in front of the script. -/
def AskedEarly (engine : Engine) (calls : List SvgCall) (t : Nat) : Prop :=
  ∃ h, h ++ [.getContext t] <+: calls ∧ (runSvg engine h).initialized = false

theorem runSvg_append (engine : Engine) (calls : List SvgCall) (call : SvgCall) :
    runSvg engine (calls ++ [call]) = svgStep engine (runSvg engine calls) call :=
  List.foldl_append

theorem askedEarly_append {calls : List SvgCall} {call : SvgCall} :
    AskedEarly engine (calls ++ [call]) t ↔ AskedEarly engine calls t
      ∨ call = .getContext t ∧ (runSvg engine calls).initialized = false := by
  constructor
  · rintro ⟨h, hbegins, hinit⟩
    rcases List.prefix_concat_iff.mp hbegins with heq | hbegins
    · obtain ⟨rfl, hcall⟩ := List.append_inj' heq rfl
      exact .inr ⟨(List.cons.inj hcall).1.symm, hinit⟩
    · exact .inl ⟨h, hbegins, hinit⟩
  · rintro (⟨h, hbegins, hinit⟩ | ⟨rfl, hinit⟩)
    · exact ⟨h, hbegins.trans (List.prefix_append _ _), hinit⟩
    · exact ⟨calls, List.prefix_refl _, hinit⟩

/-- **The run.** -/
theorem tracks_run (engine : Engine) (calls : List SvgCall) :
    Tracks engine (AskedEarly engine calls) (runSvg engine calls) := by
  induction calls using List.reverseRecOn with
  | nil =>
      refine ⟨fun t ht => ?_, fun _ t _ => rfl, fun hloaded => ?_⟩
      · obtain ⟨h, hbegins, -⟩ := ht
        exact absurd (List.prefix_nil.mp hbegins) (by simp)
      · cases hloaded.1
  | append_singleton calls call ih =>
      have hstep := ih.step call
      rw [runSvg_append]
      simp only [← askedEarly_append] at hstep
      exact hstep

/-- **With a script, a thread renders exactly if it did not ask early.** -/
theorem Tracks.usable_iff (h : Tracks engine early s) (hloaded : Loaded engine s) (thread : Nat)
    (file : Option Bytes) : (svgGenerate engine thread file s).2 = true ↔ ¬ early thread := by
  have honce := (svgInitCache_spec file s).2.2 hloaded.1
  rw [svgGenerate_eq, honce, if_pos hloaded.1]
  rcases getThreadContext_cases engine thread s with
    ⟨names, hsome, heq⟩ | ⟨hnone, ⟨names, heq, -, hfilled⟩ | ⟨-, -, hnot⟩⟩
  · rw [heq]
    by_cases ht : early thread
    · obtain rfl := Option.some.inj ((h.empty thread ht).symm.trans hsome)
      rw [callGenerateSVG_of_not_mem List.not_mem_nil]
      simp [ht]
    · rw [callGenerateSVG_of_mem (h.filled hloaded thread ht names hsome)]
      simp [ht]
  · have ht : ¬ early thread := by
      intro ht
      rw [h.empty thread ht] at hnone
      cases hnone
    rw [heq, callGenerateSVG_of_mem (hfilled hloaded)]
    simp [ht]
  · exact absurd hloaded hnot

/-- A script stays. -/
theorem Loaded.step (h : Loaded engine s) (call : SvgCall) : Loaded engine (svgStep engine s call) := by
  have hkeep : ∀ {s' : SvgState}, s'.initialized = s.initialized → s'.jsCache = s.jsCache →
      Loaded engine s' := by
    intro s' hinit hcache
    unfold Loaded
    rw [hinit, hcache]
    exact h
  have hget : ∀ thread, Loaded engine (getThreadContext engine thread s).1 := by
    intro thread
    obtain ⟨hinit, hcache, -⟩ := getThreadContext_spec engine thread s
    exact hkeep hinit hcache
  cases call with
  | initCache file =>
      show Loaded engine (svgInitCache file s).1
      rw [(svgInitCache_spec file s).2.2 h.1]
      exact h
  | getContext thread => exact hget thread
  | prewarmContext thread =>
      show Loaded engine (svgPrewarmContext engine thread s)
      unfold svgPrewarmContext
      rw [if_pos h.1]
      exact hget thread
  | generate thread file =>
      show Loaded engine (svgGenerate engine thread file s).1
      rw [svgGenerate_eq, (svgInitCache_spec file s).2.2 h.1, if_pos h.1]
      have hcontext := hget thread
      generalize getThreadContext engine thread s = p at hcontext
      obtain ⟨s', context⟩ := p
      cases context with
      | none => exact hcontext
      | some names =>
          by_cases hmem : generateSVG ∈ names
          · rw [callGenerateSVG_of_mem hmem]
            exact hcontext
          · rw [callGenerateSVG_of_not_mem hmem]
            exact hcontext

theorem Loaded.run {h calls : List SvgCall} (hloaded : Loaded engine (runSvg engine h))
    (hbegins : h <+: calls) : Loaded engine (runSvg engine calls) := by
  obtain ⟨rest, rfl⟩ := hbegins
  induction rest using List.reverseRecOn with
  | nil => rwa [List.append_nil]
  | append_singleton rest call ih =>
      rw [← List.append_assoc, runSvg_append]
      exact ih.step call

/--
**The threads can always render exactly if, should a script be loaded in the end, no thread has
asked for a context before it.**
-/
theorem contexts_usable_iff (engine : Engine) (calls : List SvgCall) :
    AlwaysUsable engine calls ↔ (Loaded engine (runSvg engine calls) →
      ∀ h t, h ++ [.getContext t] <+: calls → (runSvg engine h).initialized = true) := by
  constructor
  · intro husable hloaded h t hbegins
    by_contra hinit
    have hearly : AskedEarly engine calls t := ⟨h, hbegins, Bool.eq_false_iff.mpr hinit⟩
    have hrenders := husable calls (List.prefix_refl _) hloaded t none
    exact ((tracks_run engine calls).usable_iff hloaded t none).mp hrenders hearly
  · intro hasked h hbegins hloaded t file
    apply ((tracks_run engine h).usable_iff hloaded t file).mpr
    rintro ⟨h', hbegins', hinit⟩
    have := hasked (hloaded.run hbegins) h' t (hbegins'.trans hbegins)
    rw [hinit] at this
    cases this

/-- An engine for scripts that define the function. -/
def definingEngine : Engine := ⟨fun _ => some [generateSVG], id, fun _ h => h⟩

/-- The script is missing at start-up, a worker answers a query for Grafana, and the script is
there from then on. -/
theorem worker_stays_empty :
    ¬ ∀ (engine : Engine) (calls : List SvgCall), AlwaysUsable engine calls := by
  intro h
  have husable := h definingEngine
    [.initCache none, .getContext 1, .initCache (some (str "function generateSVG() \x7b\x7d"))]
    _ (List.prefix_refl _) ⟨rfl, _, _, rfl, rfl, List.mem_singleton.mpr rfl⟩ 1 none
  exact absurd husable (by decide)

end Svgd.Backend
