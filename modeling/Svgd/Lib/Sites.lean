import Mathlib.Logic.Function.Basic
import Mathlib.Data.List.Basic
import Mathlib.Tactic.Common

/-!
# Machines side by side

Machines at different sites, each with a state of its own. An event is for one site and
changes the state there. So what a run of all of them leaves at a site is what the events
for that site leave there by themselves (`run_apply`), whatever the others are asked in
between.
-/

namespace Lib.Sites

variable {ι σ α : Type*} [DecidableEq ι]

/-- The states after an event for one site. -/
def step (next : σ → α → σ) (s : ι → σ) (e : ι × α) : ι → σ :=
  Function.update s e.1 (next (s e.1) e.2)

/-- The states after a sequence of events. -/
def run (next : σ → α → σ) (s : ι → σ) (es : List (ι × α)) : ι → σ :=
  es.foldl (step next) s

/-- The events for one site. -/
def eventsAt (i : ι) (es : List (ι × α)) : List α :=
  es.filterMap fun e => if e.1 = i then some e.2 else none

variable {next : σ → α → σ} {s : ι → σ}

@[simp] theorem run_nil : run next s [] = s := rfl

@[simp] theorem run_cons (e : ι × α) (es : List (ι × α)) :
    run next s (e :: es) = run next (step next s e) es := rfl

theorem run_append (es fs : List (ι × α)) : run next s (es ++ fs) = run next (run next s es) fs :=
  List.foldl_append

@[simp] theorem eventsAt_nil (i : ι) : eventsAt i ([] : List (ι × α)) = [] := rfl

theorem eventsAt_append (i : ι) (es fs : List (ι × α)) :
    eventsAt i (es ++ fs) = eventsAt i es ++ eventsAt i fs :=
  List.filterMap_append

theorem eventsAt_self (i : ι) (a : α) : eventsAt i [(i, a)] = [a] := by
  simp [eventsAt]

theorem eventsAt_of_ne {i j : ι} (h : j ≠ i) (a : α) : eventsAt i [(j, a)] = [] := by
  simp [eventsAt, h]

theorem mem_eventsAt {i : ι} {a : α} {es : List (ι × α)} :
    a ∈ eventsAt i es ↔ (i, a) ∈ es := by
  unfold eventsAt
  rw [List.mem_filterMap]
  constructor
  · rintro ⟨⟨j, b⟩, hmem, hb⟩
    split at hb
    · rename_i hj
      obtain rfl := Option.some.inj hb
      exact hj ▸ hmem
    · cases hb
  · intro h
    exact ⟨(i, a), h, if_pos rfl⟩

theorem step_apply (e : ι × α) (i : ι) :
    step next s e i = (eventsAt i [e]).foldl next (s i) := by
  obtain ⟨j, a⟩ := e
  by_cases hj : j = i
  · subst hj
    rw [eventsAt_self]
    exact Function.update_self ..
  · rw [eventsAt_of_ne hj]
    exact Function.update_of_ne (Ne.symm hj) ..

/-- **Every site runs by itself.** -/
theorem run_apply (es : List (ι × α)) (i : ι) :
    run next s es i = (eventsAt i es).foldl next (s i) := by
  induction es generalizing s with
  | nil => rfl
  | cons e es ih =>
      have hsplit : eventsAt i (e :: es) = eventsAt i [e] ++ eventsAt i es :=
        eventsAt_append i [e] es
      rw [run_cons, ih, step_apply, hsplit, List.foldl_append]

end Lib.Sites
