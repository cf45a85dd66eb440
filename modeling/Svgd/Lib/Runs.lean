import Mathlib.Tactic.TypeStar

/-!
# Runs of a system

A system takes a step under an action, or cannot. What holds along a run holds of each
of its steps, given the state before it, the action and the state after it. An invariant
of the steps that meet a condition turns the condition along a run into what the
invariant gives for one step (`along_imp`), and back (`along_iff`).
-/

namespace Lib

variable {σ α : Type*}

/-- A property of every step of a run; an action that cannot be taken ends the run. -/
def Along (step : σ → α → Option σ) (P : σ → α → σ → Prop) : σ → List α → Prop
  | _, [] => True
  | s, a :: as => ∀ s', step s a = some s' → P s a s' ∧ Along step P s' as

variable {step : σ → α → Option σ} {C P : σ → α → σ → Prop} {Inv : σ → Prop}

/-- The condition gives the property along a run, if it keeps an invariant that does. -/
theorem along_imp (keep : ∀ s a s', Inv s → step s a = some s' → C s a s' → Inv s')
    (give : ∀ s a s', Inv s → step s a = some s' → C s a s' → P s a s') :
    ∀ (as : List α) (s : σ), Inv s → Along step C s as → Along step P s as := by
  intro as
  induction as with
  | nil => exact fun _ _ _ => trivial
  | cons a as ih =>
      intro s hs hC s' hstep
      obtain ⟨hc, hrest⟩ := hC s' hstep
      exact ⟨give s a s' hs hstep hc, ih s' (keep s a s' hs hstep hc) hrest⟩

/-- The condition and the property hold along the same runs, if they agree on each step. -/
theorem along_iff (keep : ∀ s a s', Inv s → step s a = some s' → C s a s' → Inv s')
    (agree : ∀ s a s', Inv s → step s a = some s' → (C s a s' ↔ P s a s')) (as : List α) (s : σ)
    (hs : Inv s) : Along step C s as ↔ Along step P s as := by
  constructor
  · exact along_imp keep (fun s a s' h hstep => (agree s a s' h hstep).mp) as s hs
  · have keep' : ∀ s a s', Inv s → step s a = some s' → P s a s' → Inv s' :=
      fun s a s' h hstep hp => keep s a s' h hstep ((agree s a s' h hstep).mpr hp)
    exact along_imp keep' (fun s a s' h hstep => (agree s a s' h hstep).mpr) as s hs

end Lib
