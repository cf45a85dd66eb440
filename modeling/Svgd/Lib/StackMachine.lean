import Mathlib.Tactic.Common

/-!
# Stack-passing computations that can abort

A computation takes a stack of values and returns a result with a new stack, or
aborts for good. The rules execute a computation step by step: once a step is known
to return, the rest runs on the stack it left; once it is known to abort, so does
the whole.
-/

namespace Lib

/-- A computation over a stack of `V`s; `none` is an abort. -/
abbrev Stacked (V : Type) := StateT (List V) Option

namespace Stacked

variable {V α β : Type}

/-- Stop everything. -/
def abort : Stacked V α := fun _ => none

/-- Push a value. -/
def push (v : V) : Stacked V Unit := fun st => some ((), v :: st)

/-- Drop the top value; there must be one. -/
def pop : Stacked V Unit
  | [] => none
  | _ :: st => some ((), st)

/-- The top value; there must be one. -/
def top : Stacked V V
  | [] => none
  | v :: st => some (v, v :: st)

@[simp] theorem push_run (v : V) (st : List V) : push v st = some ((), v :: st) := rfl

@[simp] theorem pop_run (v : V) (st : List V) : pop (v :: st) = some ((), st) := rfl

@[simp] theorem top_run (v : V) (st : List V) : top (v :: st) = some (v, v :: st) := rfl

@[simp] theorem abort_run (st : List V) : (abort : Stacked V α) st = none := rfl

@[simp] theorem pure_run (a : α) (st : List V) : (pure a : Stacked V α) st = some (a, st) := rfl

/-- A step that returns. -/
theorem bind_run {m : Stacked V α} {f : α → Stacked V β} {st st' : List V} {a : α}
    (h : m st = some (a, st')) : (m >>= f) st = f a st' := by
  show (m st).bind (fun p => f p.1 p.2) = f a st'
  rw [h]
  rfl

/-- A step that aborts. -/
theorem bind_abort {m : Stacked V α} {f : α → Stacked V β} {st : List V}
    (h : m st = none) : (m >>= f) st = none := by
  show (m st).bind (fun p => f p.1 p.2) = none
  rw [h]
  rfl

/-- Two steps that return: the first one has. -/
theorem bind_some {m : Stacked V α} {f : α → Stacked V β} {st : List V} {r : β × List V}
    (h : (m >>= f) st = some r) : ∃ a st', m st = some (a, st') ∧ f a st' = some r := by
  cases hm : m st with
  | none =>
      rw [bind_abort hm] at h
      cases h
  | some p =>
      obtain ⟨a, st'⟩ := p
      rw [bind_run hm] at h
      exact ⟨a, st', rfl, h⟩

end Stacked

end Lib
