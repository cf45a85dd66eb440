import Mathlib.Logic.Function.Basic
import Mathlib.Tactic.Common

/-!
# Working copies

Documents are stored under keys. One key is active, one document is being worked on, and
saving stores it under the active key. Each document carries the keys that were active when
it was loaded and each time it was changed since; one that was not loaded carries none.

A document is in its place (`Marked.Only`) under a key if it carries that key and no other.
A move is careful if it leaves the active key alone while a document is open, and saves no
document that was not loaded. Careful moves keep every stored document in its place.
-/

namespace Lib

variable {K D : Type*} [DecidableEq K]

/-- A document and the keys under which it was loaded and changed. -/
structure Marked (K D : Type*) where
  doc : D
  keys : List K

/-- The active key, the document that is worked on, and the stored documents. -/
structure Desk (K D : Type*) where
  active : K
  copy : Marked K D
  store : K → Option (Marked K D)

inductive Move (K D : Type*) where
  /-- Work starts on a document that is loaded from nowhere. -/
  | blank (doc : D)
  | activate (key : K)
  /-- A key becomes active and its document is loaded. -/
  | load (key : K) (doc : D)
  | edit (doc : D)
  | save
  | discard (key : K)

/-- The keys of a document behind a change. -/
def Marked.edited (m : Marked K D) (key : K) (doc : D) : Marked K D :=
  ⟨doc, if m.keys = [] then [] else key :: m.keys⟩

/-- The document carries the key and no other. -/
def Marked.Only (m : Marked K D) (key : K) : Prop := m.keys ≠ [] ∧ ∀ k ∈ m.keys, k = key

namespace Desk

/-- The desk behind a move. -/
def move (desk : Desk K D) : Move K D → Desk K D
  | .blank doc => { desk with copy := ⟨doc, []⟩ }
  | .activate key => { desk with active := key }
  | .load key doc => { desk with active := key, copy := ⟨doc, [key]⟩ }
  | .edit doc => { desk with copy := desk.copy.edited desk.active doc }
  | .save => { desk with store := Function.update desk.store desk.active (some desk.copy) }
  | .discard key => { desk with store := Function.update desk.store key none }

/-- The desk behind a sequence of moves. -/
def moves (desk : Desk K D) (ms : List (Move K D)) : Desk K D := ms.foldl move desk

/-- Every stored document is in its place. -/
def Sorted (desk : Desk K D) : Prop := ∀ key m, desk.store key = some m → m.Only key

/-- The move leaves the active key alone while a document is open, and saves no other. -/
def Careful (desk : Desk K D) : Move K D → Prop
  | .activate key => desk.copy.keys = [] ∨ key = desk.active
  | .save => desk.copy.keys ≠ []
  | _ => True

/-- Every move of a sequence is careful. -/
def AllCareful : Desk K D → List (Move K D) → Prop
  | _, [] => True
  | desk, m :: ms => desk.Careful m ∧ (desk.move m).AllCareful ms

/-- Every document is in its place, and the open one carries no key but the active. -/
structure Neat (desk : Desk K D) : Prop where
  sorted : desk.Sorted
  copy : ∀ k ∈ desk.copy.keys, k = desk.active

variable {desk : Desk K D} {ms : List (Move K D)}

theorem moves_append (desk : Desk K D) (ms ms' : List (Move K D)) :
    desk.moves (ms ++ ms') = (desk.moves ms).moves ms' := List.foldl_append

/-- **The step.** -/
theorem Neat.move (h : desk.Neat) {m : Move K D} (hcareful : desk.Careful m) : (desk.move m).Neat := by
  cases m with
  | blank doc => exact ⟨h.sorted, fun k hk => absurd hk List.not_mem_nil⟩
  | activate key =>
      refine ⟨h.sorted, fun k hk => ?_⟩
      rcases hcareful with hnone | rfl
      · have hk : k ∈ desk.copy.keys := hk
        rw [hnone] at hk
        cases hk
      · exact h.copy k hk
  | load key doc => exact ⟨h.sorted, fun k hk => List.mem_singleton.mp hk⟩
  | edit doc =>
      refine ⟨h.sorted, fun k hk => ?_⟩
      have hk : k ∈ if desk.copy.keys = [] then [] else desk.active :: desk.copy.keys := hk
      split at hk
      · cases hk
      · exact (List.mem_cons.mp hk).elim id (h.copy k)
  | save =>
      refine ⟨fun key m hm => ?_, h.copy⟩
      have hm : Function.update desk.store desk.active (some desk.copy) key = some m := hm
      by_cases hkey : key = desk.active
      · rw [hkey, Function.update_self] at hm
        obtain rfl := Option.some.inj hm
        exact ⟨hcareful, hkey ▸ h.copy⟩
      · rw [Function.update_of_ne hkey] at hm
        exact h.sorted key m hm
  | discard key' =>
      refine ⟨fun key m hm => ?_, h.copy⟩
      have hm : Function.update desk.store key' none key = some m := hm
      by_cases hkey : key = key'
      · rw [hkey, Function.update_self] at hm
        cases hm
      · rw [Function.update_of_ne hkey] at hm
        exact h.sorted key m hm

/-- **The run.** -/
theorem Neat.moves (h : desk.Neat) (hcareful : desk.AllCareful ms) : (desk.moves ms).Neat := by
  induction ms generalizing desk with
  | nil => exact h
  | cons m ms ih => exact ih (h.move hcareful.1) hcareful.2

end Desk

end Lib
