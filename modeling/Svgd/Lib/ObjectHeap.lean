import Mathlib.Tactic.Common

/-!
# Building objects on a value stack

The interface that embedded script engines have for their host: values are pushed onto a stack
of limited room, an object that is pushed is a reference into a heap, and a field is set in the
object below the top of the stack, with the value on top, which is popped.

A program that builds a value has the spec `Builds`: it pushes one value that reads as a given
tree, takes a given number of slots at most, and leaves every object that was there untouched. A
program that adds fields to the object on top has the spec `Fills`. The rules compose the two,
so that the spec of a program follows its text.
-/

namespace Lib

/-- A value: a primitive one, or a reference to an object. -/
inductive Slot (P : Type) where
  | prim (p : P)
  | object (address : Nat)
deriving DecidableEq

/-- An object, with its fields in the order in which they were created. -/
structure HeapObject (T K P : Type) where
  kind : T
  fields : List (K × Slot P)
deriving DecidableEq

/-- A value stack with its top first, a heap that is addressed by position, and the number of
slots the stack may have. -/
structure ObjectMachine (T K P : Type) where
  stack : List (Slot P)
  heap : List (HeapObject T K P)
  room : Nat

/-- A computation on the machine; `none` is an abort. -/
abbrev Build (T K P α : Type) := StateT (ObjectMachine T K P) Option α

variable {T K P : Type}

namespace HeapObject

variable [DecidableEq K]

/-- Set a field: in its place if it is there, else behind the others. -/
def set (k : K) (v : Slot P) (o : HeapObject T K P) : HeapObject T K P :=
  { o with
    fields :=
      if k ∈ o.fields.map Prod.fst then o.fields.map fun f => if f.1 = k then (k, v) else f
      else o.fields ++ [(k, v)] }

theorem set_new {k : K} {o : HeapObject T K P} (h : k ∉ o.fields.map Prod.fst) (v : Slot P) :
    o.set k v = ⟨o.kind, o.fields ++ [(k, v)]⟩ := by
  unfold set
  rw [if_neg h]

end HeapObject

namespace Build

/-- Push a value, if there is room. -/
def push (v : Slot P) : Build T K P Unit := fun m =>
  if m.stack.length < m.room then some ((), { m with stack := v :: m.stack }) else none

/-- Push a new object. -/
def pushObject (kind : T) : Build T K P Unit := fun m =>
  if m.stack.length < m.room then
    some ((), { m with stack := .object m.heap.length :: m.stack, heap := m.heap ++ [⟨kind, []⟩] })
  else none

/-- Pop a value into a field of the object below it. -/
def putField [DecidableEq K] (k : K) : Build T K P Unit := fun m =>
  match m.stack with
  | v :: .object a :: st =>
      some ((), { m with stack := .object a :: st, heap := m.heap.modify a (·.set k v) })
  | _ => none

/-- Drop the top value. -/
def pop : Build T K P Unit := fun m =>
  match m.stack with
  | _ :: st => some ((), { m with stack := st })
  | [] => none

/-- Drop the value below the top. -/
def removeBelow : Build T K P Unit := fun m =>
  match m.stack with
  | v :: _ :: st => some ((), { m with stack := v :: st })
  | _ => none

/-- The top value. -/
def top : Build T K P (Slot P) := fun m =>
  match m.stack with
  | v :: _ => some (v, m)
  | [] => none

variable {α β : Type}

/-- A step that returns. -/
theorem bind_run {p : Build T K P α} {f : α → Build T K P β} {m m' : ObjectMachine T K P} {a : α}
    (h : p m = some (a, m')) : (p >>= f) m = f a m' := by
  show (p m).bind (fun q => f q.1 q.2) = f a m'
  rw [h]
  rfl

theorem push_run {m : ObjectMachine T K P} (h : m.stack.length < m.room) (v : Slot P) :
    push v m = some ((), { m with stack := v :: m.stack }) := if_pos h

theorem pushObject_run {m : ObjectMachine T K P} (h : m.stack.length < m.room) (kind : T) :
    pushObject kind m = some ((), { m with
      stack := .object m.heap.length :: m.stack
      heap := m.heap ++ [⟨kind, []⟩] }) := if_pos h

end Build

/-! ## What a value reads as -/

/-- A value with everything it refers to. -/
inductive ObjectTree (T K P : Type) where
  | prim (p : P)
  | node (kind : T) (fields : List (K × ObjectTree T K P))

/-- The values read as the trees, through objects from the address `lo` on. -/
inductive ReadsAll (heap : List (HeapObject T K P)) (lo : Nat) :
    List (Slot P) → List (ObjectTree T K P) → Prop where
  | nil : ReadsAll heap lo [] []
  | prim {p : P} {vs : List (Slot P)} {ts : List (ObjectTree T K P)} :
      ReadsAll heap lo vs ts → ReadsAll heap lo (.prim p :: vs) (.prim p :: ts)
  | node {a : Nat} {kind : T} {fs : List (K × Slot P)} {gs : List (K × ObjectTree T K P)}
      {vs : List (Slot P)} {ts : List (ObjectTree T K P)} :
      lo ≤ a → heap[a]? = some ⟨kind, fs⟩ → fs.map Prod.fst = gs.map Prod.fst →
      ReadsAll heap lo (fs.map Prod.snd) (gs.map Prod.snd) → ReadsAll heap lo vs ts →
      ReadsAll heap lo (.object a :: vs) (.node kind gs :: ts)

/-- The value reads as the tree. -/
def Reads (heap : List (HeapObject T K P)) (lo : Nat) (v : Slot P) (t : ObjectTree T K P) : Prop :=
  ReadsAll heap lo [v] [t]

/-- Every object from the address `lo` on is still there. -/
def KeepsFrom (lo : Nat) (heap heap' : List (HeapObject T K P)) : Prop :=
  ∀ b o, lo ≤ b → heap[b]? = some o → heap'[b]? = some o

section

variable {heap heap' : List (HeapObject T K P)} {lo : Nat} {vs ws : List (Slot P)}
  {ts us : List (ObjectTree T K P)}

/-- Objects that are not read may change. -/
theorem ReadsAll.frame (h : ReadsAll heap lo vs ts) (hkeep : KeepsFrom lo heap heap') :
    ReadsAll heap' lo vs ts := by
  induction h with
  | nil => exact .nil
  | prim _ ih => exact .prim ih
  | node hlo hget hkeys _ _ ihfields ihrest => exact .node hlo (hkeep _ _ hlo hget) hkeys ihfields ihrest

/-- What was built is not touched by what is built behind it. -/
theorem ReadsAll.kept (h : ReadsAll heap lo vs ts) (hkeep : KeepsFrom 0 heap heap') :
    ReadsAll heap' lo vs ts := h.frame fun b o _ hget => hkeep b o (Nat.zero_le _) hget

theorem ReadsAll.mono {lo' : Nat} (hle : lo' ≤ lo) (h : ReadsAll heap lo vs ts) :
    ReadsAll heap lo' vs ts := by
  induction h with
  | nil => exact .nil
  | prim _ ih => exact .prim ih
  | node hlo hget hkeys _ _ ihfields ihrest => exact .node (Nat.le_trans hle hlo) hget hkeys ihfields ihrest

theorem ReadsAll.append (h : ReadsAll heap lo vs ts) (h' : ReadsAll heap lo ws us) :
    ReadsAll heap lo (vs ++ ws) (ts ++ us) := by
  induction h with
  | nil => exact h'
  | prim _ ih => exact .prim ih
  | node hlo hget hkeys hfields _ _ ihrest => exact .node hlo hget hkeys hfields ihrest

theorem KeepsFrom.length_le (h : KeepsFrom 0 heap heap') : heap.length ≤ heap'.length := by
  by_contra hlt
  obtain ⟨o, hlast⟩ : ∃ o, heap[heap'.length]? = some o :=
    ⟨_, List.getElem?_eq_getElem (Nat.lt_of_not_le hlt)⟩
  have hnone : heap'[heap'.length]? = none := List.getElem?_eq_none (Nat.le_refl _)
  rw [h _ _ (Nat.zero_le _) hlast] at hnone
  cases hnone

end

/-! ## Specs -/

/-- The program pushes a value that reads as the tree, in `depth` slots. -/
def Builds (p : Build T K P Unit) (t : ObjectTree T K P) (depth : Nat) : Prop :=
  ∀ m : ObjectMachine T K P, m.stack.length + depth ≤ m.room →
    ∃ v heap, p m = some ((), { m with stack := v :: m.stack, heap })
      ∧ KeepsFrom 0 m.heap heap ∧ Reads heap m.heap.length v t

/-- What a program has done that adds fields to the object at `a`. -/
structure Filled (a : Nat) (kind : T) (done : List (K × Slot P)) (before : List (HeapObject T K P))
    (gs : List (K × ObjectTree T K P)) (after : List (HeapObject T K P)) (fs : List (K × Slot P)) :
    Prop where
  object : after[a]? = some ⟨kind, done ++ fs⟩
  others : ∀ b o, b ≠ a → before[b]? = some o → after[b]? = some o
  grows : before.length ≤ after.length
  keys : fs.map Prod.fst = gs.map Prod.fst
  reads : ReadsAll after before.length (fs.map Prod.snd) (gs.map Prod.snd)

/-- The program adds fields that are new to the object on top, in `depth` slots above it. -/
def Fills (p : Build T K P Unit) (gs : List (K × ObjectTree T K P)) (depth : Nat) : Prop :=
  ∀ (m : ObjectMachine T K P) (a : Nat) (st : List (Slot P)) (kind : T) (done : List (K × Slot P)),
    m.stack = .object a :: st → m.heap[a]? = some ⟨kind, done⟩ →
    (∀ k ∈ gs.map Prod.fst, k ∉ done.map Prod.fst) → m.stack.length + depth ≤ m.room →
    ∃ heap fs, p m = some ((), { m with heap }) ∧ Filled a kind done m.heap gs heap fs

theorem Builds.weaken {p : Build T K P Unit} {t : ObjectTree T K P} {d e : Nat} (h : Builds p t d)
    (hle : d ≤ e) : Builds p t e := fun m hroom => h m (by omega)

theorem Fills.weaken {p : Build T K P Unit} {gs : List (K × ObjectTree T K P)} {d e : Nat}
    (h : Fills p gs d) (hle : d ≤ e) : Fills p gs e := fun m a st kind done hstack hget hnew hroom =>
  h m a st kind done hstack hget hnew (by omega)

/-! ## Rules -/

section

variable {p q : Build T K P Unit} {gs hs : List (K × ObjectTree T K P)} {t : ObjectTree T K P}
  {d : Nat}

/-- **A primitive value.** -/
theorem builds_push (x : P) : Builds (Build.push (.prim x)) (.prim x : ObjectTree T K P) 1 :=
  fun m hroom => ⟨.prim x, m.heap, Build.push_run (by omega) _, fun _ _ _ h => h, .prim .nil⟩

/-- **Nothing to add.** -/
theorem fills_nil : Fills (pure () : Build T K P Unit) [] 0 :=
  fun m _ _ _ done _ hget _ _ => ⟨m.heap, [], rfl, by rwa [List.append_nil], fun _ _ _ h => h,
    Nat.le_refl _, rfl, .nil⟩

/-- **One program after the other**, if their fields differ. -/
theorem Fills.append (hp : Fills p gs d) (hq : Fills q hs d)
    (hdistinct : ∀ k ∈ hs.map Prod.fst, k ∉ gs.map Prod.fst) :
    Fills (p >>= fun _ => q) (gs ++ hs) d := by
  intro m a st kind done hstack hget hnew hroom
  rw [List.map_append] at hnew
  obtain ⟨heap₁, fs₁, hrun₁, h₁⟩ := hp m a st kind done hstack hget
    (fun k hk => hnew k (List.mem_append_left _ hk)) hroom
  obtain ⟨heap₂, fs₂, hrun₂, h₂⟩ := hq { m with heap := heap₁ } a st kind (done ++ fs₁) hstack
    h₁.object (fun k hk hmem => by
      rw [List.map_append, h₁.keys, List.mem_append] at hmem
      exact hmem.elim (hnew k (List.mem_append_right _ hk)) (hdistinct k hk)) hroom
  have halt : a < m.heap.length := (List.getElem?_eq_some_iff.mp hget).1
  -- what the first program made lies behind the object, so the second one leaves it alone
  have hkeep : KeepsFrom m.heap.length heap₁ heap₂ := fun b o hb hbget =>
    h₂.others b o (by omega) hbget
  refine ⟨heap₂, fs₁ ++ fs₂, (Build.bind_run hrun₁).trans hrun₂, ⟨?_, ?_, ?_, ?_, ?_⟩⟩
  · rw [← List.append_assoc]
    exact h₂.object
  · exact fun b o hb hbget => h₂.others b o hb (h₁.others b o hb hbget)
  · exact Nat.le_trans h₁.grows h₂.grows
  · rw [List.map_append, List.map_append, h₁.keys, h₂.keys]
  · rw [List.map_append, List.map_append]
    exact (h₁.reads.frame hkeep).append (h₂.reads.mono h₁.grows)

variable [DecidableEq K]

/-- **A field**: its value is built above the object and put into it. -/
theorem Builds.field (hp : Builds p t d) (k : K) :
    Fills (p >>= fun _ => Build.putField k) [(k, t)] d := by
  intro m a st kind done hstack hget hnew hroom
  obtain ⟨v, heap, hrun, hkeep, hreads⟩ := hp m hroom
  have hobject : heap[a]? = some ⟨kind, done⟩ := hkeep a _ (Nat.zero_le _) hget
  have halt : a < m.heap.length := (List.getElem?_eq_some_iff.mp hget).1
  have hk : k ∉ done.map Prod.fst := hnew k List.mem_cons_self
  have hother : ∀ b, b ≠ a → (heap.modify a (·.set k v))[b]? = heap[b]? := fun b hb =>
    List.getElem?_modify_ne _ _ (Ne.symm hb)
  refine ⟨heap.modify a (·.set k v), [(k, v)], ?_, ⟨?_, ?_, ?_, rfl, ?_⟩⟩
  · rw [Build.bind_run hrun, hstack]
    rfl
  · rw [List.getElem?_modify_eq, hobject]
    exact congrArg some (HeapObject.set_new hk v)
  · intro b o hb hbget
    rw [hother b hb]
    exact hkeep b o (Nat.zero_le _) hbget
  · rw [List.length_modify]
    exact hkeep.length_le
  · refine hreads.frame fun b o hb hbget => ?_
    rw [hother b (by omega)]
    exact hbget

omit [DecidableEq K] in
/-- **An object** with the fields that a program adds to it. -/
theorem Fills.object (hp : Fills p gs d) (kind : T) :
    Builds (Build.pushObject kind >>= fun _ => p) (.node kind gs) (d + 1) := by
  intro m hroom
  have hget : (m.heap ++ [(⟨kind, []⟩ : HeapObject T K P)])[m.heap.length]? = some ⟨kind, []⟩ := by
    rw [List.getElem?_append_right (Nat.le_refl _), Nat.sub_self]
    rfl
  obtain ⟨heap, fs, hrun, h⟩ := hp
    { m with stack := .object m.heap.length :: m.stack, heap := m.heap ++ [⟨kind, []⟩] }
    m.heap.length m.stack kind [] rfl hget (fun _ _ => List.not_mem_nil)
    (show m.stack.length + 1 + d ≤ m.room by omega)
  refine ⟨.object m.heap.length, heap,
    (Build.bind_run (Build.pushObject_run (by omega) kind)).trans hrun, ?_, ?_⟩
  · intro b o _ hbget
    have hblt : b < m.heap.length := (List.getElem?_eq_some_iff.mp hbget).1
    refine h.others b o (by omega) ?_
    rw [List.getElem?_append_left hblt]
    exact hbget
  · refine .node (Nat.le_refl _) h.object h.keys (h.reads.mono ?_) .nil
    rw [List.length_append]
    omega

end

end Lib
