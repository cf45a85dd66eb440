import Mathlib.Algebra.GroupWithZero.Nat
import Mathlib.Data.List.Dedup
import Mathlib.Data.List.FinRange
import Mathlib.Data.List.Nodup
import Mathlib.Logic.Function.Basic

/-!
# Chained tables and maps whose entries expire

A `ChainTable` is a hash table with separate chaining, for any key type and any hash
into a fixed number of slots. Its representation invariant is part of the type: an
entry stands in the slot of its key, and no key stands twice in a chain. Hence no key
stands twice in the whole table, whatever collides.

What such a table is for is a `TtlMap`: a partial map from keys to values that each
carry the moment they expire. `find_put` says that the table behaves as that map.
-/

namespace Lib

/-- A key, its value, and when it expires. -/
structure Entry (K V : Type) where
  key : K
  val : V
  expiresAt : Int

variable {K V : Type}

/-! ## The abstract map -/

/-- A partial map from keys to values with an expiry. -/
abbrev TtlMap (K V : Type) := K → Option (V × Int)

namespace TtlMap

/-- The map without entries. -/
def empty : TtlMap K V := fun _ => none

/-- Bind a key. -/
def put [DecidableEq K] (m : TtlMap K V) (k : K) (v : V) (expiresAt : Int) : TtlMap K V :=
  fun x => if k = x then some (v, expiresAt) else m x

/-- The value of a key that has not expired at `now`. -/
def get (m : TtlMap K V) (now : Int) (k : K) : Option V :=
  match m k with
  | some (v, expiresAt) => if now < expiresAt then some v else none
  | none => none

end TtlMap

/-! ## Chains -/

section Chain

variable [DecidableEq K]

/-- The entry of a key in a chain. -/
def chainFind (k : K) : List (Entry K V) → Option (Entry K V)
  | [] => none
  | e :: c => if e.key = k then some e else chainFind k c

/-- Replace the entry of the same key, or append at the end. -/
def chainPut (new : Entry K V) : List (Entry K V) → List (Entry K V)
  | [] => [new]
  | e :: c => if e.key = new.key then new :: c else e :: chainPut new c

theorem chainFind_chainPut (new : Entry K V) (k : K) (c : List (Entry K V)) :
    chainFind k (chainPut new c) = if new.key = k then some new else chainFind k c := by
  induction c with
  | nil => rfl
  | cons e c ih =>
      rw [chainPut]
      by_cases he : e.key = new.key
      · rw [if_pos he, chainFind, chainFind]
        by_cases hk : new.key = k
        · rw [if_pos hk, if_pos hk]
        · rw [if_neg hk, if_neg hk, if_neg (fun h => hk (he.symm.trans h))]
      · rw [if_neg he, chainFind, chainFind, ih]
        by_cases hk : e.key = k
        · rw [if_pos hk, if_pos hk, if_neg (fun h => he (hk.trans h.symm))]
        · rw [if_neg hk, if_neg hk]

theorem chainFind_eq_none {k : K} {c : List (Entry K V)} :
    chainFind k c = none ↔ k ∉ c.map Entry.key := by
  induction c with
  | nil => simp [chainFind]
  | cons e c ih =>
      rw [chainFind, List.map_cons, List.mem_cons, not_or]
      by_cases he : e.key = k
      · simp [he]
      · rw [if_neg he, ih]
        exact ⟨fun h => ⟨fun hk => he hk.symm, h⟩, fun h => h.2⟩

/-- A put adds no key but its own. -/
theorem mem_chainPut {new x : Entry K V} {c : List (Entry K V)} (h : x ∈ chainPut new c) :
    x = new ∨ x ∈ c := by
  induction c with
  | nil => exact Or.inl (List.mem_singleton.mp h)
  | cons e c ih =>
      rw [chainPut] at h
      split at h
      · rcases List.mem_cons.mp h with h | h
        · exact Or.inl h
        · exact Or.inr (List.mem_cons_of_mem _ h)
      · rcases List.mem_cons.mp h with h | h
        · exact Or.inr (h ▸ List.mem_cons_self)
        · rcases ih h with h | h
          · exact Or.inl h
          · exact Or.inr (List.mem_cons_of_mem _ h)

theorem nodup_chainPut (new : Entry K V) {c : List (Entry K V)} (h : (c.map Entry.key).Nodup) :
    ((chainPut new c).map Entry.key).Nodup := by
  induction c with
  | nil => simp [chainPut]
  | cons e c ih =>
      rw [List.map_cons, List.nodup_cons] at h
      rw [chainPut]
      split
      · rename_i he
        rw [List.map_cons, List.nodup_cons, ← he]
        exact h
      · rename_i he
        rw [List.map_cons, List.nodup_cons]
        refine ⟨?_, ih h.2⟩
        intro hm
        obtain ⟨x, hx, hxe⟩ := List.mem_map.mp hm
        rcases mem_chainPut hx with rfl | hx
        · exact he hxe.symm
        · exact h.1 (List.mem_map.mpr ⟨x, hx, hxe⟩)

end Chain

/-! ## Tables -/

/-- A table of `n` chains, with its representation invariant. -/
structure ChainTable (K V : Type) {n : Nat} (hash : K → Fin n) where
  slots : Fin n → List (Entry K V)
  /-- Every entry stands in the slot of its key. -/
  home : ∀ i, ∀ e ∈ slots i, hash e.key = i
  /-- No key stands twice in a chain. -/
  nodup : ∀ i, ((slots i).map Entry.key).Nodup

namespace ChainTable

variable {n : Nat} {hash : K → Fin n}

/-- The table without entries. -/
def empty : ChainTable K V hash where
  slots _ := []
  home _ _ h := absurd h List.not_mem_nil
  nodup _ := List.nodup_nil

/-- All keys of the table, slot by slot. -/
def keys (t : ChainTable K V hash) : List K :=
  (List.finRange n).flatMap fun i => (t.slots i).map Entry.key

/-- **No key stands twice in the table**, whatever keys share a slot. -/
theorem nodup_keys (t : ChainTable K V hash) : t.keys.Nodup := by
  refine List.nodup_flatMap.mpr ⟨fun i _ => t.nodup i, ?_⟩
  refine (List.nodup_finRange n).imp ?_
  intro i j hij k hi hj
  obtain ⟨e, he, rfl⟩ := List.mem_map.mp hi
  obtain ⟨f, hf, hfe⟩ := List.mem_map.mp hj
  -- a key in two slots would have two hashes
  exact hij (by rw [← t.home i e he, ← t.home j f hf, hfe])

/-- The number of entries. -/
def size (t : ChainTable K V hash) : Nat :=
  ((List.finRange n).map fun i => (t.slots i).length).sum

theorem size_eq_length_keys (t : ChainTable K V hash) : t.size = t.keys.length := by
  unfold size keys
  rw [List.length_flatMap]
  simp only [List.length_map]

theorem mem_keys {t : ChainTable K V hash} {k : K} :
    k ∈ t.keys ↔ k ∈ (t.slots (hash k)).map Entry.key := by
  unfold keys
  rw [List.mem_flatMap]
  constructor
  · rintro ⟨i, -, hk⟩
    obtain ⟨e, he, rfl⟩ := List.mem_map.mp hk
    -- an entry stands in the slot of its key and in no other
    rw [t.home i e he]
    exact hk
  · intro hk
    exact ⟨hash k, List.mem_finRange _, hk⟩

variable [DecidableEq K]

/-- Look a key up in the chain of its slot. -/
def find (t : ChainTable K V hash) (k : K) : Option (Entry K V) := chainFind k (t.slots (hash k))

/-- Put an entry into the chain of its slot. -/
def put (t : ChainTable K V hash) (new : Entry K V) : ChainTable K V hash where
  slots := Function.update t.slots (hash new.key) (chainPut new (t.slots (hash new.key)))
  home i e h := by
    by_cases hi : i = hash new.key
    · rw [hi, Function.update_self] at h
      rcases mem_chainPut h with rfl | h
      · exact hi.symm
      · rw [hi]
        exact t.home _ e h
    · rw [Function.update_of_ne hi] at h
      exact t.home i e h
  nodup i := by
    by_cases hi : i = hash new.key
    · rw [hi, Function.update_self]
      exact nodup_chainPut new (t.nodup _)
    · rw [Function.update_of_ne hi]
      exact t.nodup i

@[simp] theorem find_empty (k : K) : (empty : ChainTable K V hash).find k = none := rfl

/-- **The law of the table**: a put binds its key and no other, collisions or not. -/
theorem find_put (t : ChainTable K V hash) (new : Entry K V) (k : K) :
    (t.put new).find k = if new.key = k then some new else t.find k := by
  unfold find put
  dsimp only
  by_cases hs : hash k = hash new.key
  · rw [hs, Function.update_self, chainFind_chainPut]
  · -- another slot, so another key, and an untouched chain
    rw [Function.update_of_ne hs, if_neg]
    exact fun h => hs (by rw [h])

/-- The map a table stands for. -/
def toMap (t : ChainTable K V hash) : TtlMap K V :=
  fun k => (t.find k).map fun e => (e.val, e.expiresAt)

theorem mem_keys_iff {t : ChainTable K V hash} {k : K} : k ∈ t.keys ↔ t.toMap k ≠ none := by
  rw [mem_keys, ← not_iff_not, not_not, ← chainFind_eq_none, toMap, Option.map_eq_none_iff]
  rfl

/-- **A table has one entry for each key of its map.** -/
theorem size_eq_length_dedup {t : ChainTable K V hash} {l : List K}
    (h : ∀ k, t.toMap k ≠ none ↔ k ∈ l) : t.size = l.dedup.length := by
  rw [size_eq_length_keys]
  have hperm : t.keys.Perm l.dedup := by
    rw [List.perm_ext_iff_of_nodup t.nodup_keys l.nodup_dedup]
    intro k
    rw [mem_keys_iff, h, List.mem_dedup]
  exact hperm.length_eq

/-- **A table refines its map.** -/
theorem toMap_put (t : ChainTable K V hash) (new : Entry K V) :
    (t.put new).toMap = t.toMap.put new.key new.val new.expiresAt := by
  funext k
  unfold toMap TtlMap.put
  rw [find_put]
  split <;> rfl

end ChainTable

end Lib
