import Svgd.Proof.CacheRefine

/-!
# How many entries the cache holds

`CACHE_MAX_ENTRIES` is the number of chains, and nothing bounds a chain. An expired entry
is replaced by the next `put` of its key only, and no other call but `rrd_cache_free` takes
an entry out. So the table holds one entry for each key that a `put` has named since the
last `free`, whatever has expired and whatever keys share a slot: `size_runOps`.

The keys are read off the history, as in `CacheRefine`, whose refinement already says which
keys the table binds.
-/

namespace Svgd.Backend

open Lib

/-- `CACHE_MAX_ENTRIES`. -/
def cacheMaxEntries : Nat := 64

/-- The keys that effective `put`s have named since the last `free`, with repetitions; the
history has its latest call first. -/
def putKeys : List (Int × CacheOp) → List Bytes
  | [] => []
  | (_, .free) :: _ => []
  | (_, .put (some path) period (some _)) :: h =>
      if inUse h = true then buildCacheKey path period :: putKeys h else putKeys h
  | (_, .put _ _ _) :: h => putKeys h
  | (_, .init _) :: h => putKeys h
  | (_, .get _ _) :: h => putKeys h

/-- How many different keys these are. -/
def distinctKeys (h : List (Int × CacheOp)) : Nat := (putKeys h).dedup.length

/-- The keys that were put are those with a latest `put`. -/
theorem latestPut_ne_none {key : Bytes} :
    ∀ {h : List (Int × CacheOp)}, latestPut key h ≠ none ↔ key ∈ putKeys h
  | [] => by simp [latestPut, putKeys]
  | (now, op) :: h => by
      have ih := @latestPut_ne_none key h
      cases op with
      | init _ => exact ih
      | get _ _ => exact ih
      | free => simp [latestPut, putKeys]
      | put path period data =>
          cases path with
          | none => exact ih
          | some path =>
              cases data with
              | none => exact ih
              | some d =>
                  rw [latestPut, putKeys]
                  by_cases huse : inUse h = true
                  · rw [if_pos huse, List.mem_cons]
                    by_cases hkey : buildCacheKey path period = key
                    · simp [huse, hkey]
                    · rw [if_neg (fun hc => hkey hc.2), ih]
                      exact ⟨Or.inr, fun hm => hm.resolve_left (Ne.symm hkey)⟩
                  · rw [if_neg (fun hc => huse hc.1), if_neg huse]
                    exact ih

/-- **The table holds one entry for each key that was put.** -/
theorem size_runOps (ops : List (Int × CacheOp)) :
    (runOps ops).slots.size = distinctKeys ops.reverse := by
  apply ChainTable.size_eq_length_dedup
  intro key
  rw [(represents_runOps ops).map, historyMap, ne_eq, Option.map_eq_none_iff]
  exact latestPut_ne_none

/--
**The cache is bounded exactly where the keys are.**

In all states that a sequence of calls goes through, whatever their times, the table holds
at most `CACHE_MAX_ENTRIES` entries if and only if, at every moment, the `put`s that took
effect since the last `free` have named at most that many different keys.
-/
theorem cache_bounded_iff (ops : List (Int × CacheOp)) :
    (∀ h, h <+: ops → (runOps h).slots.size ≤ cacheMaxEntries)
      ↔ ∀ h, h <+: ops → distinctKeys h.reverse ≤ cacheMaxEntries := by
  simp only [size_runOps]

/-- A `get` leaves the table alone, also when it finds an expired entry. -/
theorem runOps_gets (ops gets : List (Int × CacheOp))
    (h : ∀ op ∈ gets, ∃ path period, op.2 = .get path period) :
    runOps (ops ++ gets) = runOps ops := by
  induction gets using List.reverseRecOn with
  | nil => rw [List.append_nil]
  | append_singleton gets op ih =>
      obtain ⟨now, call⟩ := op
      obtain ⟨path, period, rfl⟩ := h (now, call) (by simp)
      have hlast : runOps (ops ++ (gets ++ [(now, .get path period)])) = runOps (ops ++ gets) := by
        rw [← List.append_assoc, runOps, List.foldl_append]
        rfl
      rw [hlast]
      exact ih fun op hop => h op (List.mem_append_left _ hop)

/-- One file, put for the periods 1 to `n` within a second. -/
def periodPuts (n : Nat) : List (Int × CacheOp) :=
  (0, .init 5) :: (List.range n).map fun i : Nat =>
    (1, .put (some (str "/r/cpu.rrd")) (i + 1) (some (sampleData (str "cpu"))))

theorem inUse_periodPuts (n : Nat) : inUse (periodPuts n).reverse = true := by
  induction n with
  | zero => rfl
  | succ n ih =>
      unfold periodPuts at ih ⊢
      rw [List.range_succ, List.map_append, ← List.cons_append, List.reverse_append]
      exact ih

theorem putKeys_periodPuts (n : Nat) :
    putKeys (periodPuts n).reverse
      = ((List.range n).map fun i : Nat => buildCacheKey (str "/r/cpu.rrd") (i + 1)).reverse := by
  induction n with
  | zero => rfl
  | succ n ih =>
      have huse := inUse_periodPuts n
      unfold periodPuts at ih huse ⊢
      rw [List.range_succ, List.map_append, ← List.cons_append, List.reverse_append, List.map_append,
        List.reverse_append, ← ih]
      -- the latest put is at the head of the history
      exact if_pos huse

/-- **Every period is an entry**, in any number. -/
theorem size_periodPuts {n : Nat} (hn : n < 10 ^ 20) : (runOps (periodPuts n)).slots.size = n := by
  have hfits : ∀ i ∈ List.range n, KeyFits (str "/r/cpu.rrd") ((i : Int) + 1) := by
    intro i hi
    have hi := List.mem_range.mp hi
    have hlen : (printInt ((i : Int) + 1)).length ≤ 21 := length_printInt_le (by omega)
    have hpath : (str "/r/cpu.rrd").length = 10 := rfl
    unfold KeyFits
    omega
  have hnodup : ((List.range n).map fun i : Nat =>
      buildCacheKey (str "/r/cpu.rrd") (i + 1)).Nodup := by
    refine List.Nodup.map_on ?_ List.nodup_range
    intro i hi j hj heq
    have := (eq_of_buildCacheKey_eq (hfits i hi) (hfits j hj) heq).2
    omega
  rw [size_runOps, distinctKeys, putKeys_periodPuts, (List.nodup_reverse.mpr hnodup).dedup,
    List.length_reverse, List.length_map, List.length_range]

/-- One file asked for with 65 periods, and the table holds 65 entries; it still does when a
minute later, after all have expired, somebody looks for the first one. -/
theorem cache_grows_past_maximum :
    (runOps (periodPuts 65)).slots.size = 65
      ∧ (runOps (periodPuts 65 ++ [(61, .get (some (str "/r/cpu.rrd")) 1)])).slots.size = 65
      ∧ cacheMaxEntries = 64 := by
  have hsize : (runOps (periodPuts 65)).slots.size = 65 := size_periodPuts (by decide)
  refine ⟨hsize, ?_, rfl⟩
  rw [runOps_gets, hsize]
  intro op hop
  rw [List.mem_singleton] at hop
  exact ⟨_, _, by rw [hop]⟩

end Svgd.Backend
