import Svgd.Backend.Config
import Svgd.Lib.ChainTable

/-!
# The data cache

`src/rrd/cache.c`: 64 chains of entries, a lifetime, and a flag that says whether the
cache is in use. Every operation runs under one lock, so it is one step here. The
operations that look at the clock take it as an argument. Allocations are taken to
succeed.
-/

namespace Svgd.Backend

open Lib

/-- `CACHE_KEY_SIZE`. -/
def cacheKeySize : Nat := 512

/-- A `char` as it is added to an `unsigned int`: sign-extended. -/
def signExtend (b : UInt8) : UInt32 :=
  if b.toNat < 128 then b.toUInt32 else b.toUInt32 + 0xFFFFFF00

/-- `cache_hash`. -/
def cacheHash (key : Bytes) : Fin 64 :=
  let hash := key.foldl (fun (h : UInt32) b => ((h <<< 5) + h) + signExtend b) 5381
  ⟨hash.toNat % 64, Nat.mod_lt _ (by decide)⟩

/-- `build_cache_key`. -/
def buildCacheKey (rrdPath : Bytes) (period : Int) : Bytes :=
  snprintf cacheKeySize (rrdPath ++ str ":" ++ printInt period)

/-- `clone_metric_data`: a missing parameter becomes the empty string, and a series without a
name makes the clone fail. -/
def cloneMetricData (d : MetricData) : Option MetricData :=
  if d.series.all (·.name.isSome) then some { d with param1 := some (d.param1.getD []) } else none

/-- The static variables of `cache.c`. -/
structure Cache where
  slots : ChainTable Bytes MetricData cacheHash := .empty
  ttlSeconds : Int := 5
  initialized : Bool := false

/-- `rrd_cache_init`. -/
def rrdCacheInit (c : Cache) (ttlSeconds : Int) : Cache :=
  { c with ttlSeconds := if 0 < ttlSeconds then ttlSeconds else 5, initialized := true }

/-- `rrd_cache_get` at time `now`. -/
def rrdCacheGet (c : Cache) (now : Int) (rrdPath : Option Bytes) (period : Int) :
    Option MetricData :=
  match rrdPath with
  | none => none
  | some path =>
      if c.initialized then
        match c.slots.find (buildCacheKey path period) with
        | some entry => if now < entry.expiresAt then cloneMetricData entry.val else none
        | none => none
      else none

/-- `rrd_cache_put` at time `now`. -/
def rrdCachePut (c : Cache) (now : Int) (rrdPath : Option Bytes) (period : Int)
    (data : Option MetricData) : Cache :=
  match rrdPath, data with
  | some path, some d =>
      if c.initialized then
        { c with slots := c.slots.put ⟨buildCacheKey path period, d, now + c.ttlSeconds⟩ }
      else c
  | _, _ => c

/-- `rrd_cache_free`. -/
def rrdCacheFree (c : Cache) : Cache := { c with slots := .empty, initialized := false }

example : cacheHash (str "/r/cpu.rrd:3600") = 22 := by decide +kernel

/-! ## The operations on the map -/

/-- Data whose series all have names survives the clone. -/
theorem cloneMetricData_of_named {d : MetricData} (h : d.series.all (·.name.isSome) = true) :
    cloneMetricData d = some { d with param1 := some (d.param1.getD []) } := if_pos h

theorem cloneMetricData_some {d r : MetricData} (h : cloneMetricData d = some r) :
    d.series.all (·.name.isSome) = true ∧ r = { d with param1 := some (d.param1.getD []) } := by
  unfold cloneMetricData at h
  split at h
  · rename_i hn
    injection h with h
    exact ⟨hn, h.symm⟩
  · exact absurd h (by simp)

section

variable {c : Cache} {now : Int} {path : Bytes} {period : Int}

/-- A `get` looks the built key up in the map and clones what it finds. -/
theorem rrdCacheGet_eq_some (hc : c.initialized = true) {r : MetricData} :
    rrdCacheGet c now (some path) period = some r
      ↔ ∃ d e, c.slots.toMap (buildCacheKey path period) = some (d, e) ∧ now < e
        ∧ cloneMetricData d = some r := by
  unfold rrdCacheGet ChainTable.toMap
  dsimp only
  rw [if_pos hc]
  cases c.slots.find (buildCacheKey path period) with
  | none => simp
  | some entry =>
      dsimp only
      by_cases hlt : now < entry.expiresAt
      · simp [hlt]
      · simp [hlt]

/-- A `put` binds the built key for one lifetime. -/
theorem toMap_rrdCachePut (hc : c.initialized = true) (d : MetricData) :
    (rrdCachePut c now (some path) period (some d)).slots.toMap
      = c.slots.toMap.put (buildCacheKey path period) d (now + c.ttlSeconds) := by
  unfold rrdCachePut
  dsimp only
  rw [if_pos hc, ChainTable.toMap_put]

@[simp] theorem initialized_rrdCachePut (path : Option Bytes) (data : Option MetricData) :
    (rrdCachePut c now path period data).initialized = c.initialized := by
  unfold rrdCachePut
  split
  · split <;> rfl
  · rfl

@[simp] theorem ttlSeconds_rrdCachePut (path : Option Bytes) (data : Option MetricData) :
    (rrdCachePut c now path period data).ttlSeconds = c.ttlSeconds := by
  unfold rrdCachePut
  split
  · split <;> rfl
  · rfl

end

/-- The lifetime after `rrd_cache_init`. -/
def lifetime (ttlSeconds : Int) : Int := if 0 < ttlSeconds then ttlSeconds else 5

/-! ## Keys -/

/-- A path and a period whose key is not cut. -/
def KeyFits (path : Bytes) (period : Int) : Prop :=
  path.length + 1 + (printInt period).length ≤ 511

instance (path : Bytes) (period : Int) : Decidable (KeyFits path period) :=
  inferInstanceAs (Decidable (_ ≤ _))

theorem buildCacheKey_of_fits {path : Bytes} {period : Int} (h : KeyFits path period) :
    buildCacheKey path period = path ++ ch ':' :: printInt period := by
  have hcolon : str ":" = [ch ':'] := rfl
  unfold KeyFits at h
  unfold buildCacheKey
  rw [hcolon, List.append_assoc, List.singleton_append, snprintf_of_lt]
  rw [List.length_append, List.length_cons, cacheKeySize]
  omega

theorem colon_not_mem_printInt (z : Int) : ch ':' ∉ printInt z := by
  intro hz
  rcases mem_printInt hz with hd | hd
  · exact absurd hd (by decide)
  · exact absurd hd (by decide)

/-- A key that is not cut names its path and its period: the last colon separates them. -/
theorem eq_of_buildCacheKey_eq {p q : Bytes} {m n : Int} (hp : KeyFits p m) (hq : KeyFits q n)
    (h : buildCacheKey p m = buildCacheKey q n) : p = q ∧ m = n := by
  rw [buildCacheKey_of_fits hp, buildCacheKey_of_fits hq] at h
  -- read both keys backwards, up to the first colon
  have hrev : (printInt m).reverse ++ ch ':' :: p.reverse
      = (printInt n).reverse ++ ch ':' :: q.reverse := by
    have := congrArg List.reverse h
    simpa using this
  have hm : ch ':' ∉ (printInt m).reverse := by simpa using colon_not_mem_printInt m
  have hn : ch ':' ∉ (printInt n).reverse := by simpa using colon_not_mem_printInt n
  have hrest : some (ch ':' :: p.reverse) = some (ch ':' :: q.reverse) := by
    rw [← strchr_append hm, hrev, strchr_append hn]
  obtain ⟨_, hpq⟩ := List.cons.inj (Option.some.inj hrest)
  rw [hpq] at hrev
  have hmn := List.append_cancel_right hrev
  exact ⟨List.reverse_inj.mp hpq, printInt_injective (List.reverse_inj.mp hmn)⟩

end Svgd.Backend
