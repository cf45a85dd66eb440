import Svgd.Backend.Cache

/-!
# The cache is a map with expiry

The specification looks at the history alone. A cache is in use after an `init` with no
`free` behind it, its lifetime is the one of the last `init`, and what it holds under a
key is the last effective `put` of that key since the last `free`. Nothing in it knows
about slots, chains or hashes.

`Represents` ties a cache state to a history. Every operation keeps it, so it holds
after every sequence of operations, and a `get` is then read off the history.
-/

namespace Svgd.Backend

open Lib

/-- A call of one of the cache functions. -/
inductive CacheOp where
  | init (ttlSeconds : Int)
  | put (rrdPath : Option Bytes) (period : Int) (data : Option MetricData)
  | get (rrdPath : Option Bytes) (period : Int)
  | free

/-- The cache after a call at time `now`. -/
def Cache.apply (c : Cache) : Int × CacheOp → Cache
  | (_, .init ttl) => rrdCacheInit c ttl
  | (now, .put path period data) => rrdCachePut c now path period data
  | (_, .get _ _) => c
  | (_, .free) => rrdCacheFree c

/-- The cache after a sequence of calls, from program start. -/
def runOps (ops : List (Int × CacheOp)) : Cache := ops.foldl Cache.apply {}

/-! ## What the history says -/

/-- In use; the history has its latest call first. -/
def inUse : List (Int × CacheOp) → Bool
  | [] => false
  | (_, .init _) :: _ => true
  | (_, .free) :: _ => false
  | (_, .put _ _ _) :: h => inUse h
  | (_, .get _ _) :: h => inUse h

/-- The lifetime in force. -/
def ttlInForce : List (Int × CacheOp) → Int
  | [] => 5
  | (_, .init ttl) :: _ => if 0 < ttl then ttl else 5
  | (_, .free) :: h => ttlInForce h
  | (_, .put _ _ _) :: h => ttlInForce h
  | (_, .get _ _) :: h => ttlInForce h

/-- The last effective `put` of a key since the last `free`: when it happened, the lifetime
then in force, and the data. -/
def latestPut (key : Bytes) : List (Int × CacheOp) → Option (Int × Int × MetricData)
  | [] => none
  | (_, .free) :: _ => none
  | (now, .put (some path) period (some d)) :: h =>
      if inUse h = true ∧ buildCacheKey path period = key then some (now, ttlInForce h, d)
      else latestPut key h
  | (_, .put _ _ _) :: h => latestPut key h
  | (_, .init _) :: h => latestPut key h
  | (_, .get _ _) :: h => latestPut key h

/-- The map with expiry that a history describes. -/
def historyMap (h : List (Int × CacheOp)) : TtlMap Bytes MetricData :=
  fun key => (latestPut key h).map fun p => (p.2.2, p.1 + p.2.1)

/-! ## The refinement -/

/-- The cache state and the history agree. -/
structure Represents (c : Cache) (h : List (Int × CacheOp)) : Prop where
  inUse : c.initialized = inUse h
  ttl : c.ttlSeconds = ttlInForce h
  map : c.slots.toMap = historyMap h

theorem represents_init : Represents {} [] where
  inUse := rfl
  ttl := rfl
  map := rfl

/-- A `put` that is not effective leaves the state and the description alone. -/
theorem historyMap_skip {op : Int × CacheOp} {h : List (Int × CacheOp)}
    (hop : ∀ key, latestPut key (op :: h) = latestPut key h) :
    historyMap (op :: h) = historyMap h := by
  funext key
  rw [historyMap, historyMap, hop]

/-- An effective `put` binds its key in the description. -/
theorem historyMap_put {now : Int} {path : Bytes} {period : Int} {d : MetricData}
    {h : List (Int × CacheOp)} (huse : inUse h = true) :
    historyMap ((now, .put (some path) period (some d)) :: h)
      = (historyMap h).put (buildCacheKey path period) d (now + ttlInForce h) := by
  funext key
  unfold historyMap TtlMap.put
  rw [latestPut]
  by_cases hkey : buildCacheKey path period = key
  · rw [if_pos ⟨huse, hkey⟩, if_pos hkey]
    rfl
  · rw [if_neg (fun hc => hkey hc.2), if_neg hkey]

/-- Every call keeps the agreement. -/
theorem represents_step {c : Cache} {h : List (Int × CacheOp)} (hr : Represents c h)
    (op : Int × CacheOp) : Represents (c.apply op) (op :: h) := by
  obtain ⟨now, op⟩ := op
  cases op with
  | init ttl =>
      exact ⟨rfl, rfl, by rw [historyMap_skip (fun _ => rfl)]; exact hr.map⟩
  | get path period =>
      exact ⟨hr.inUse, hr.ttl, by rw [historyMap_skip (fun _ => rfl)]; exact hr.map⟩
  | free =>
      refine ⟨rfl, hr.ttl, ?_⟩
      -- the emptied table and the forgotten history are the same empty map
      rfl
  | put path period data =>
      cases path with
      | none => exact ⟨hr.inUse, hr.ttl, by rw [historyMap_skip (fun _ => rfl)]; exact hr.map⟩
      | some path =>
          cases data with
          | none =>
              exact ⟨hr.inUse, hr.ttl, by rw [historyMap_skip (fun _ => rfl)]; exact hr.map⟩
          | some d =>
              unfold Cache.apply rrdCachePut
              dsimp only
              by_cases huse : inUse h = true
              · rw [if_pos (hr.inUse.trans huse)]
                refine ⟨hr.inUse, hr.ttl, ?_⟩
                rw [historyMap_put huse, ChainTable.toMap_put, hr.map, hr.ttl]
              · have hoff : ¬ c.initialized = true := by rw [hr.inUse]; exact huse
                rw [if_neg hoff]
                refine ⟨hr.inUse, hr.ttl, ?_⟩
                rw [historyMap_skip, hr.map]
                intro key
                rw [latestPut, if_neg (fun hc => huse hc.1)]

/-- The agreement holds after every sequence of calls. -/
theorem represents_runOps (ops : List (Int × CacheOp)) :
    Represents (runOps ops) ops.reverse := by
  -- the list is read from its end, where the last call stands
  induction ops using List.reverseRecOn with
  | nil => exact represents_init
  | append_singleton ops op ih =>
      rw [runOps, List.foldl_append, List.reverse_append]
      exact represents_step ih op

/-! ## Reading -/

/-- Every series of every stored value has a name. -/
def CacheOp.Named : CacheOp → Prop
  | .put _ _ (some d) => d.series.all (·.name.isSome) = true
  | _ => True

theorem named_of_latestPut {key : Bytes} {t ttl : Int} {d : MetricData} :
    ∀ {h : List (Int × CacheOp)}, (∀ op ∈ h, op.2.Named) →
    latestPut key h = some (t, ttl, d) → d.series.all (·.name.isSome) = true
  | [], _, hl => absurd hl (by simp [latestPut])
  | (now, op) :: h, hn, hl => by
      have hrest : ∀ x ∈ h, x.2.Named := fun x hx => hn x (List.mem_cons_of_mem _ hx)
      cases op with
      | free => exact absurd hl (by simp [latestPut])
      | init _ => exact named_of_latestPut hrest hl
      | get _ _ => exact named_of_latestPut hrest hl
      | put path period data =>
          cases path with
          | none => exact named_of_latestPut hrest hl
          | some path =>
              cases data with
              | none => exact named_of_latestPut hrest hl
              | some d' =>
                  rw [latestPut] at hl
                  split at hl
                  · have hd : d' = d := by
                      injection hl with hl
                      exact congrArg (fun p => p.2.2) hl
                    exact hd ▸ hn _ List.mem_cons_self
                  · exact named_of_latestPut hrest hl

/--
**The chained cache refines a map with expiry.**

After any sequence of calls, at any times, a `get` returns data exactly when the cache is
in use and the last effective `put` of the built key since the last `free`, made at `t`
under the lifetime then in force, has not expired; and then it returns what was put, with
a missing parameter read as the empty string.
-/
theorem cache_refines_ttl_map (ops : List (Int × CacheOp)) (hnamed : ∀ op ∈ ops, op.2.Named)
    (now : Int) (path : Bytes) (period : Int) (data : MetricData) :
    rrdCacheGet (runOps ops) now (some path) period = some data
      ↔ inUse ops.reverse = true
        ∧ ∃ t ttl d, latestPut (buildCacheKey path period) ops.reverse = some (t, ttl, d)
          ∧ now < t + ttl ∧ data = { d with param1 := some (d.param1.getD []) } := by
  have hr := represents_runOps ops
  have hnamed' : ∀ op ∈ ops.reverse, op.2.Named := fun op h => hnamed op (List.mem_reverse.mp h)
  by_cases huse : inUse ops.reverse = true
  · rw [rrdCacheGet_eq_some (hr.inUse.trans huse), hr.map, and_iff_right huse]
    unfold historyMap
    constructor
    · rintro ⟨d, e, hbind, hlt, hclone⟩
      obtain ⟨⟨t, ttl, d'⟩, hlast, hpair⟩ := Option.map_eq_some_iff.mp hbind
      obtain ⟨rfl, rfl⟩ := Prod.mk.inj hpair
      exact ⟨t, ttl, d', hlast, hlt, (cloneMetricData_some hclone).2⟩
    · rintro ⟨t, ttl, d, hlast, hlt, rfl⟩
      refine ⟨d, t + ttl, ?_, hlt, cloneMetricData_of_named (named_of_latestPut hnamed' hlast)⟩
      rw [hlast]
      rfl
  · -- a cache that is not in use answers nothing
    have hoff : ¬ (runOps ops).initialized = true := by rw [hr.inUse]; exact huse
    unfold rrdCacheGet
    dsimp only
    rw [if_neg hoff]
    simp [huse]

/-- One point in a series called `name`. -/
def sampleData (name : Bytes) : MetricData :=
  ⟨[⟨some name, [⟨1700000000, .fin 1⟩]⟩], none, { endpoint := str "cpu" }⟩

/-- Two puts whose keys share a slot; the first is still found behind the second. -/
theorem cache_refines_colliding :
    let ops : List (Int × CacheOp) :=
      [(0, .init 10), (1, .put (some (str "/a")) 60 (some (sampleData (str "x")))),
        (2, .put (some (str "/hy")) 60 (some (sampleData (str "y"))))]
    cacheHash (buildCacheKey (str "/a") 60) = cacheHash (buildCacheKey (str "/hy") 60)
      ∧ rrdCacheGet (runOps ops) 10 (some (str "/a")) 60
        = some { sampleData (str "x") with param1 := some [] } := by
  intro ops
  have hnamed : ∀ op ∈ ops, op.2.Named := by
    simp [ops, CacheOp.Named, sampleData]
  refine ⟨by decide +kernel, (cache_refines_ttl_map ops hnamed 10 (str "/a") 60 _).mpr ?_⟩
  exact ⟨rfl, 1, 10, sampleData (str "x"), rfl, by decide, rfl⟩

end Svgd.Backend
