import Svgd.Backend.Cache
import Svgd.Backend.Reader
import Svgd.Lib.TtlRules

/-!
# The metric sources

`src/metric_source.c`: one dispatcher over three backends. What the `/proc` reader and
the Prometheus reader answer is a parameter, because the dispatcher only passes it on;
the RRD reader is the one of `Svgd.Backend.Reader`.

Every moment at which a call reads the clock is an argument, so a sequence of calls is a
fold over the cache, and what is kept from one call to the next is the cache alone.
-/

namespace Svgd.Backend

open Lib

/-- The arguments of `metric_source_fetch` that say what is wanted. -/
structure Request where
  metric : MetricConfig
  param : Option Bytes
  period : Int
deriving DecidableEq

/-- When a call reads the clock: in the first `cache_get`, for `now`, in `cache_put`, and in
the second `cache_get`. -/
structure CallTimes where
  get : Int
  now : Int
  put : Int
  reget : Int
deriving DecidableEq

/-- What the three backends see or answer during a call. -/
structure Backends where
  rrd : RrdWorld
  /-- `proc_source_fetch`. -/
  proc : Config → MetricConfig → Int → Option MetricData
  /-- `prometheus_source_fetch`. -/
  prometheus : Config → MetricConfig → Int → Option MetricData

/-- What a call returns, the cache it leaves, and how often it went to a backend. -/
structure Outcome where
  data : Option MetricData
  cache : Cache
  backendCalls : Nat

/-- `rrd_path` of a request. -/
def Request.rrdPath (config : Config) (r : Request) : Bytes :=
  buildRrdPath config.rrdBasePath r.metric.rrdPath r.param

/-- The key a request has in the cache. -/
def Request.key (config : Config) (r : Request) : Bytes :=
  buildCacheKey (r.rrdPath config) r.period

/-- The RRD backend for a request at time `now`. -/
def Request.fetch (config : Config) (r : Request) (w : RrdWorld) (now : Int) :
    Option MetricData :=
  rrdFetchData w config.rrdcachedAddr (r.rrdPath config) (now - r.period) r.param r.metric

/-- `metric_source_fetch`. -/
def metricSourceFetch (config : Config) (r : Request) (useCache : Bool) (t : CallTimes)
    (b : Backends) (cache : Cache) : Outcome :=
  match r.metric.source with
  | .rrd =>
      let path := r.rrdPath config
      match if useCache then rrdCacheGet cache t.get (some path) r.period else none with
      | some d => ⟨some d, cache, 0⟩
      | none =>
          match r.fetch config b.rrd t.now with
          | none => ⟨none, cache, 1⟩
          | some fresh =>
              if useCache then
                -- the cache takes the data over; what is returned is a clone of it
                let cache := rrdCachePut cache t.put (some path) r.period (some fresh)
                ⟨rrdCacheGet cache t.reget (some path) r.period, cache, 1⟩
              else ⟨some fresh, cache, 1⟩
  | .proc => ⟨b.proc config r.metric r.period, cache, 1⟩
  | .prometheus => ⟨b.prometheus config r.metric r.period, cache, 1⟩

/-! ## One call -/

section

variable {config : Config} {r : Request} {t : CallTimes} {b : Backends} {cache : Cache}

theorem metricSourceFetch_hit {d : MetricData} (hsrc : r.metric.source = .rrd)
    (hget : rrdCacheGet cache t.get (some (r.rrdPath config)) r.period = some d) :
    metricSourceFetch config r true t b cache = ⟨some d, cache, 0⟩ := by
  unfold metricSourceFetch
  rw [hsrc]
  dsimp only
  rw [if_pos rfl, hget]

theorem metricSourceFetch_failed (hsrc : r.metric.source = .rrd)
    (hget : rrdCacheGet cache t.get (some (r.rrdPath config)) r.period = none)
    (hfetch : r.fetch config b.rrd t.now = none) :
    metricSourceFetch config r true t b cache = ⟨none, cache, 1⟩ := by
  unfold metricSourceFetch
  rw [hsrc]
  dsimp only
  rw [if_pos rfl, hget]
  dsimp only
  rw [hfetch]

theorem metricSourceFetch_stored {d : MetricData} (hsrc : r.metric.source = .rrd)
    (hget : rrdCacheGet cache t.get (some (r.rrdPath config)) r.period = none)
    (hfetch : r.fetch config b.rrd t.now = some d) :
    metricSourceFetch config r true t b cache
      = ⟨rrdCacheGet (rrdCachePut cache t.put (some (r.rrdPath config)) r.period (some d)) t.reget
            (some (r.rrdPath config)) r.period,
          rrdCachePut cache t.put (some (r.rrdPath config)) r.period (some d), 1⟩ := by
  unfold metricSourceFetch
  rw [hsrc]
  dsimp only
  rw [if_pos rfl, hget]
  dsimp only
  rw [hfetch]
  rfl

/-- A call for another source, and one that does not use the cache, goes to its backend and
leaves the cache alone. -/
theorem metricSourceFetch_uncached {useCache : Bool}
    (h : ¬ (r.metric.source = .rrd ∧ useCache = true)) :
    (metricSourceFetch config r useCache t b cache).cache = cache
      ∧ (metricSourceFetch config r useCache t b cache).backendCalls = 1 := by
  unfold metricSourceFetch
  cases hsrc : r.metric.source with
  | proc => exact ⟨rfl, rfl⟩
  | prometheus => exact ⟨rfl, rfl⟩
  | rrd =>
      have huse : useCache = false := by
        cases useCache with
        | false => rfl
        | true => exact absurd ⟨hsrc, rfl⟩ h
      subst huse
      dsimp only
      rw [if_neg (by decide)]
      cases r.fetch config b.rrd t.now with
      | none => exact ⟨rfl, rfl⟩
      | some d => exact ⟨rfl, rfl⟩

/-- What a request fetched is data the cache can clone, and the clone is the data. -/
theorem cloneMetricData_of_fetch {w : RrdWorld} {now : Int} {d : MetricData}
    (h : r.fetch config w now = some d) : cloneMetricData d = some d := by
  rw [cloneMetricData_of_named (rrdFetchData_named h)]
  have hp : some (d.param1.getD []) = d.param1 := by
    rw [rrdFetchData_param1 h]
    rfl
  rw [hp]

end

/-! ## Runs of calls -/

/-- A call as it is made: what is asked for, whether the cache is used, and when. -/
structure Ask where
  req : Request
  useCache : Bool := true
  times : CallTimes
deriving DecidableEq

/-- A call with what the backends see and answer meanwhile. -/
structure Call extends Ask where
  backends : Backends

/-- The outcome of a call. -/
def Call.run (config : Config) (cache : Cache) (c : Call) : Outcome :=
  metricSourceFetch config c.req c.useCache c.times c.backends cache

/-- What the RRD backend answers to a call. -/
def Call.fetched (config : Config) (c : Call) : Option MetricData :=
  c.req.fetch config c.backends.rrd c.times.now

/-- A call to which the cache applies. -/
def Call.Cached (c : Call) : Prop := c.req.metric.source = .rrd ∧ c.useCache = true

instance (c : Call) : Decidable c.Cached := inferInstanceAs (Decidable (_ ∧ _))

/-- The first `cache_get` of a call. -/
def Call.lookup (config : Config) (cache : Cache) (c : Call) : Option MetricData :=
  rrdCacheGet cache c.times.get (some (c.req.rrdPath config)) c.req.period

/-- The cache after a run of calls. -/
def runCalls (config : Config) (cache : Cache) (calls : List Call) : Cache :=
  calls.foldl (fun cache c => (c.run config cache).cache) cache

@[simp] theorem runCalls_nil (config : Config) (cache : Cache) :
    runCalls config cache [] = cache := rfl

@[simp] theorem runCalls_cons (config : Config) (cache : Cache) (c : Call) (calls : List Call) :
    runCalls config cache (c :: calls) = runCalls config (c.run config cache).cache calls := rfl

theorem runCalls_append (config : Config) (cache : Cache) (a b : List Call) :
    runCalls config cache (a ++ b) = runCalls config (runCalls config cache a) b :=
  List.foldl_append

/-- **What a call can do to the cache**: nothing, or one `put` of what it fetched after a miss. -/
theorem Call.run_cases (config : Config) (cache : Cache) (c : Call) :
    (c.run config cache).cache = cache
      ∨ ∃ d, c.Cached ∧ c.lookup config cache = none ∧ c.fetched config = some d
        ∧ (c.run config cache).cache
          = rrdCachePut cache c.times.put (some (c.req.rrdPath config)) c.req.period (some d) := by
  unfold Call.run
  by_cases hc : c.Cached
  · obtain ⟨hsrc, huse⟩ := hc
    rw [huse]
    cases hget : c.lookup config cache with
    | some d => exact Or.inl (by rw [metricSourceFetch_hit hsrc hget])
    | none =>
        cases hfetch : c.fetched config with
        | none => exact Or.inl (by rw [metricSourceFetch_failed hsrc hget hfetch])
        | some d =>
            refine Or.inr ⟨d, ⟨hsrc, huse⟩, rfl, rfl, ?_⟩
            rw [metricSourceFetch_stored hsrc hget hfetch]
  · exact Or.inl (metricSourceFetch_uncached hc).1

/-- **What an answer tells**: it was in the cache, or the call fetched it, stored it and read it
back in time. -/
theorem Call.run_answer {config : Config} {cache : Cache} {c : Call} {r : MetricData}
    (hready : cache.initialized = true) (hc : c.Cached)
    (hr : (c.run config cache).data = some r) :
    (c.lookup config cache = some r ∧ c.run config cache = ⟨some r, cache, 0⟩)
      ∨ (c.lookup config cache = none ∧ c.fetched config = some r
        ∧ c.times.reget < c.times.put + cache.ttlSeconds
        ∧ c.run config cache = ⟨some r,
          rrdCachePut cache c.times.put (some (c.req.rrdPath config)) c.req.period (some r), 1⟩) := by
  unfold Call.run at hr ⊢
  rw [hc.2] at hr ⊢
  cases hget : c.lookup config cache with
  | some d =>
      rw [metricSourceFetch_hit hc.1 hget] at hr ⊢
      injection hr with hr
      subst hr
      exact Or.inl ⟨rfl, rfl⟩
  | none =>
      cases hfetch : c.fetched config with
      | none =>
          rw [metricSourceFetch_failed hc.1 hget hfetch] at hr
          exact absurd hr (by simp)
      | some d =>
          rw [metricSourceFetch_stored hc.1 hget hfetch] at hr ⊢
          dsimp only at hr
          have hready' : (rrdCachePut cache c.times.put (some (c.req.rrdPath config)) c.req.period
              (some d)).initialized = true := by
            simpa using hready
          -- the key is bound to the call's own store, and its clone is what was fetched
          obtain ⟨d', e, hbind, hlt, hclone⟩ := (rrdCacheGet_eq_some hready').mp hr
          rw [toMap_rrdCachePut hready, TtlMap.put_self] at hbind
          injection hbind with hbind
          obtain ⟨rfl, rfl⟩ := Prod.mk.inj hbind
          have hdr : d = r := Option.some.inj ((cloneMetricData_of_fetch hfetch).symm.trans hclone)
          subst hdr
          exact Or.inr ⟨rfl, rfl, hlt, by rw [hr]⟩

end Svgd.Backend
