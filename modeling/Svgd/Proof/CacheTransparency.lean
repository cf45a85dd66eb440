import Svgd.Backend.MetricSource

/-!
# What the cache lets through

A run is a sequence of calls of `metric_source_fetch` from a freshly initialised cache.
Every binding of the cache can be traced to a call of the run that missed, fetched and
stored (`Traced`); that is the invariant, and it holds because one call makes at most
one put.

So a result was fetched by a call of the run under the same key, less than a lifetime
before. Whether it is what the reader's own request would have fetched there is another
matter: the key holds the path and the period, the data also depends on the parameter
and on whether the metric is a sum. `Agree` names what has to be the same.
-/

namespace Svgd.Backend

open Lib

/-- The cache a run starts from after `rrd_cache_init`, with these calls behind it. -/
def cacheAfter (config : Config) (ttl : Int) (calls : List Call) : Cache :=
  runCalls config (rrdCacheInit {} ttl) calls

/-- A call of the run found nothing in the cache, and stored what it fetched. -/
def Stored (config : Config) (ttl : Int) (calls : List Call) (s : Call) (d : MetricData) : Prop :=
  ∃ pre post, calls = pre ++ s :: post ∧ s.Cached
    ∧ s.lookup config (cacheAfter config ttl pre) = none ∧ s.fetched config = some d

theorem Stored.mem {config : Config} {ttl : Int} {calls : List Call} {s : Call} {d : MetricData}
    (h : Stored config ttl calls s d) : s ∈ calls := by
  obtain ⟨pre, post, rfl, _⟩ := h
  exact List.mem_append_right _ List.mem_cons_self

theorem Stored.append {config : Config} {ttl : Int} {calls : List Call} {s : Call} {d : MetricData}
    (h : Stored config ttl calls s d) (more : List Call) :
    Stored config ttl (calls ++ more) s d := by
  obtain ⟨pre, post, rfl, hs⟩ := h
  exact ⟨pre, post ++ more, by simp, hs⟩

theorem Stored.fetched {config : Config} {ttl : Int} {calls : List Call} {s : Call}
    {d : MetricData} (h : Stored config ttl calls s d) : s.fetched config = some d := by
  obtain ⟨_, _, _, _, _, hf⟩ := h
  exact hf

/-! ## Every binding has an origin -/

/-- The binding was made by a call of the run. -/
def Origin (config : Config) (ttl : Int) (calls : List Call) (k : Bytes) (d : MetricData)
    (e : Int) : Prop :=
  ∃ s, Stored config ttl calls s d ∧ s.req.key config = k ∧ s.times.put + lifetime ttl = e

/-- What a cache keeps through a run. -/
structure Traced (config : Config) (ttl : Int) (calls : List Call) (cache : Cache) : Prop where
  ready : cache.initialized = true
  lasting : cache.ttlSeconds = lifetime ttl
  within : cache.slots.toMap.Within (Origin config ttl calls)

theorem traced_init (config : Config) (ttl : Int) :
    Traced config ttl [] (rrdCacheInit {} ttl) where
  ready := rfl
  lasting := rfl
  within := TtlMap.within_empty

/-- One more call keeps every binding traceable. -/
theorem traced_step {config : Config} {ttl : Int} {calls : List Call} (c : Call)
    (h : Traced config ttl calls (cacheAfter config ttl calls)) :
    Traced config ttl (calls ++ [c]) (cacheAfter config ttl (calls ++ [c])) := by
  have hafter : cacheAfter config ttl (calls ++ [c])
      = (c.run config (cacheAfter config ttl calls)).cache := by
    rw [cacheAfter, runCalls_append]
    rfl
  have hwithin : (cacheAfter config ttl calls).slots.toMap.Within
      (Origin config ttl (calls ++ [c])) := by
    refine h.within.imp ?_
    rintro k d e ⟨s, hs, hke⟩
    exact ⟨s, hs.append [c], hke⟩
  rw [hafter]
  rcases c.run_cases config (cacheAfter config ttl calls) with heq | ⟨d, hc, hmiss, hfetch, heq⟩
  · rw [heq]
    exact ⟨h.ready, h.lasting, hwithin⟩
  · rw [heq]
    refine ⟨by simpa using h.ready, by simpa using h.lasting, ?_⟩
    rw [toMap_rrdCachePut h.ready, h.lasting]
    -- the new binding is the call's own
    exact hwithin.put ⟨c, ⟨calls, [], rfl, hc, hmiss, hfetch⟩, rfl, rfl⟩

/-- **Every binding of the cache goes back to a call of the run.** -/
theorem traced_cacheAfter (config : Config) (ttl : Int) (calls : List Call) :
    Traced config ttl calls (cacheAfter config ttl calls) := by
  induction calls using List.reverseRecOn with
  | nil => exact traced_init config ttl
  | append_singleton calls c ih => exact traced_step c ih

/-! ## Transparency -/

/-- The moment a call reads what it returns. -/
def Call.returnedAt (config : Config) (cache : Cache) (c : Call) : Int :=
  if (c.lookup config cache).isSome then c.times.get else c.times.reget

theorem Call.returnedAt_hit {config : Config} {cache : Cache} {c : Call} {d : MetricData}
    (h : c.lookup config cache = some d) : c.returnedAt config cache = c.times.get := by
  unfold returnedAt
  rw [h, Option.isSome_some, if_pos rfl]

theorem Call.returnedAt_miss {config : Config} {cache : Cache} {c : Call}
    (h : c.lookup config cache = none) : c.returnedAt config cache = c.times.reget := by
  unfold returnedAt
  rw [h, Option.isSome_none, if_neg Bool.false_ne_true]

/--
Each result is, in its series and its parameter, what the reader's own request would have
fetched from what some call of the run saw, whose store was then less than a lifetime old.
-/
def Transparent (config : Config) (ttl : Int) (run : List Call) : Prop :=
  ∀ pre c post r, run = pre ++ c :: post →
    (c.run config (cacheAfter config ttl pre)).data = some r →
    ∃ s d, Stored config ttl (pre ++ [c]) s d
      ∧ s.times.put ≤ c.returnedAt config (cacheAfter config ttl pre)
      ∧ c.returnedAt config (cacheAfter config ttl pre) < s.times.put + lifetime ttl
      ∧ ∃ own, c.req.fetch config s.backends.rrd s.times.now = some own
        ∧ r.series = own.series ∧ r.param1 = own.param1

/-- The clock does not go back, neither during a call nor from one call to the next. -/
structure Clocked (run : List Call) : Prop where
  get_le : ∀ c ∈ run, c.times.get ≤ c.times.now
  now_le : ∀ c ∈ run, c.times.now ≤ c.times.put
  put_le : ∀ c ∈ run, c.times.put ≤ c.times.reget
  ordered : run.Pairwise fun a b => a.times.reget ≤ b.times.get

/-- Two requests that differ in nothing the data depends on. -/
structure Agree (config : Config) (a b : Request) : Prop where
  path : a.rrdPath config = b.rrdPath config
  period : a.period = b.period
  sum : a.metric.isSum = b.metric.isSum
  param : a.param.getD [] = b.param.getD []

/-- A call whose key was bound by an earlier call, within a lifetime, asks for the same. -/
def Unmixed (config : Config) (ttl : Int) (a b : Call) : Prop :=
  a.req.key config = b.req.key config → b.times.get < a.times.put + lifetime ttl →
    Agree config a.req b.req

/-- What one request fetched, another that agrees with it would have fetched too. -/
theorem Agree.fetch {config : Config} {a b : Request} (h : Agree config a b) {w : RrdWorld}
    {now : Int} {d : MetricData} (hd : a.fetch config w now = some d) :
    b.fetch config w now = some { d with metricConfig := b.metric } := by
  unfold Request.fetch at hd ⊢
  rw [← h.path, ← h.period]
  exact rrdFetchData_congr h.sum h.param hd

/--
**The cache is transparent on runs that do not mix requests under one key.**

Two calls of the run whose keys are equal, the later one starting before a store of the
earlier one could have expired, have to agree on path, period, sum and parameter.
-/
theorem fetch_transparent (config : Config) (ttl : Int) (run : List Call)
    (hcached : ∀ c ∈ run, c.Cached) (hclock : Clocked run)
    (hunmixed : run.Pairwise (Unmixed config ttl)) : Transparent config ttl run := by
  intro pre c post r hrun hr
  have ht := traced_cacheAfter config ttl pre
  have hcmem : c ∈ run := by
    rw [hrun]
    exact List.mem_append_right _ List.mem_cons_self
  have hbefore : ∀ s ∈ pre, s.times.reget ≤ c.times.get ∧ Unmixed config ttl s c := by
    intro s hs
    rw [hrun] at hunmixed
    have hord := hclock.ordered
    rw [hrun] at hord
    exact ⟨(List.pairwise_append.mp hord).2.2 s hs c List.mem_cons_self,
      (List.pairwise_append.mp hunmixed).2.2 s hs c List.mem_cons_self⟩
  rcases Call.run_answer ht.ready (hcached c hcmem) hr with ⟨hget, _⟩ | ⟨hget, hfetch, hlt, _⟩
  · -- a hit: the binding goes back to an earlier call, which agrees with this one
    rw [Call.returnedAt_hit hget]
    obtain ⟨d, e, hbind, hlt, hclone⟩ := (rrdCacheGet_eq_some ht.ready).mp hget
    obtain ⟨s, hs, hkey, hexp⟩ := ht.within _ _ _ hbind
    have hsrun : s ∈ run := by
      rw [hrun]
      exact List.mem_append_left _ hs.mem
    obtain ⟨hle, hagree⟩ := hbefore s hs.mem
    have hput := hclock.put_le s hsrun
    rw [cloneMetricData_of_fetch hs.fetched] at hclone
    injection hclone with hclone
    subst hclone
    refine ⟨s, d, hs.append [c], by omega, by omega,
      { d with metricConfig := c.req.metric }, ?_, rfl, rfl⟩
    exact (hagree hkey (by omega)).fetch hs.fetched
  · -- a miss: what is read back is the call's own store
    rw [Call.returnedAt_miss hget]
    rw [ht.lasting] at hlt
    exact ⟨c, r, ⟨pre, [], rfl, hcached c hcmem, hget, hfetch⟩, hclock.put_le c hcmem, hlt, r,
      hfetch, rfl, rfl⟩

/-! ## Two metrics on one file -/

/-- Every file holds one row of two data sources. -/
def sampleWorld : RrdWorld where
  access _ := true
  rrdcConnect _ := false
  time := 100
  rrdInfo _ := none
  rrdFirst _ _ := -1
  rrdcFetch _ _ _ _ _ := none
  rrdFetch _ _ _ _ _ := some ⟨60, 75, 15, [str "rx", str "tx"], [.fin 1, .fin 2]⟩

/-- The sources find nothing but what the files hold. -/
def sampleBackends : Backends := ⟨sampleWorld, fun _ _ _ => none, fun _ _ _ => none⟩

/-- A metric, and a second one that sums the same file. -/
def netMetric : MetricConfig where
  endpoint := str "net"
  rrdPath := str "net.rrd"

def netTotalMetric : MetricConfig where
  endpoint := str "net/total"
  rrdPath := str "net.rrd"
  transformType := str "sum"

def sharedFile : Config where
  rrdBasePath := str "/rrd"
  metrics := [netMetric, netTotalMetric]

/-- A call for a metric, with the clock standing still. -/
def callAt (metric : MetricConfig) (t : Int) : Call where
  req := ⟨metric, none, 60⟩
  times := ⟨t, t, t, t⟩
  backends := sampleBackends

/-- The metric is asked for twice; the second call reads what the first one stored. -/
theorem fetch_transparent_repeated :
    Transparent sharedFile 5 [callAt netMetric 100, callAt netMetric 103] := by
  refine fetch_transparent sharedFile 5 _ (by decide)
    ⟨by decide, by decide, by decide, by decide⟩ ?_
  refine List.pairwise_pair.mpr ?_
  intro _ _
  exact ⟨rfl, rfl, rfl, rfl⟩

/--
The summed metric is asked for one second after the plain one. It gets the two series
of the plain metric, where its own request would have produced their total.
-/
theorem fetch_not_transparent_shared_file :
    netMetric ∈ sharedFile.metrics ∧ netTotalMetric ∈ sharedFile.metrics
      ∧ (∀ c ∈ [callAt netMetric 100, callAt netTotalMetric 101], c.Cached)
      ∧ Clocked [callAt netMetric 100, callAt netTotalMetric 101]
      ∧ ¬ Transparent sharedFile 5 [callAt netMetric 100, callAt netTotalMetric 101] := by
  refine ⟨by decide, by decide, by decide, ⟨by decide, by decide, by decide, by decide⟩, ?_⟩
  intro h
  have hgot : (((callAt netTotalMetric 101).run sharedFile
      (cacheAfter sharedFile 5 [callAt netMetric 100])).data.map (·.series.length)) = some 2 := by
    decide +kernel
  obtain ⟨r, hr, htwo⟩ := Option.map_eq_some_iff.mp hgot
  obtain ⟨s, d, hs, _, _, own, hown, hseries, _⟩ := h [callAt netMetric 100] _ [] r rfl hr
  -- whichever call stored the data, a sum of what it saw is one series
  have hone : ∀ t : Int, t = 100 ∨ t = 101 →
      ((callAt netTotalMetric 101).req.fetch sharedFile sampleWorld t).map (·.series.length)
        = some 1 := by
    rintro t (rfl | rfl)
    · decide +kernel
    · decide +kernel
  have hcase : s.backends.rrd = sampleWorld ∧ (s.times.now = 100 ∨ s.times.now = 101) := by
    rcases List.mem_cons.mp hs.mem with rfl | hm
    · exact ⟨rfl, Or.inl rfl⟩
    · rcases List.mem_cons.mp hm with rfl | hm
      · exact ⟨rfl, Or.inr rfl⟩
      · exact absurd hm List.not_mem_nil
  have hlen := hone s.times.now hcase.2
  rw [← hcase.1, hown, Option.map_some, ← hseries] at hlen
  injection hlen with hlen
  omega

end Svgd.Backend
