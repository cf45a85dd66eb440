import Svgd.Proof.CacheTransparency

/-!
# Two calls, one backend call

The module comment of `metric_source.c` promises that a short lifetime glues bursts of
requests together, for every source. The dispatcher keeps the promise in its RRD branch
only: the other two branches go to their backend on every call.

In the RRD branch a binding that the cache can clone stays what it is until it expires
(`runCalls_keeps`): a call with its key hits, and a call with another key does not touch
it. So whatever calls come in between, the second of two calls reads what the first one
read or stored, as long as that has not expired.
-/

namespace Svgd.Backend

open Lib

/-! ## A binding stays until it expires -/

section

variable (config : Config) {cache : Cache} {k : Bytes} {d r : MetricData} {e : Int}

/-- One call leaves a fresh binding alone. -/
theorem run_keeps (hready : cache.initialized = true) (hbind : cache.slots.toMap k = some (d, e))
    (hclone : cloneMetricData d = some r) (c : Call) (hget : c.times.get < e) :
    (c.run config cache).cache.initialized = true
      ∧ (c.run config cache).cache.slots.toMap k = some (d, e) := by
  rcases c.run_cases config cache with heq | ⟨fresh, _, hmiss, _, heq⟩
  · rw [heq]
    exact ⟨hready, hbind⟩
  · rw [heq]
    refine ⟨by simpa using hready, ?_⟩
    rw [toMap_rrdCachePut hready, TtlMap.put_of_ne]
    · exact hbind
    · -- a call under this very key would have hit
      intro hkey
      have hhit : c.lookup config cache = some r :=
        (rrdCacheGet_eq_some hready).mpr ⟨d, e, hkey.symm ▸ hbind, hget, hclone⟩
      rw [hmiss] at hhit
      exact absurd hhit (by simp)

/-- So does a run of calls that all start before it expires. -/
theorem runCalls_keeps (hclone : cloneMetricData d = some r) (calls : List Call)
    (hget : ∀ c ∈ calls, c.times.get < e) (hready : cache.initialized = true)
    (hbind : cache.slots.toMap k = some (d, e)) :
    (runCalls config cache calls).initialized = true
      ∧ (runCalls config cache calls).slots.toMap k = some (d, e) := by
  induction calls generalizing cache with
  | nil => exact ⟨hready, hbind⟩
  | cons c calls ih =>
      obtain ⟨hready', hbind'⟩ := run_keeps config hready hbind hclone c
        (hget c List.mem_cons_self)
      exact ih (fun x hx => hget x (List.mem_cons_of_mem _ hx)) hready' hbind'

/-- A later call under the key reads the binding and asks no backend. -/
theorem run_reads (hready : cache.initialized = true) {c : Call} (hc : c.Cached)
    (hbind : cache.slots.toMap (c.req.key config) = some (d, e)) (hget : c.times.get < e)
    (hclone : cloneMetricData d = some r) : c.run config cache = ⟨some r, cache, 0⟩ := by
  have hhit : c.lookup config cache = some r :=
    (rrdCacheGet_eq_some hready).mpr ⟨d, e, hbind, hget, hclone⟩
  unfold Call.run
  rw [hc.2, metricSourceFetch_hit hc.1 hhit]

/-- A call to which the cache does not apply asks its backend. -/
theorem run_uncached (cache : Cache) {c : Call} (hc : ¬ c.Cached) :
    (c.run config cache).backendCalls = 1 :=
  (metricSourceFetch_uncached hc).2

end

/-! ## Backends that find nothing -/

/-- No file can be read. -/
def deadWorld : RrdWorld where
  access _ := false
  rrdcConnect _ := false
  time := 0
  rrdInfo _ := none
  rrdFirst _ _ := -1
  rrdcFetch _ _ _ _ _ := none
  rrdFetch _ _ _ _ _ := none

/-- Every backend fails. -/
def silent : Backends := ⟨deadWorld, fun _ _ _ => none, fun _ _ _ => none⟩

theorem fetch_deadWorld (config : Config) (r : Request) (now : Int) :
    r.fetch config deadWorld now = none := by
  have hanswer : rrdAnswer deadWorld config.rrdcachedAddr (r.rrdPath config) (now - r.period)
      = none := by
    unfold rrdAnswer
    split <;> rfl
  unfold Request.fetch rrdFetchData
  rw [hanswer]

/-- A run of calls that all fail leaves the cache alone. -/
theorem runCalls_silent (config : Config) (cache : Cache) (asks : List Ask) :
    runCalls config cache (asks.map (⟨·, silent⟩)) = cache := by
  induction asks with
  | nil => rfl
  | cons a asks ih =>
      rw [List.map_cons, runCalls_cons]
      have hkeep : (Call.run config cache ⟨a, silent⟩).cache = cache := by
        rcases Call.run_cases config cache ⟨a, silent⟩ with heq | ⟨d, _, _, hfetch, _⟩
        · exact heq
        · rw [Call.fetched, silent, fetch_deadWorld] at hfetch
          exact absurd hfetch (by simp)
      rw [hkeep]
      exact ih

/-! ## Coalescing -/

/--
Two calls, with others in between: whatever the backends answer after the first call, the two
together ask a backend at most once, and return equal data.
-/
def Coalesced (config : Config) (cache : Cache) (first : Call) (between : List Ask)
    (second : Ask) : Prop :=
  ∀ (others : List Call) (answers : Backends), others.map Call.toAsk = between →
    (first.run config cache).backendCalls
        + (Call.run config (runCalls config (first.run config cache).cache others)
            ⟨second, answers⟩).backendCalls ≤ 1
      ∧ (Call.run config (runCalls config (first.run config cache).cache others)
          ⟨second, answers⟩).data = (first.run config cache).data

/-- What is fresh under the key at the first call is still fresh at the second. -/
def FreshForBoth (config : Config) (cache : Cache) (first second : Ask) : Prop :=
  ∀ d e, cache.slots.toMap (first.req.key config) = some (d, e) → first.times.get < e →
    second.times.get < e

/-- After a successful call its key is bound to what it returned. -/
theorem run_leaves (config : Config) {cache : Cache} (hready : cache.initialized = true)
    {c : Call} (hc : c.Cached) {r : MetricData} (hr : (c.run config cache).data = some r) :
    ∃ d e, (c.run config cache).cache.initialized = true
      ∧ (c.run config cache).cache.slots.toMap (c.req.key config) = some (d, e)
      ∧ cloneMetricData d = some r ∧ (c.run config cache).backendCalls ≤ 1
      ∧ ((cache.slots.toMap (c.req.key config) = some (d, e) ∧ c.times.get < e)
        ∨ e = c.times.put + cache.ttlSeconds) := by
  rcases Call.run_answer hready hc hr with ⟨hget, heq⟩ | ⟨_, hfetch, _, heq⟩
  · obtain ⟨d, e, hbind, hlt, hclone⟩ := (rrdCacheGet_eq_some hready).mp hget
    rw [heq]
    exact ⟨d, e, hready, hbind, hclone, Nat.zero_le 1, Or.inl ⟨hbind, hlt⟩⟩
  · rw [heq]
    refine ⟨r, c.times.put + cache.ttlSeconds, by simpa using hready, ?_,
      cloneMetricData_of_fetch hfetch, le_rfl, Or.inr rfl⟩
    dsimp only
    rw [toMap_rrdCachePut hready]
    exact TtlMap.put_self

/--
**Two calls for one thing are glued together exactly when the metric is an RRD metric and
the entry that answers the first call outlives the second.**

The cache is any that a run of calls can leave behind, the two calls name the same
metric, parameter and period less than a lifetime apart, and the first one succeeds. An
entry of the first call's own making always outlives the second call.
-/
theorem coalesced_iff (config : Config) (ttl : Int) (before : List Call) (first : Call)
    (between : List Ask) (second : Ask) (hfirst : first.useCache = true)
    (hsecond : second.useCache = true) (hsame : second.req = first.req)
    (hput : first.times.get ≤ first.times.put)
    (hbetween : ∀ a ∈ between, a.times.get ≤ second.times.get)
    (hnear : second.times.get < first.times.get + lifetime ttl) {r : MetricData}
    (hr : (first.run config (cacheAfter config ttl before)).data = some r) :
    Coalesced config (cacheAfter config ttl before) first between second
      ↔ first.req.metric.source = .rrd
        ∧ FreshForBoth config (cacheAfter config ttl before) first.toAsk second := by
  have ht := traced_cacheAfter config ttl before
  constructor
  · intro h
    have hquiet : (between.map (fun a => (⟨a, silent⟩ : Call))).map Call.toAsk = between := by
      rw [List.map_map]
      exact List.map_id between
    obtain ⟨hcalls, hdata⟩ := h _ silent hquiet
    have hsrc : first.req.metric.source = .rrd := by
      -- in the other branches each of the two calls goes to its backend
      by_contra hne
      have hone := run_uncached config (cacheAfter config ttl before) (c := first)
        (fun hc => hne hc.1)
      have htwo := run_uncached config (runCalls config
        (first.run config (cacheAfter config ttl before)).cache (between.map (⟨·, silent⟩)))
        (c := ⟨second, silent⟩) (fun hc => hne (hsame ▸ hc.1))
      omega
    refine ⟨hsrc, ?_⟩
    intro d e hbind hlt
    -- otherwise the first call hits, and the second one, with no backend behind it, misses
    by_contra hexp
    obtain ⟨s, hs, _, _⟩ := ht.within _ _ _ hbind
    have hreads := run_reads config ht.ready (c := first) ⟨hsrc, hfirst⟩ hbind hlt
      (cloneMetricData_of_fetch hs.fetched)
    have hmiss : (Call.mk second silent).lookup config (cacheAfter config ttl before) = none := by
      rw [Option.eq_none_iff_forall_ne_some]
      intro x hx
      obtain ⟨d', e', hbind', hlt', _⟩ := (rrdCacheGet_eq_some ht.ready).mp hx
      rw [hsame] at hbind'
      have he : e' = e := by
        have := hbind'.symm.trans hbind
        injection this with this
        exact (Prod.mk.inj this).2
      dsimp only at hlt'
      omega
    rw [hreads, runCalls_silent] at hdata
    unfold Call.run at hdata
    dsimp only at hdata
    rw [hsecond, metricSourceFetch_failed (hsame ▸ hsrc) hmiss (fetch_deadWorld _ _ _)] at hdata
    exact absurd hdata (by simp)
  · rintro ⟨hsrc, hfresh⟩ others answers hothers
    obtain ⟨d, e, hready', hbind', hclone, hcalls, hwhy⟩ := run_leaves config ht.ready ⟨hsrc, hfirst⟩ hr
    have hlt : second.times.get < e := by
      rcases hwhy with ⟨hbind, hget⟩ | he
      · exact hfresh d e hbind hget
      · rw [ht.lasting] at he
        omega
    have hkeep := runCalls_keeps config hclone others (fun c hc => by
      have := hbetween c.toAsk (hothers ▸ List.mem_map_of_mem hc)
      omega) hready' hbind'
    have hreads := run_reads config hkeep.1 (c := ⟨second, answers⟩)
      ⟨by rw [hsame]; exact hsrc, hsecond⟩ (by rw [hsame]; exact hkeep.2) hlt hclone
    rw [hreads, hr]
    exact ⟨hcalls, rfl⟩

/-- The first call reads what a call two seconds earlier stored, a summed metric with the
same key is asked for in between, and the second call still reads it. -/
theorem coalesced_behind_store :
    Coalesced sharedFile (cacheAfter sharedFile 5 [callAt netMetric 98]) (callAt netMetric 100)
      [(callAt netTotalMetric 101).toAsk] (callAt netMetric 102).toAsk := by
  obtain ⟨r, hr⟩ : ∃ r, ((callAt netMetric 100).run sharedFile
      (cacheAfter sharedFile 5 [callAt netMetric 98])).data = some r :=
    Option.isSome_iff_exists.mp (by decide +kernel)
  refine (coalesced_iff sharedFile 5 [callAt netMetric 98] (callAt netMetric 100)
    [(callAt netTotalMetric 101).toAsk] (callAt netMetric 102).toAsk rfl rfl rfl
    (by decide) (by decide) (by decide) hr).mpr ⟨rfl, ?_⟩
  intro d e hbind _
  have hexp : ((cacheAfter sharedFile 5 [callAt netMetric 98]).slots.toMap
      ((callAt netMetric 100).req.key sharedFile)).map Prod.snd = some 103 := by
    decide +kernel
  rw [hbind, Option.map_some] at hexp
  injection hexp with hexp
  show (102 : Int) < e
  omega

/-- A metric read from `/proc`. -/
def cpuMetric : MetricConfig where
  endpoint := str "cpu"
  source := .proc
  procMetric := str "cpu"

/-- A call for it, answered with one sample. -/
def cpuCallAt (t : Int) : Call where
  req := ⟨cpuMetric, none, 60⟩
  times := ⟨t, t, t, t⟩
  backends := ⟨deadWorld, fun _ m _ => some ⟨[⟨some (str "cpu"), [⟨t, .fin 7⟩]⟩], some [], m⟩,
    fun _ _ _ => none⟩

/-- Two calls for a `/proc` metric, one second apart, read `/proc` twice. -/
theorem not_coalesced_proc :
    ((cpuCallAt 100).run sharedFile (cacheAfter sharedFile 5 [])).data.isSome = true
      ∧ (cpuCallAt 101).req = (cpuCallAt 100).req
      ∧ ((cpuCallAt 100).run sharedFile (cacheAfter sharedFile 5 [])).backendCalls
        + ((cpuCallAt 101).run sharedFile (cacheAfter sharedFile 5 [cpuCallAt 100])).backendCalls = 2
      ∧ ¬ Coalesced sharedFile (cacheAfter sharedFile 5 []) (cpuCallAt 100) []
        (cpuCallAt 101).toAsk := by
  refine ⟨rfl, rfl, rfl, ?_⟩
  intro h
  obtain ⟨hcalls, _⟩ := h [] (cpuCallAt 101).backends rfl
  have htwo : ((cpuCallAt 100).run sharedFile (cacheAfter sharedFile 5 [])).backendCalls
      + ((cpuCallAt 101).run sharedFile (cacheAfter sharedFile 5 [cpuCallAt 100])).backendCalls
        = 2 := rfl
  exact absurd (htwo ▸ hcalls) (by decide)

end Svgd.Backend
