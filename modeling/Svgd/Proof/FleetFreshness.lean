import Svgd.Gate.Fleet
import Svgd.Proof.AuthGate
import Svgd.Proof.CacheTransparency
import Svgd.Proof.TwoTiers

/-!
# Where the data of a picture comes from

Behind the gate, a picture is drawn by the backend its request was sent to, from data that
this backend fetched for the request itself or for an earlier one. The cache of a backend is
what the requests sent to it have made of it (`Deployment.run_fleet`), so every binding goes
back to one of them, and nothing another backend has read can be in it.
-/

namespace Svgd.Gate

open Lib

/-! ## One request to a backend -/

/-- What a request makes the backend fetch. -/
def Ask.call (a : Ask) : Option Backend.Call :=
  match Backend.lsrpArgs a.params with
  | .error _ => none
  | .ok args =>
      match Backend.handlerRoute a.env.config args.endpoint args.period with
      | .fetch r => some { req := r, times := a.env.times, backends := a.env.backends }
      | _ => none

/-- The picture the backend draws of the data. -/
def Ask.Draws (a : Ask) (data : Backend.MetricData) (svg : Bytes) : Prop :=
  ∃ args r, Backend.lsrpArgs a.params = .ok args
    ∧ Backend.handlerRoute a.env.config args.endpoint args.period = .fetch r
    ∧ a.env.generateSvg { data with metricConfig := r.metric } (Backend.svgWidth args)
        (Backend.svgHeight args) (Backend.renderTheme a.env.config args) = some svg

/-- What a call gets without the cache. -/
def uncached (config : Backend.Config) (c : Backend.Call) : Option Backend.MetricData :=
  (Backend.metricSourceFetch config c.req false c.times c.backends {}).data

/-- What a backend makes of its cache, and what a picture it answers is drawn from. -/
structure Serves (a : Ask) (cache : Backend.Cache) (reply : Backend.LsrpReply)
    (cache' : Backend.Cache) : Prop where
  cache_eq : cache' = Backend.runCalls a.env.config.toConfig cache a.call.toList
  drawn : ∀ c, a.call = some c → reply.status = 0 →
    ∃ data, (c.run a.env.config.toConfig cache).data = some data ∧ a.Draws data reply.data

/-- A run of the handler fetches for its route, or leaves the cache alone. -/
theorem handlerProcess_some {env : Backend.HandlerEnv} {args : Backend.HandlerArgs}
    {cache cache' : Backend.Cache} {r : Backend.HandlerResult} {st : List Backend.DukVal}
    (h : Backend.handlerProcess env args true cache [] = some ((r, cache'), st)) :
    ((∀ req, Backend.handlerRoute env.config args.endpoint args.period ≠ .fetch req)
        ∧ cache' = cache)
      ∨ ∃ req, Backend.handlerRoute env.config args.endpoint args.period = .fetch req
        ∧ cache' = (Backend.metricSourceFetch env.config.toConfig req true env.times env.backends
            cache).cache
        ∧ r = Backend.renderResult env (Backend.renderJob env.config args) req.metric
            (Backend.metricSourceFetch env.config.toConfig req true env.times env.backends
              cache).data := by
  have hroute : ∀ route, Backend.handlerRoute env.config args.endpoint args.period = route →
      Backend.handlerRoute env.config (Backend.renderJob env.config args).endpoint
        (Backend.renderJob env.config args).period = route := fun _ h => h
  unfold Backend.handlerProcess at h
  dsimp only at h
  cases hcase : Backend.handlerRoute env.config args.endpoint args.period with
  | metricsConfig =>
      rw [hroute _ hcase] at h
      cases hjson : env.metricsJson with
      | none =>
          rw [hjson] at h
          cases h
          exact Or.inl ⟨by simp, rfl⟩
      | some json =>
          rw [hjson] at h
          cases h
          exact Or.inl ⟨by simp, rfl⟩
  | grafanaSearch =>
      rw [hroute _ hcase] at h
      cases h
      exact Or.inl ⟨by simp, rfl⟩
  | grafanaQuery =>
      rw [hroute _ hcase] at h
      obtain ⟨r', st', -, hpure⟩ := Stacked.bind_some h
      cases hpure
      exact Or.inl ⟨by simp, rfl⟩
  | refused message =>
      rw [hroute _ hcase] at h
      cases h
      exact Or.inl ⟨by simp, rfl⟩
  | fetch req =>
      rw [hroute _ hcase] at h
      cases h
      exact Or.inr ⟨req, rfl, rfl, rfl⟩

/-- A picture without an error is drawn from the data. -/
theorem renderResult_drawn {env : Backend.HandlerEnv} {job : Backend.RenderJob}
    {m : Backend.MetricConfig} {fetched : Option Backend.MetricData}
    (h : (Backend.renderResult env job m fetched).status = 0) :
    ∃ data, fetched = some data
      ∧ env.generateSvg { data with metricConfig := m } job.width job.height job.theme
        = some (Backend.renderResult env job m fetched).data := by
  cases fetched with
  | none => exact absurd h (by simp [Backend.renderResult, Backend.errorResult])
  | some data =>
      refine ⟨data, rfl, ?_⟩
      unfold Backend.renderResult at h ⊢
      dsimp only at h ⊢
      cases hsvg : env.generateSvg { data with metricConfig := m } job.width job.height job.theme with
      | none =>
          rw [hsvg] at h
          exact absurd h (by simp [Backend.errorResult])
      | some svg => rfl

theorem serve_some {a : Ask} {cache cache' : Backend.Cache} {reply : Backend.LsrpReply}
    (h : a.serve (some cache) = some (reply, cache')) : Serves a cache reply cache' := by
  have h : (Backend.lsrpHandler a.env a.params cache []).map Prod.fst = some (reply, cache') := h
  unfold Backend.lsrpHandler at h
  cases hargs : Backend.lsrpArgs a.params with
  | error message =>
      have hcall : a.call = none := by
        unfold Ask.call
        rw [hargs]
      rw [hargs] at h
      obtain ⟨-, rfl⟩ := Prod.mk.inj (Option.some.inj h)
      exact ⟨by rw [hcall]; rfl, fun c hc => absurd (hcall.symm.trans hc) (by simp)⟩
  | ok args =>
      rw [hargs] at h
      have h := (answered_eq (Backend.handlerProcess a.env args true cache) fun r =>
        Backend.LsrpReply.mk (if r.status = 0 then 0 else 1) r.data).symm.trans h
      obtain ⟨⟨result, left⟩, hresult, hreply⟩ := Option.map_eq_some_iff.mp h
      obtain ⟨⟨-, st⟩, hrun, rfl⟩ := Option.map_eq_some_iff.mp hresult
      obtain ⟨rfl, rfl⟩ := Prod.mk.inj hreply
      have hstatus : (if result.status = 0 then (0 : Int) else 1) = 0 → result.status = 0 := by
        intro h0
        by_contra hne
        rw [if_neg hne] at h0
        exact absurd h0 (by decide)
      rcases handlerProcess_some hrun with ⟨hno, hsame⟩ | ⟨req, hroute, hleft, hrendered⟩
      · have hcall : a.call = none := by
          unfold Ask.call
          rw [hargs]
          dsimp only
          split
          · rename_i r hr
            exact absurd hr (hno r)
          · rfl
        exact ⟨by rw [hcall]; exact hsame, fun c hc => absurd (hcall.symm.trans hc) (by simp)⟩
      · have hcall : a.call
            = some { req := req, times := a.env.times, backends := a.env.backends } := by
          unfold Ask.call
          rw [hargs]
          dsimp only
          rw [hroute]
        refine ⟨by rw [hcall]; exact hleft, fun c hc hok => ?_⟩
        obtain rfl := Option.some.inj (hcall.symm.trans hc)
        have hok := hstatus hok
        rw [hrendered] at hok
        obtain ⟨data, hdata, hsvg⟩ := renderResult_drawn hok
        refine ⟨data, hdata, args, req, hargs, hroute, ?_⟩
        show _ = some result.data
        rw [hrendered]
        exact hsvg

/-! ## All requests to a backend -/

/-- The calls that requests lead to. -/
def callsOf (asks : List Ask) : List Backend.Call := asks.filterMap Ask.call

theorem leaves_none (asks : List Ask) : asks.foldl Ask.leaves none = none := by
  induction asks with
  | nil => rfl
  | cons a asks ih => exact ih

/-- A backend that has survived its requests holds what their calls left in its cache. -/
theorem leaves_run {config : Backend.Config} {asks : List Ask}
    (hconfig : ∀ a ∈ asks, a.env.config.toConfig = config) {cache cache' : Backend.Cache}
    (h : asks.foldl Ask.leaves (some cache) = some cache') :
    cache' = Backend.runCalls config cache (callsOf asks) := by
  induction asks generalizing cache with
  | nil => exact (Option.some.inj h).symm
  | cons a asks ih =>
      rw [List.foldl_cons] at h
      cases hserve : a.serve (some cache) with
      | none =>
          have hgone : Ask.leaves (some cache) a = none := by
            unfold Ask.leaves
            rw [hserve]
            rfl
          rw [hgone, leaves_none] at h
          exact absurd h (by simp)
      | some answered =>
          obtain ⟨reply, left⟩ := answered
          have hleft : Ask.leaves (some cache) a = some left := by
            unfold Ask.leaves
            rw [hserve]
            rfl
          rw [hleft] at h
          have hrest := ih (fun b hb => hconfig b (List.mem_cons_of_mem a hb)) h
          rw [(serve_some hserve).cache_eq, hconfig a List.mem_cons_self] at hrest
          have hsplit : callsOf (a :: asks) = a.call.toList ++ callsOf asks := by
            unfold callsOf
            rw [List.filterMap_cons]
            cases a.call <;> rfl
          rw [hsplit, Backend.runCalls_append, hrest]

/-! ## What the gate relays -/

/-- An answer with a body is an answer of the backend without an error. -/
def Faithful (relay : LsrpResponse → Response) : Prop :=
  ∀ resp ct body, relay resp = .ok ct body → resp.status = 0 ∧ resp.data = body

/-- Whatever is sent to a backend, its answer is relayed. -/
def Relays (env : Env) (ds : DatasourceList) (o : Outcome) : Prop :=
  ∃ buffer params relay, o = forward env ds buffer params relay ∧ Faithful relay

section

variable {env : Env} {ds : DatasourceList} {host params : Bytes} {port : Int}

theorem grafanaForward_relays (buffer sent : Bytes) :
    Relays env ds (grafanaForward env ds buffer sent) := by
  refine ⟨buffer, sent, _, rfl, fun resp ct body h => ?_⟩
  split at h
  · rename_i hok
    exact ⟨hok, (Response.ok.inj h).2⟩
  · exact absurd h (by simp)

/-- Grafana is answered by the gate, or by a backend. -/
theorem handleGrafana_cases (env : Env) (ds : DatasourceList) (path buffer : Bytes) :
    (∃ r, handleGrafana env ds path buffer = answer ds r)
      ∨ ∃ sent, handleGrafana env ds path buffer = grafanaForward env ds buffer sent := by
  unfold handleGrafana
  dsimp only
  split
  · exact Or.inl ⟨_, rfl⟩
  split
  · exact Or.inl ⟨_, rfl⟩
  split
  · exact Or.inl ⟨_, rfl⟩
  split
  · exact Or.inr ⟨_, rfl⟩
  split
  · split
    · exact Or.inl ⟨_, rfl⟩
    · split
      · exact Or.inl ⟨_, rfl⟩
      · exact Or.inr ⟨_, rfl⟩
  split
  · exact Or.inl ⟨_, rfl⟩
  · exact Or.inl ⟨_, rfl⟩

theorem not_mem_answer (r : Response) :
    Effect.lsrpSend host port params ∉ (answer ds r).effects := by
  simp [answer]

theorem handleGrafana_relays {path buffer : Bytes}
    (h : Effect.lsrpSend host port params ∈ (handleGrafana env ds path buffer).effects) :
    Relays env ds (handleGrafana env ds path buffer) := by
  rcases handleGrafana_cases env ds path buffer with ⟨r, hr⟩ | ⟨sent, hsent⟩
  · rw [hr] at h
    exact absurd h (not_mem_answer r)
  · rw [hsent]
    exact grafanaForward_relays buffer sent

theorem forwardMetric_relays {buffer : Bytes}
    (h : Effect.lsrpSend host port params ∈ (forwardMetric env ds buffer).effects) :
    Relays env ds (forwardMetric env ds buffer) := by
  unfold forwardMetric at h ⊢
  split
  · rename_i hparse
    rw [hparse] at h
    exact absurd h (not_mem_answer _)
  · refine ⟨buffer, _, _, rfl, fun resp ct body h => ?_⟩
    split at h
    · rename_i hok
      exact ⟨hok, (Response.ok.inj h).2⟩
    · exact absurd h (by simp)

theorem route_relays {path buffer : Bytes}
    (h : Effect.lsrpSend host port params ∈ (route env ds path buffer).effects) :
    Relays env ds (route env ds path buffer) := by
  unfold route at h ⊢
  split
  · rename_i hg
    rw [if_pos hg] at h
    exact handleGrafana_relays h
  rename_i hg
  rw [if_neg hg] at h
  split
  · rename_i hds
    rw [if_pos hds] at h
    exact absurd (List.all_eq_true.mp (routeDatasources_effects ds path buffer) _ h)
      (by simp [Effect.isListing])
  rename_i hds
  rw [if_neg hds] at h
  split
  · rename_i hstatic
    rw [if_pos hstatic] at h
    obtain ⟨r, hr⟩ := serveStaticFile_effects env ds path
    rw [hr] at h
    exact absurd h (by simp)
  · rename_i hstatic
    rw [if_neg hstatic] at h
    exact forwardMetric_relays h

/-- Only the routes behind the token check send anything to a backend. -/
theorem handleRequest_relays {received : Bytes}
    (h : Effect.lsrpSend host port params ∈ (handleRequest env ds received).effects) :
    Relays env ds (handleRequest env ds received) := by
  unfold handleRequest at h ⊢
  split
  · rename_i hnil
    rw [if_pos hnil] at h
    exact absurd h List.not_mem_nil
  rename_i hne
  rw [if_neg hne] at h
  dsimp only at h ⊢
  cases hpath : extractPath (cstr received) with
  | none =>
      rw [hpath] at h
      exact absurd h (not_mem_answer _)
  | some path =>
      rw [hpath] at h
      dsimp only at h ⊢
      split at h
      · exact absurd h (not_mem_answer _)
      split at h
      · exact absurd h (not_mem_answer _)
      split at h
      · exact absurd h (not_mem_answer _)
      split at h
      · exact absurd h (not_mem_answer _)
      rename_i h1 h2 h3 h4
      rw [if_neg h1, if_neg h2, if_neg h3, if_neg h4]
      exact route_relays h

/-- What the client gets is what the backend said. -/
theorem Relays.reply {o : Outcome} (hrelays : Relays env ds o)
    (hsent : Effect.lsrpSend host port params ∈ o.effects) {ct body : Bytes}
    (hreply : o.reply = some (.ok ct body)) :
    env.lsrpClientSend host port params = some ⟨0, body⟩ := by
  obtain ⟨buffer, sent, relay, rfl, hrelay⟩ := hrelays
  unfold forward at hsent hreply
  split at hsent
  · exact absurd hsent (not_mem_answer _)
  rename_i host' port' hbackend
  rw [hbackend] at hreply
  dsimp only at hreply
  cases hcall : env.lsrpClientSend host' port' sent with
  | none =>
      rw [hcall] at hreply
      exact absurd (Option.some.inj hreply) (by simp)
  | some resp =>
      rw [hcall] at hsent hreply
      obtain ⟨hok, hdata⟩ := hrelay resp ct body (Option.some.inj hreply)
      have hsame : Effect.lsrpSend host port params = .lsrpSend host' port' sent := by
        simpa using hsent
      obtain ⟨rfl, rfl, rfl⟩ := Effect.lsrpSend.inj hsame
      rw [hcall, ← hok, ← hdata]

end

/-! ## The data -/

/-- What a call returns was fetched for it, or was in the cache. -/
theorem run_origin {config : Backend.Config} {ttl : Int} {calls : List Backend.Call}
    {c : Backend.Call} (huse : c.useCache = true) {data : Backend.MetricData}
    (h : (c.run config (Backend.cacheAfter config ttl calls)).data = some data) :
    uncached config c = some data
      ∨ ∃ s ∈ calls, s.fetched config = some data ∧ s.req.key config = c.req.key config
        ∧ c.times.get < s.times.put + Backend.lifetime ttl := by
  have ht := Backend.traced_cacheAfter config ttl calls
  by_cases hrrd : c.req.metric.source = .rrd
  · have hfresh : uncached config c = c.fetched config := by
      unfold uncached Backend.metricSourceFetch
      rw [hrrd]
      dsimp only
      rw [if_neg (by decide)]
      unfold Backend.Call.fetched
      cases Backend.Request.fetch config c.req c.backends.rrd c.times.now <;> rfl
    rcases Backend.Call.run_answer ht.ready ⟨hrrd, huse⟩ h with ⟨hget, -⟩ | ⟨-, hfetch, -⟩
    · obtain ⟨d, e, hbind, hlt, hclone⟩ := (Backend.rrdCacheGet_eq_some ht.ready).mp hget
      obtain ⟨s, hs, hkey, hexp⟩ := ht.within _ _ _ hbind
      rw [Backend.cloneMetricData_of_fetch hs.fetched] at hclone
      obtain rfl := Option.some.inj hclone
      exact Or.inr ⟨s, hs.mem, hs.fetched, hkey, by omega⟩
    · exact Or.inl (hfresh.trans hfetch)
  · left
    unfold Backend.Call.run at h
    unfold uncached
    rw [← h]
    unfold Backend.metricSourceFetch
    cases hsrc : c.req.metric.source with
    | rrd => exact absurd hsrc hrrd
    | proc => rfl
    | prometheus => rfl

theorem call_useCache {a : Ask} {c : Backend.Call} (h : a.call = some c) : c.useCache = true := by
  unfold Ask.call at h
  split at h
  · exact absurd h (by simp)
  · split at h
    · rw [← Option.some.inj h]
    · exact absurd h (by simp)

/-- What comes to a backend is handled in the surroundings of one of the requests. -/
theorem mem_allAsks {x : Address} {ask : Ask} :
    ∀ {as : List Arrival} {d : Deployment}, (x, ask) ∈ d.allAsks as → ∃ a ∈ as, ask.env = a.world x
  | [], _, h => absurd h List.not_mem_nil
  | a :: as, d, h => by
      rcases List.mem_append.mp h with hnow | hlater
      · obtain ⟨e, -, he⟩ := List.mem_filterMap.mp hnow
        exact ⟨a, List.mem_cons_self, Arrival.ask_some he⟩
      · obtain ⟨b, hb, henv⟩ := mem_allAsks hlater
        exact ⟨b, List.mem_cons_of_mem a hb, henv⟩

/--
**A picture shows what its own backend has read.**

A gate and its backends are asked any sequence of requests, over connections that may lose any
message or answer; each backend has a configuration and a cache lifetime of its own, and an
empty cache at the start. If a request is sent on to the backend at an address and a picture
comes back, the backend drew it of data that it fetched for this request, or that it fetched
for an earlier request to the same address, under the same key, and stored less than its
lifetime before.
-/
theorem picture_fresh (config : Address → Backend.ServerConfig) (ttl : Address → Int)
    (d : Deployment) (as : List Arrival) (hconfig : ∀ a ∈ as, ∀ x, (a.world x).config = config x)
    (hstart : ∀ x cache, d.fleet x = some cache → cache = Backend.rrdCacheInit {} (ttl x))
    (pre post : List Arrival) (a : Arrival) (has : as = pre ++ a :: post) (hlsrp : a.lsrp.Lawful)
    (host params : Bytes) (port : Int) (ct svg : Bytes)
    (hsent : Effect.lsrpSend host port params ∈ ((d.run pre).outcome a).effects)
    (hshown : ((d.run pre).outcome a).reply = some (.ok ct svg)) (c : Backend.Call)
    (hcall : (Ask.mk (a.world (host, port)) params).call = some c) :
    ∃ data, (Ask.mk (a.world (host, port)) params).Draws data svg
      ∧ (uncached (config (host, port)).toConfig c = some data
        ∨ ∃ ask s, ((host, port), ask) ∈ d.allAsks pre ∧ ask.call = some s
          ∧ s.fetched (config (host, port)).toConfig = some data
          ∧ s.req.key (config (host, port)).toConfig = c.req.key (config (host, port)).toConfig
          ∧ c.times.get < s.times.put + Backend.lifetime (ttl (host, port))) := by
  have hsend : ((d.run pre).env a).lsrpClientSend host port params = some ⟨0, svg⟩ :=
    (handleRequest_relays hsent).reply hsent hshown
  -- the backend is there, and answers with the picture
  obtain ⟨reply, left, hserve, hreply⟩ := Deployment.lsrpClientSend_some hlsrp hsend
  obtain ⟨hok, rfl⟩ := LsrpResponse.mk.inj hreply
  have hok := hok.symm
  generalize (host, port) = x at *
  cases hprocess : (d.run pre).fleet x with
  | none =>
      rw [hprocess] at hserve
      exact absurd hserve (by simp [Ask.serve])
  | some cache =>
      rw [hprocess] at hserve
      -- its cache is what the earlier requests to it have left
      rw [d.run_fleet] at hprocess
      cases hfirst : d.fleet x with
      | none =>
          rw [hfirst, leaves_none] at hprocess
          exact absurd hprocess (by simp)
      | some first =>
          rw [hfirst, hstart x first hfirst] at hprocess
          have henv : ∀ ask ∈ Sites.eventsAt x (d.allAsks pre),
              ask.env.config.toConfig = (config x).toConfig := by
            intro ask hask
            obtain ⟨b, hb, henv⟩ := mem_allAsks (Sites.mem_eventsAt.mp hask)
            rw [henv, hconfig b (by rw [has]; exact List.mem_append_left _ hb)]
          have hcache := leaves_run henv hprocess
          obtain ⟨data, hrun, hdraws⟩ := (serve_some hserve).drawn c hcall hok
          have hown : (Ask.mk (a.world x) params).env.config = config x :=
            hconfig a (by rw [has]; simp) x
          rw [hown, hcache] at hrun
          refine ⟨data, hdraws, ?_⟩
          rcases run_origin (call_useCache hcall) hrun with h | ⟨s, hs, hfetched, hkey, hlt⟩
          · exact Or.inl h
          · obtain ⟨ask, hask, hscall⟩ := List.mem_filterMap.mp hs
            exact Or.inr ⟨ask, s, Sites.mem_eventsAt.mp hask, hscall, hfetched, hkey, hlt⟩

/-- The chart of the sample is asked for a second time, and comes out of the cache. -/
theorem picture_fresh_net :
    let params := str "endpoint=net&period=60&width=500"
    ((sampleDeployment.run [sampleChart]).outcome sampleChart).effects
        = [.lsrpSend (str "127.0.0.1") 8081 params,
          .respond (.ok (str "image/svg+xml") (str "<svg/>"))]
      ∧ ∃ data, (Ask.mk sampleBackend params).Draws data (str "<svg/>") := by
  intro params
  have heffects : ((sampleDeployment.run [sampleChart]).outcome sampleChart).effects
      = [.lsrpSend (str "127.0.0.1") 8081 params,
        .respond (.ok (str "image/svg+xml") (str "<svg/>"))] := by decide +kernel
  have hreply : ((sampleDeployment.run [sampleChart]).outcome sampleChart).reply
      = some (.ok (str "image/svg+xml") (str "<svg/>")) := by
    unfold Outcome.reply
    rw [heffects]
    rfl
  obtain ⟨c, hc⟩ : ∃ c, (Ask.mk sampleBackend params).call = some c := by
    refine Option.isSome_iff_exists.mp ?_
    decide +kernel
  obtain ⟨data, hdraws, -⟩ := picture_fresh (fun _ => { Backend.sharedFile with }) (fun _ => 5)
    sampleDeployment [sampleChart, sampleChart]
    (fun a ha _ => by rw [show a = sampleChart by simpa using ha]; rfl)
    (fun _ _ h => (Option.some.inj h).symm) [sampleChart] [] sampleChart rfl
    (Lsrp.lossless_reliable 0).toLawful (str "127.0.0.1") params 8081 (str "image/svg+xml")
    (str "<svg/>") (by rw [heffects]; simp) hreply c hc
  exact ⟨heffects, data, hdraws⟩

end Svgd.Gate
