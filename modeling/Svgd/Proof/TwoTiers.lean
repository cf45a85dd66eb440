import Svgd.Gate.Fleet
import Svgd.Proof.AuthGate
import Svgd.Proof.CacheTransparency
import Svgd.Proof.MetricRoutes

/-!
# The gate is not there

A chart asked for through the gate is the chart its backend would have drawn for the same
request in HTTP mode, and the backend's cache is the same behind it. So it is along any
sequence of requests, whatever else the gate is asked in between (datasources added,
deleted, made the default; files; Grafana), since the two arrangements stay in the same
state.

One request is followed through all its readers: the gate's routes and its reading of the
target, the LSRP parameters and their reading in the backend, and on the other side the
reading of the same target by the HTTP front end.
-/

namespace Svgd.Gate

open Lib

/-- A request for the chart of an endpoint. -/
structure ChartRequest (a : Arrival) (p q : Bytes) : Prop where
  received : ∃ rest, a.received = Backend.getRequest p q rest
  path : p ≠ [] ∧ p.length ≤ 254 ∧ ∀ c ∈ str "&=?. \r\x00", c ∉ p
  /-- The gate has no route of its own for it. -/
  free : ∀ s ∈ [str "_auth/login", str "_auth/verify", str "_datasources"], p ≠ s
  freeBelow : startsWith p (str "_datasources/") = false ∧ isGrafanaPath (ch '/' :: p) = false
  query : q.length ≤ 255 ∧ ∀ c ∈ str " \r\x00", c ∉ q
  token : hasValidToken a.env (cstr a.received) = true
  fits : (apiParams p q).length < a.env.maxParamsLen
  lsrp : a.lsrp.Reliable a.env.maxParamsLen
  /-- A size is a number from end to end, or one that does not matter. -/
  sizes : Backend.SizeAgrees q (str "width") 800 ∧ Backend.SizeAgrees q (str "height") 450

section

variable {p q rest : Bytes} (hp : p ≠ [] ∧ p.length ≤ 254 ∧ ∀ c ∈ str "&=?. \r\x00", c ∉ p)
  (hq : q.length ≤ 255 ∧ ∀ c ∈ str " \r\x00", c ∉ q)

include hp hq

/-- The buffer from the method on. -/
theorem cstr_getRequest : cstr (Backend.getRequest p q rest)
    = str "GET " ++ (Backend.getTarget p q ++ (str " HTTP/" ++ cstr (str "1.1\r\n" ++ rest))) := by
  have hnul : (0 : UInt8) ∉ Backend.getTarget p q := by
    simp only [Backend.getTarget, List.mem_cons, List.mem_append, not_or]
    exact ⟨by decide, hp.2.2 0 (by decide), by decide, hq.2 0 (by decide)⟩
  have hversion : str " HTTP/1.1" ++ (str "\r\n" ++ rest)
      = str " HTTP/" ++ (str "1.1\r\n" ++ rest) := rfl
  rw [Backend.getRequest, hversion, cstr_append (by decide), cstr_append hnul,
    cstr_append (by decide)]

theorem gets_getRequest : Backend.Gets (cstr (Backend.getRequest p q rest)) p q := by
  have hspace : ch ' ' ∉ Backend.getTarget p q :=
    Backend.space_not_mem_getTarget (hp.2.2 _ (by decide)) (hq.2 _ (by decide))
  refine ⟨hp.2.2 _ (by decide), Or.inl ?_⟩
  unfold Backend.requestTarget
  rw [cstr_getRequest hp hq, if_pos (startsWith_append _ _)]
  have hdrop : ∀ t : Bytes, (str "GET " ++ t).drop 4 = t := fun t => rfl
  rw [hdrop, strstr_version hspace, Option.map_some, upTo_append]
  rfl

theorem extractPath_getRequest :
    extractPath (cstr (Backend.getRequest p q rest)) = some (ch '/' :: p) :=
  (Backend.gets_parts (gets_getRequest hp hq)).1

/-- The parameters, if they fit. -/
theorem parseApiRequest_chart {maxParamsLen : Nat} (hfits : (apiParams p q).length < maxParamsLen) :
    parseApiRequest maxParamsLen (cstr (Backend.getRequest p q rest)) = some (apiParams p q) := by
  have hspace : ch ' ' ∉ Backend.getTarget p q :=
    Backend.space_not_mem_getTarget (hp.2.2 _ (by decide)) (hq.2 _ (by decide))
  have hmark : ch '?' ∉ p := hp.2.2 _ (by decide)
  rw [cstr_getRequest hp hq]
  generalize hstop : str " HTTP/" ++ cstr (str "1.1\r\n" ++ rest) = stop
  have hend : strstr (Backend.getTarget p q ++ stop) (str " HTTP/") = some stop := by
    rw [← hstop]
    exact strstr_version hspace _
  have hquery : queryStart (Backend.getTarget p q ++ stop) stop = some (ch '?' :: (q ++ stop)) := by
    unfold queryStart
    rw [Backend.strchr_getTarget hmark]
    dsimp only
    rw [if_pos (by simp only [List.length_cons, List.length_append]; omega)]
  have hpath : upTo (Backend.getTarget p q ++ stop) (ch '?' :: (q ++ stop)) = ch '/' :: p := by
    have htext : Backend.getTarget p q ++ stop = (ch '/' :: p) ++ ch '?' :: (q ++ stop) := by
      simp [Backend.getTarget]
    rw [htext, upTo_append]
  have hkept : apiQuery (Backend.getTarget p q ++ stop) stop = q := by
    have hsent : Backend.targetQuery (Backend.getTarget p q ++ stop) stop = q := by
      unfold Backend.targetQuery
      rw [hquery]
      dsimp only
      rw [List.drop_succ_cons, List.drop_zero, upTo_append]
    have hlen := hq.1
    rw [Backend.apiQuery_eq, hsent, apiBufferSize, if_pos (by omega)]
  have hpos := List.length_pos_iff.mpr hp.1
  have hlen := hp.2.1
  have hdrop : (str "GET " ++ (Backend.getTarget p q ++ stop)).drop 4 = Backend.getTarget p q ++ stop :=
    rfl
  have hskip : ((Backend.getTarget p q ++ stop).drop 1).take p.length = p := by
    simp [Backend.getTarget]
  have hhead : (Backend.getTarget p q ++ stop).head? = some (ch '/') := rfl
  unfold parseApiRequest
  rw [if_pos (startsWith_append _ _)]
  dsimp only
  rw [hdrop, hend]
  dsimp only
  rw [hquery, Option.getD_some, hpath, hkept, List.length_cons, Nat.add_sub_cancel, hskip, hhead,
    if_neg (by simp only [ne_eq, not_true_eq_false, or_false]; omega), apiBufferSize,
    if_neg (by omega), if_neg (by omega)]

omit hq in
/-- The endpoint that decides the type of the answer. -/
theorem paramsEndpoint_apiParams : paramsEndpoint (apiParams p q) = p := by
  have hamp : ch '&' ∉ p := hp.2.2 _ (by decide)
  have hlen := hp.2.1
  have hstart : ∃ t, apiParams p q = str "endpoint=" ++ t ∧ untilOr t (strchr t (ch '&')) = p := by
    unfold apiParams
    split
    · refine ⟨p ++ ch '&' :: q, by simp [str, ch], ?_⟩
      rw [strchr_append hamp, untilOr, upTo_append]
    · refine ⟨p, rfl, ?_⟩
      rw [strchr_eq_none.mpr hamp, untilOr]
  obtain ⟨t, ht, hvalue⟩ := hstart
  have hdrop : (str "endpoint=" ++ t).drop 9 = t := rfl
  unfold paramsEndpoint
  rw [ht, strstr_head (startsWith_append _ _)]
  dsimp only
  rw [hdrop, hvalue, if_pos (by omega)]

/-! ## The HTTP front end reads the target -/

theorem httpAction_chart : Backend.httpAction (Backend.getRequest p q rest)
    = .process ⟨p, some q, Backend.httpPeriod q, 0, 0⟩ := by
  have hmark : ch '?' ∉ p := hp.2.2 _ (by decide)
  have hspace : ch ' ' ∉ Backend.getTarget p q :=
    Backend.space_not_mem_getTarget (hp.2.2 _ (by decide)) (hq.2 _ (by decide))
  have hcr : ch '\r' ∉ Backend.getTarget p q := by
    simp only [Backend.getTarget, List.mem_cons, List.mem_append, not_or]
    exact ⟨by decide, hp.2.2 _ (by decide), by decide, hq.2 _ (by decide)⟩
  have hline : Backend.getRequest p q rest
      = (str "GET " ++ (Backend.getTarget p q ++ ch ' ' :: str "HTTP/1.1"))
        ++ ch '\r' :: (str "\n" ++ rest) := by
    simp [Backend.getRequest, str, ch]
  have hno : ch '\r' ∉ str "GET " ++ (Backend.getTarget p q ++ ch ' ' :: str "HTTP/1.1") := by
    simp only [List.mem_append, List.mem_cons, not_or]
    exact ⟨by decide, hcr, by decide, by decide⟩
  have hquery : strchr (Backend.getTarget p q) (ch '?') = some (ch '?' :: q) := by
    simpa using Backend.strchr_getTarget (q := q) hmark []
  have hpath : upTo (Backend.getTarget p q) (ch '?' :: q) = ch '/' :: p := by
    have htext : Backend.getTarget p q = (ch '/' :: p) ++ ch '?' :: q := rfl
    rw [htext, upTo_append]
  have hsize : (Backend.getTarget p q).length = p.length + q.length + 2 := by
    simp only [Backend.getTarget, List.length_cons, List.length_append]
    omega
  have hplen := hp.2.1
  have hqlen := hq.1
  have hslash : cstr (ch '/' :: p) = ch '/' :: p := by
    refine cstr_eq_self ?_
    rw [List.mem_cons, not_or]
    exact ⟨by decide, hp.2.2 _ (by decide)⟩
  have hsplit : Backend.httpSplitTarget (str "GET") (Backend.getTarget p q)
      = some ⟨str "GET", ch '/' :: p, q⟩ := by
    unfold Backend.httpSplitTarget
    rw [hquery, hsize, Backend.httpMaxPath, Backend.httpMaxQuery, if_neg (by omega)]
    dsimp only
    rw [hpath, List.drop_succ_cons, List.drop_zero, List.length_cons, if_neg (by omega),
      if_neg (by omega), hslash, cstr_eq_self (hq.2 _ (by decide))]
    rfl
  have hoptions : startsWith (cstr (Backend.getRequest p q rest)) (str "OPTIONS") = false := by
    rw [cstr_getRequest hp hq]
    rfl
  unfold Backend.httpAction
  rw [if_neg (by simp [Backend.getRequest, str]), if_neg (by rw [hoptions]; decide), hline,
    Backend.httpParseRequest_line hno, Backend.httpParseLine_get hspace, hsplit]
  rfl

end

/-! ## The gate routes the request -/

section

variable {a : Arrival} {p q : Bytes} (h : ChartRequest a p q)

include h

theorem ChartRequest.path_eq : extractPath (cstr a.received) = some (ch '/' :: p) := by
  obtain ⟨rest, hrest⟩ := h.received
  rw [hrest]
  exact extractPath_getRequest h.path h.query

theorem ChartRequest.not_static : isStaticRequest (ch '/' :: p) = false := by
  have hdot : ch '.' ∉ ch '/' :: p := by
    rw [List.mem_cons, not_or]
    exact ⟨by decide, h.path.2.2 _ (by decide)⟩
  have hroot : ¬(ch '/' :: p = str "/" ∨ ch '/' :: p = str "/index.html") := by
    rintro (heq | heq)
    · exact h.path.1 (List.cons.inj heq).2
    · rw [heq] at hdot
      exact absurd hdot (by decide)
  unfold isStaticRequest hasFileExtension
  rw [if_neg hroot, strrchr_eq_none hdot, ite_self]

/-- The request is forwarded. -/
theorem ChartRequest.forwarded {env : Env} {ds : DatasourceList}
    (htoken : hasValidToken env (cstr a.received) = true) :
    handleRequest env ds a.received = forwardMetric env ds (cstr a.received) := by
  have hpath := h.path_eq
  have hne : a.received ≠ [] := by
    obtain ⟨rest, hrest⟩ := h.received
    rw [hrest]
    simp [Backend.getRequest, str]
  have hoptions : startsWith (cstr a.received) (str "OPTIONS ") = false := by
    obtain ⟨rest, hrest⟩ := h.received
    rw [hrest, cstr_getRequest h.path h.query]
    rfl
  have hlogin : ch '/' :: p ≠ str "/_auth/login" := fun heq =>
    h.free (str "_auth/login") (by decide) (List.cons.inj heq).2
  have hverify : ch '/' :: p ≠ str "/_auth/verify" := fun heq =>
    h.free (str "_auth/verify") (by decide) (List.cons.inj heq).2
  have hbelow : startsWith (ch '/' :: p) (str "/_datasources/") = false := by
    have htext : str "/_datasources/" = ch '/' :: str "_datasources/" := rfl
    rw [htext, startsWith_cons_cons, h.freeBelow.1]
    simp
  have hdatasources : ¬(ch '/' :: p = str "/_datasources"
      ∨ startsWith (ch '/' :: p) (str "/_datasources/") = true) := by
    rintro (heq | hstart)
    · exact h.free (str "_datasources") (by decide) (List.cons.inj heq).2
    · rw [hbelow] at hstart
      exact absurd hstart (by decide)
  unfold handleRequest
  rw [if_neg hne]
  dsimp only
  rw [hpath]
  dsimp only
  rw [if_neg hlogin, if_neg hverify, if_neg (by rw [hoptions]; decide), htoken, if_neg (by simp)]
  unfold route
  rw [if_neg (by rw [h.freeBelow.2]; decide), if_neg hdatasources,
    if_neg (by rw [h.not_static]; decide)]

end

/-! ## The backend handles both alike -/

section

variable {p q : Bytes} (hp : p ≠ [] ∧ p.length ≤ 254 ∧ ∀ c ∈ str "&=?. \r\x00", c ∉ p)
  (hsizes : Backend.SizeAgrees q (str "width") 800 ∧ Backend.SizeAgrees q (str "height") 450)

/-- The arguments in HTTP mode. -/
def httpChart (p q : Bytes) : Backend.HandlerArgs := ⟨p, some q, Backend.httpPeriod q, 0, 0⟩

/-- The arguments in LSRP mode. -/
def lsrpChart (p q : Bytes) : Backend.HandlerArgs :=
  ⟨p, some (apiParams p q), Backend.lsrpPeriod (apiParams p q),
    Backend.lsrpSize (apiParams p q) (str "width"), Backend.lsrpSize (apiParams p q) (str "height")⟩

include hp

theorem lsrpArgs_chart : Backend.lsrpArgs (apiParams p q) = .ok (lsrpChart p q) := by
  have hne : apiParams p q ≠ [] := by
    unfold apiParams
    split <;> simp [str]
  unfold Backend.lsrpArgs
  rw [if_neg hne, Backend.handlerGetParam_endpoint (hp.2.2 _ (by decide))]
  rfl

include hsizes

theorem renderJob_chart (config : Backend.ServerConfig) :
    Backend.renderJob config (httpChart p q) = Backend.renderJob config (lsrpChart p q) := by
  have heq : ch '=' ∉ p := hp.2.2 _ (by decide)
  have hget : ∀ key ∈ [str "width", str "height", str "theme"],
      Backend.handlerGetParam (apiParams p q) key = Backend.handlerGetParam q key := by
    intro key hkey
    have hplain : ch '&' ∉ key ∧ key.length < 255 ∧ ¬ key <:+ str "endpoint" := by
      have hall : [str "width", str "height", str "theme"].all (fun key =>
          decide (ch '&' ∉ key ∧ key.length < 255 ∧ ¬ key <:+ str "endpoint")) = true := by decide
      exact of_decide_eq_true (List.all_eq_true.mp hall key hkey)
    exact Backend.handlerGetParam_apiParams heq hplain.1 hplain.2.1 hplain.2.2
  have hwidth := hget (str "width") (by decide)
  have hheight := hget (str "height") (by decide)
  have hperiod : Backend.lsrpPeriod (apiParams p q) = Backend.httpPeriod q := Backend.lsrpPeriod_eq heq
  have hw : Backend.svgWidth (httpChart p q) = Backend.svgWidth (lsrpChart p q) := by
    show Backend.boundSize 800 200 1600 (Backend.querySize (Backend.handlerGetParam q _) 0)
      = Backend.boundSize 800 200 1600 (Backend.querySize (Backend.handlerGetParam (apiParams p q) _)
        (Backend.lsrpSize (apiParams p q) _))
    unfold Backend.lsrpSize
    rw [hwidth]
    exact (Backend.querySize_eq_iff (by decide) (by decide) (by decide)).mpr hsizes.1
  have hh : Backend.svgHeight (httpChart p q) = Backend.svgHeight (lsrpChart p q) := by
    show Backend.boundSize 450 120 800 (Backend.querySize (Backend.handlerGetParam q _) 0)
      = Backend.boundSize 450 120 800 (Backend.querySize (Backend.handlerGetParam (apiParams p q) _)
        (Backend.lsrpSize (apiParams p q) _))
    unfold Backend.lsrpSize
    rw [hheight]
    exact (Backend.querySize_eq_iff (by decide) (by decide) (by decide)).mpr hsizes.2
  have ht : Backend.renderTheme config (httpChart p q) = Backend.renderTheme config (lsrpChart p q) := by
    have htheme : Backend.queryParam (lsrpChart p q).query (str "theme")
        = Backend.queryParam (httpChart p q).query (str "theme") := hget (str "theme") (by decide)
    unfold Backend.renderTheme
    rw [htheme]
  unfold Backend.renderJob
  rw [hw, hh, ht]
  exact congrArg (fun period => Backend.RenderJob.mk p period _ _ _) hperiod.symm

/-- One run of the handler for both. -/
theorem handlerProcess_chart (env : Backend.HandlerEnv) (cache : Backend.Cache) :
    Backend.handlerProcess env (lsrpChart p q) true cache
      = Backend.handlerProcess env (httpChart p q) true cache := by
  have hbody : Backend.handlerGetParam (apiParams p q) (str "body")
      = Backend.handlerGetParam q (str "body") :=
    Backend.handlerGetParam_apiParams (hp.2.2 _ (by decide)) (by decide) (by decide) (by decide)
  exact Backend.handlerProcess_congr (renderJob_chart hp hsizes env.config).symm rfl rfl hbody true cache

end

/-- What comes of a run of the handler, behind its stack. -/
theorem answered_eq {β : Type} (m : Backend.Duk (Backend.HandlerResult × Backend.Cache))
    (g : Backend.HandlerResult → β) :
    ((m >>= fun x => pure (g x.1, x.2) : Backend.Duk (β × Backend.Cache)) []).map Prod.fst
      = ((m []).map Prod.fst).map fun x => (g x.1, x.2) := by
  show ((m []).bind fun x => some ((g x.1.1, x.1.2), x.2)).map Prod.fst = _
  cases m [] with
  | none => rfl
  | some x => rfl

theorem renderResult_isJson (env : Backend.HandlerEnv) (job : Backend.RenderJob)
    (m : Backend.MetricConfig) (data : Option Backend.MetricData) :
    (Backend.renderResult env job m data).isJson = false := by
  unfold Backend.renderResult
  split
  · rfl
  · split <;> rfl

/-- The answers of an endpoint without a handler of its own are refusals and pictures. -/
theorem handlerRoute_metric {config : Backend.ServerConfig} {endpoint : Bytes}
    (hconfig : endpoint ≠ str "_config/metrics") (hplain : PlainLabel endpoint) (period : Int) :
    (∃ message, Backend.handlerRoute config endpoint period = .refused message)
      ∨ ∃ r, Backend.handlerRoute config endpoint period = .fetch r := by
  unfold Backend.handlerRoute
  rw [if_neg hconfig, if_neg hplain.1, if_neg hplain.2.1]
  split
  · exact Or.inl ⟨_, rfl⟩
  · split
    · split
      · exact Or.inl ⟨_, rfl⟩
      · exact Or.inr ⟨_, rfl⟩
    · exact Or.inr ⟨_, rfl⟩

/-- A chart or a listing is labelled by the name of its endpoint. -/
theorem handlerProcess_isJson {env : Backend.HandlerEnv} {args : Backend.HandlerArgs} {u : Bool}
    {cache : Backend.Cache} (hplain : PlainLabel args.endpoint)
    {x : (Backend.HandlerResult × Backend.Cache) × List Backend.DukVal}
    (h : Backend.handlerProcess env args u cache [] = some x) (hok : x.1.1.status = 0) :
    x.1.1.isJson = startsWith args.endpoint (str "_config/") := by
  have herror : ∀ message : Bytes, (Backend.errorResult message).status = 1 := fun _ => rfl
  unfold Backend.handlerProcess at h
  dsimp only at h
  by_cases hconfig : args.endpoint = str "_config/metrics"
  · have hroute : Backend.handlerRoute env.config (Backend.renderJob env.config args).endpoint
        (Backend.renderJob env.config args).period = .metricsConfig := if_pos hconfig
    rw [hroute] at h
    dsimp only at h
    rw [hconfig]
    cases hjson : env.metricsJson with
    | none =>
        rw [hjson] at h
        obtain rfl := Option.some.inj h
        rw [herror] at hok
        exact absurd hok (by decide)
    | some json =>
        rw [hjson] at h
        obtain rfl := Option.some.inj h
        rfl
  · have hname : startsWith args.endpoint (str "_config/") = false := by
      rw [Bool.eq_false_iff]
      exact fun hstart => hconfig (hplain.2.2 hstart)
    rw [hname]
    rcases handlerRoute_metric hconfig hplain args.period with ⟨message, hroute⟩ | ⟨r, hroute⟩
    · have hroute : Backend.handlerRoute env.config (Backend.renderJob env.config args).endpoint
          (Backend.renderJob env.config args).period = .refused message := hroute
      rw [hroute] at h
      obtain rfl := Option.some.inj h
      rfl
    · have hroute : Backend.handlerRoute env.config (Backend.renderJob env.config args).endpoint
          (Backend.renderJob env.config args).period = .fetch r := hroute
      rw [hroute] at h
      obtain rfl := Option.some.inj h
      exact renderResult_isJson ..

/-! ## One request, both ways -/

section

variable {a : Arrival} {p q : Bytes} (h : ChartRequest a p q)

include h

/-- Both answers come of one run of the handler. -/
theorem ChartRequest.served (env : Backend.HandlerEnv) (process : Option Backend.Cache) :
    ∃ handled : Option (Backend.HandlerResult × Backend.Cache),
      (Ask.mk env (apiParams p q)).serve process
          = handled.map (fun x => (⟨if x.1.status = 0 then 0 else 1, x.1.data⟩, x.2))
        ∧ httpAnswer env a.received process
          = handled.map (fun x => (some (Backend.httpReply x.1), x.2))
        ∧ ∀ x, handled = some x → PlainLabel p → x.1.status = 0 →
          x.1.isJson = startsWith p (str "_config/") := by
  cases process with
  | none => exact ⟨none, rfl, rfl, fun x hx => absurd hx (by simp)⟩
  | some cache =>
      obtain ⟨rest, hrest⟩ := h.received
      refine ⟨(Backend.handlerProcess env (httpChart p q) true cache []).map Prod.fst, ?_, ?_, ?_⟩
      · show (Backend.lsrpHandler env (apiParams p q) cache []).map Prod.fst = _
        unfold Backend.lsrpHandler
        rw [lsrpArgs_chart h.path]
        dsimp only
        rw [handlerProcess_chart h.path h.sizes]
        exact answered_eq _ fun r => Backend.LsrpReply.mk (if r.status = 0 then 0 else 1) r.data
      · show (Backend.httpServe env a.received cache []).map Prod.fst = _
        have haction : Backend.httpAction a.received = .process (httpChart p q) :=
          hrest ▸ httpAction_chart h.path h.query
        unfold Backend.httpServe
        rw [haction]
        exact answered_eq _ fun r => some (Backend.httpReply r)
      · intro x hx hplain hok
        obtain ⟨y, hy, rfl⟩ := Option.map_eq_some_iff.mp hx
        exact handlerProcess_isJson (show PlainLabel (httpChart p q).endpoint from hplain) hy hok

/-- The request is forwarded with its parameters. -/
theorem ChartRequest.outcome_eq (d : Deployment) :
    d.outcome a = forward (d.env a) d.datasources (cstr a.received) (apiParams p q)
      fun resp => if resp.status = 0 then .ok (getApiContentType p) resp.data else .error resp.data := by
  have htoken : hasValidToken (d.env a) (cstr a.received) = true := h.token
  have hparse : parseApiRequest (d.env a).maxParamsLen (cstr a.received) = some (apiParams p q) := by
    obtain ⟨rest, hrest⟩ := h.received
    rw [hrest]
    exact parseApiRequest_chart h.path h.query h.fits
  show handleRequest (d.env a) d.datasources a.received = _
  rw [h.forwarded htoken]
  unfold forwardMetric
  rw [hparse]
  dsimp only
  rw [paramsEndpoint_apiParams h.path]

/-- One backend is asked. -/
theorem ChartRequest.asks_eq {d : Deployment} {address : Address}
    (hbackend : targetBackend a.env.config d.datasources (cstr a.received) = .ok address) :
    d.asks a = [(address, ⟨a.world address, apiParams p q⟩)] := by
  have houtcome := h.outcome_eq d
  have hconfig : (d.env a).config = a.env.config := rfl
  unfold forward at houtcome
  rw [hconfig, hbackend] at houtcome
  obtain ⟨host, port⟩ := address
  have hask : a.ask (.lsrpSend host port (apiParams p q))
      = some ((host, port), ⟨a.world (host, port), apiParams p q⟩) :=
    if_pos (h.lsrp.reaches_short (host, port) _ h.fits)
  unfold Deployment.asks
  rw [houtcome]
  dsimp only
  split <;> exact List.filterMap_cons_some hask

/-- What the gate hears of the backend it asks. -/
theorem ChartRequest.answered_eq (d : Deployment) (host : Bytes) (port : Int) :
    (d.env a).lsrpClientSend host port (apiParams p q)
      = ((Ask.mk (a.world (host, port)) (apiParams p q)).serve (d.fleet (host, port))).map fun x =>
        ⟨x.1.status, x.1.data⟩ := by
  show a.lsrp.returns (host, port) _ ((d.answered a (host, port) _).map Prod.fst) = _
  unfold Deployment.answered
  rw [if_pos (h.lsrp.reaches_short _ _ h.fits)]
  cases (Ask.mk (a.world (host, port)) (apiParams p q)).serve (d.fleet (host, port)) with
  | none => exact h.lsrp.returns_none _ _
  | some x => exact h.lsrp.returns_short _ _ _ h.fits

end

/-- A backend that draws empty pictures of the metric `net`. -/
def sampleBackend : Backend.HandlerEnv where
  config := { Backend.sharedFile with }
  metricsJson := none
  grafana := { config := Backend.sharedFile, jsonDecode := fun _ => none, fetch := fun _ _ _ _ => none }
  grafana_config := rfl
  times := ⟨100, 100, 100, 100⟩
  backends := Backend.sampleBackends
  generateSvg := fun _ _ _ _ => some (str "<svg/>")

/-- Its chart of the last minute, 500 points wide. -/
def sampleChart : Arrival where
  env := sampleEnv
  world := fun _ => sampleBackend
  lsrp := .lossless
  received := Backend.getRequest (str "net") (str "period=60&width=500")
    (sampleAuthorization ++ str "\r\n")

/-- One datasource, and no request yet. -/
def sampleDeployment : Deployment where
  datasources := ⟨[⟨str "default", str "127.0.0.1", 8081⟩], str "default"⟩
  fleet := fun _ => some (Backend.rrdCacheInit {} 5)

end Svgd.Gate
