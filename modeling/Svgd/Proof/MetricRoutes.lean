import Svgd.Proof.EndpointTransit
import Svgd.Proof.DatasourceStore
import Svgd.Proof.StaticFiles

/-!
# The way of a metric request

A `GET` that is neither a file nor one of the gate's own routes goes to a backend, with its
path as the endpoint and its query behind it. Whether it is a file is guessed from a dot
behind the last slash, and a query is kept if it fits a buffer: a parameter with a dot is
looked for among the files, and a longer query is left out.
-/

namespace Svgd.Backend

open Lib

/-! ## The query -/

/-- What stands between the method and the version of a `GET`. -/
def requestTarget (request : Bytes) : Option Bytes :=
  if startsWith request (str "GET ") then
    (strstr (request.drop 4) (str " HTTP/")).map (upTo (request.drop 4))
  else none

/-- A `GET` of `/p?q`. Without a query, the question mark may be missing. -/
def Gets (request p q : Bytes) : Prop :=
  ch '?' ∉ p ∧ (requestTarget request = some (ch '/' :: (p ++ ch '?' :: q))
    ∨ (q = [] ∧ requestTarget request = some (ch '/' :: p)))

/-- `endpoint=p&q`, without the `&` if there is no query. -/
def endpointParams (p q : Bytes) : Bytes :=
  if q = [] then str "endpoint=" ++ p else str "endpoint=" ++ p ++ str "&" ++ q

theorem apiParams_eq (p q : Bytes) : Gate.apiParams p q = endpointParams p q := by
  unfold Gate.apiParams endpointParams
  by_cases hq : q = []
  · rw [if_pos hq, if_neg (by simp [hq])]
  · rw [if_neg hq, if_pos (List.length_pos_iff.mpr hq)]

/-- The two readers take the target apart at its question mark. -/
theorem gets_parts {request p q : Bytes} (h : Gets request p q) :
    Gate.extractPath request = some (ch '/' :: p) ∧ requestQuery request = q := by
  obtain ⟨hp, htarget⟩ := h
  obtain ⟨t, ht⟩ : ∃ t, requestTarget request = some t := by
    rcases htarget with h | ⟨-, h⟩ <;> exact ⟨_, h⟩
  unfold requestTarget at ht htarget
  split at ht
  case isFalse => exact absurd ht (by simp)
  rename_i hget
  rw [if_pos hget] at htarget
  obtain ⟨stop, hstop, -⟩ := Option.map_eq_some_iff.mp ht
  obtain ⟨u, hu, -⟩ := strstr_some hstop
  rw [hstop, Option.map_some, hu, upTo_append, Option.some.injEq, Option.some.injEq] at htarget
  rw [hu] at hstop
  have hfront : ch '?' ∉ ch '/' :: p := by
    rw [List.mem_cons, not_or]
    exact ⟨by decide, hp⟩
  unfold Gate.extractPath Gate.targetStart requestQuery targetQuery
  rw [if_pos hget, hu]
  dsimp only
  rw [hstop]
  dsimp only
  rcases htarget with rfl | ⟨rfl, rfl⟩
  · have hquery : Gate.queryStart (ch '/' :: (p ++ ch '?' :: q) ++ stop) stop
        = some (ch '?' :: (q ++ stop)) := by
      have htext : ch '/' :: (p ++ ch '?' :: q) ++ stop
          = (ch '/' :: p) ++ ch '?' :: (q ++ stop) := by simp
      unfold Gate.queryStart
      rw [htext, strchr_append hfront]
      dsimp only
      rw [if_pos (by simp only [List.length_cons, List.length_append]; omega)]
    have htext : ch '/' :: (p ++ ch '?' :: q) ++ stop
        = (ch '/' :: p) ++ ch '?' :: (q ++ stop) := by simp
    rw [hquery, Option.getD_some]
    dsimp only
    rw [htext, upTo_append, List.drop_succ_cons, List.drop_zero, upTo_append]
    exact ⟨rfl, rfl⟩
  · rw [Gate.queryStart_none hfront, Option.getD_none, upTo_append]
    exact ⟨rfl, rfl⟩

/--
**When a query is forwarded.**

Of the requests the gate accepts, those with a query of at most 255 bytes are passed on whole;
a longer query is left out.
-/
theorem query_forwarded_iff {maxParamsLen : Nat} {request params p q : Bytes}
    (hget : Gets request p q) (hparams : Gate.parseApiRequest maxParamsLen request = some params) :
    params = endpointParams p q ↔ q.length ≤ 255 := by
  obtain ⟨hpath, hquery⟩ := gets_parts hget
  have hsent := params_of_forwarded hparams hpath
  rw [hquery, apiParams_eq, Gate.apiBufferSize] at hsent
  rw [hsent]
  constructor
  · intro h
    by_contra hlong
    rw [if_neg (by omega)] at h
    unfold endpointParams at h
    rw [if_pos rfl, if_neg (List.ne_nil_of_length_pos (by omega))] at h
    have hlen := congrArg List.length h
    simp only [List.length_append] at hlen
    omega
  · intro h
    rw [if_pos (by omega)]

/-- A chart of one day keeps its period. -/
theorem query_forwarded_day :
    str "endpoint=cpu&period=86400" = endpointParams (str "cpu") (str "period=86400") := by
  have hget : Gets (str "GET /cpu?period=86400 HTTP/1.1\r\n\r\n") (str "cpu") (str "period=86400") :=
    ⟨by decide, Or.inl (by decide +kernel)⟩
  have hparams : Gate.parseApiRequest 4096 (str "GET /cpu?period=86400 HTTP/1.1\r\n\r\n")
      = some (str "endpoint=cpu&period=86400") := by decide +kernel
  exact (query_forwarded_iff hget hparams).mpr (by decide)

/-- A query of 257 bytes is left out, and the chart shows another period. -/
theorem long_query_dropped :
    let q := str "period=86400&pad=" ++ List.replicate 240 (ch 'x')
    let request := str "GET /cpu?" ++ q ++ str " HTTP/1.1\r\n\r\n"
    Gets request (str "cpu") q ∧ Gate.parseApiRequest 4096 request = some (str "endpoint=cpu")
      ∧ str "endpoint=cpu" ≠ endpointParams (str "cpu") q := by
  refine ⟨⟨by decide, Or.inl ?_⟩, ?_, ?_⟩
  · decide +kernel
  · decide +kernel
  · decide +kernel

/-! ## The path -/

/-- The path `/e/p`. -/
def metricPath (e p : Bytes) : Bytes := ch '/' :: (e ++ ch '/' :: p)

/-- `GET /e/p`, up to the version, and what follows. -/
def metricRequest (e p rest : Bytes) : Bytes :=
  str "GET " ++ (metricPath e p ++ (str " HTTP/" ++ rest))

/-- An endpoint of a metric and a parameter of it, as a panel asks for them. -/
structure PanelPath (e p : Bytes) : Prop where
  endpoint_ne : e ≠ []
  endpoint_free : e.head? ≠ some (ch '_') ∧ startsWith e (str "grafana") = false
  endpoint_plain : ch '?' ∉ e ∧ ch ' ' ∉ e ∧ (0 : UInt8) ∉ e
  param_plain : ch '/' ∉ p ∧ ch '?' ∉ p ∧ ch ' ' ∉ p ∧ (0 : UInt8) ∉ p
  short : (e ++ ch '/' :: p).length ≤ 255

/-- The request was sent on, with the endpoint that the backend reads, and no file was opened. -/
structure Routed (o : Gate.Outcome) (endpoint : Bytes) : Prop where
  sent : ∃ host port params, Gate.Effect.lsrpSend host port params ∈ o.effects
    ∧ handlerGetParam params (str "endpoint") = some endpoint
  noFile : ∀ file, Gate.Effect.openFile file ∉ o.effects

/-- What lets `GET /e/p` pass. -/
structure Passes (env : Gate.Env) (ds : Gate.DatasourceList) (e p rest : Bytes) : Prop where
  /-- A dot in the parameter makes the path a file. -/
  noDot : ch '.' ∉ p
  /-- An `&` ends the endpoint. -/
  noAmp : ch '&' ∉ e ∧ ch '&' ∉ p
  /-- The parameters fit an LSRP request. -/
  fits : (str "endpoint=" ++ (e ++ ch '/' :: p)).length < env.maxParamsLen
  /-- A datasource named behind a question mark, even one in a header, is stored. -/
  known : ∀ name, Gate.requestedDatasource (cstr (metricRequest e p rest)) = some name →
    (Gate.findDatasource ds name).isSome = true

section

variable {e p : Bytes}

/-- The dot of a file name stands in the parameter. -/
theorem hasFileExtension_metricPath (hp : ch '/' ∉ p) :
    Gate.hasFileExtension (metricPath e p) = true ↔ ch '.' ∈ p := by
  have hslash : strrchr (metricPath e p) (ch '/') = some (ch '/' :: e).length := by
    have htext : metricPath e p = (ch '/' :: e) ++ ch '/' :: p := by simp [metricPath]
    rw [htext, strrchr_append hp]
  unfold Gate.hasFileExtension
  rw [hslash]
  constructor
  · intro h
    by_contra hdot
    have htext : metricPath e p = (ch '/' :: e) ++ ch '/' :: p := by simp [metricPath]
    have htail : ch '.' ∉ ch '/' :: p := by
      rw [List.mem_cons, not_or]
      exact ⟨by decide, hdot⟩
    rw [htext, strrchr_skip htail] at h
    cases hlast : strrchr (ch '/' :: e) (ch '.') with
    | none => rw [hlast] at h; exact absurd h (by simp)
    | some i =>
        rw [hlast] at h
        have hlt := strrchr_lt hlast
        dsimp only at h
        have := of_decide_eq_true h
        omega
  · intro hdot
    -- the last dot of the parameter
    obtain ⟨a, b, hab, hb⟩ : ∃ a b, p = a ++ ch '.' :: b ∧ ch '.' ∉ b := by
      obtain ⟨u, v, huv, hu⟩ := List.eq_append_cons_of_mem (List.mem_reverse.mpr hdot)
      refine ⟨v.reverse, u.reverse, ?_, by simpa using hu⟩
      rw [← List.reverse_reverse p, huv]
      simp
    have htext : metricPath e p = (ch '/' :: (e ++ ch '/' :: a)) ++ ch '.' :: b := by
      simp [metricPath, hab]
    rw [htext, strrchr_append hb]
    dsimp only
    rw [decide_eq_true_eq]
    simp only [List.length_cons, List.length_append]
    omega

theorem mem_metricPath {c : UInt8} (hc : c ≠ ch '/') : c ∈ metricPath e p ↔ c ∈ e ∨ c ∈ p := by
  simp [metricPath, hc]

variable (h : PanelPath e p)

include h

theorem PanelPath.not_gate_path {s : Bytes} (hs : s.head? = some (ch '_')) :
    startsWith (metricPath e p) (ch '/' :: s) = false := by
  rw [Bool.eq_false_iff]
  intro hstart
  obtain ⟨t, ht⟩ := startsWith_iff.mp hstart
  obtain ⟨c, e', he⟩ := List.exists_cons_of_ne_nil h.endpoint_ne
  obtain ⟨d, s', hs'⟩ : ∃ d s', s = d :: s' := by
    cases s with
    | nil => exact absurd hs (by simp)
    | cons d s' => exact ⟨d, s', rfl⟩
  rw [metricPath, he, hs', List.cons_append, List.cons_append, List.cons.injEq, List.cons_append,
    List.cons.injEq] at ht
  apply h.endpoint_free.1
  rw [he, List.head?_cons, ht.2.1, ← hs, hs', List.head?_cons]

theorem PanelPath.not_grafana : Gate.isGrafanaPath (metricPath e p) = false := by
  have hfalse : startsWith (metricPath e p) (str "/grafana") = false := by
    rw [Bool.eq_false_iff]
    intro hstart
    obtain ⟨t, ht⟩ := startsWith_iff.mp hstart
    have htext : str "/grafana" = ch '/' :: str "grafana" := rfl
    rw [metricPath, htext, List.cons_append, List.cons.injEq] at ht
    rcases List.append_eq_append_iff.mp ht.2 with ⟨a, ha, hb⟩ | ⟨a, ha, hb⟩
    · -- the endpoint is a piece of the word, or the word
      cases a with
      | nil =>
          rw [List.append_nil] at ha
          have := h.endpoint_free.2
          rw [← ha, startsWith_iff.mpr ⟨[], by simp⟩] at this
          exact absurd this (by simp)
      | cons c a =>
          rw [List.cons_append, List.cons.injEq] at hb
          have hmem : ch '/' ∈ str "grafana" := by rw [ha, hb.1]; simp
          exact absurd hmem (by decide)
    · have := h.endpoint_free.2
      rw [ha, startsWith_append] at this
      exact absurd this (by simp)
  unfold Gate.isGrafanaPath
  rw [hfalse, Bool.false_and]

theorem PanelPath.plain : ch ' ' ∉ metricPath e p ∧ ch '?' ∉ metricPath e p
    ∧ (0 : UInt8) ∉ metricPath e p := by
  obtain ⟨hmark, hspace, hnul⟩ := h.endpoint_plain
  obtain ⟨-, hmark', hspace', hnul'⟩ := h.param_plain
  rw [mem_metricPath (by decide), mem_metricPath (by decide), mem_metricPath (by decide)]
  exact ⟨not_or.mpr ⟨hspace, hspace'⟩, not_or.mpr ⟨hmark, hmark'⟩, not_or.mpr ⟨hnul, hnul'⟩⟩

theorem PanelPath.cstr_request (rest : Bytes) :
    cstr (metricRequest e p rest) = metricRequest e p (cstr rest) := by
  unfold metricRequest
  rw [cstr_append (by decide), cstr_append h.plain.2.2, cstr_append (by decide)]

theorem PanelPath.static_iff : Gate.isStaticRequest (metricPath e p) = true ↔ ch '.' ∈ p := by
  have hdatasources : ¬(metricPath e p = str "/_datasources"
      ∨ startsWith (metricPath e p) (str "/_datasources/") = true
      ∨ startsWith (metricPath e p) (str "/_config/") = true) := by
    have h1 := h.not_gate_path (s := str "_datasources") rfl
    have h2 := h.not_gate_path (s := str "_datasources/") rfl
    have h3 := h.not_gate_path (s := str "_config/") rfl
    rintro (heq | hstart | hstart)
    · rw [heq] at h1
      exact absurd h1 (by decide)
    · exact absurd (h2.symm.trans hstart) (by decide)
    · exact absurd (h3.symm.trans hstart) (by decide)
  have hroot : ¬(metricPath e p = str "/" ∨ metricPath e p = str "/index.html") := by
    -- both have one slash only
    have hcount : 2 ≤ (metricPath e p).count (ch '/') := by
      simp only [metricPath, List.count_cons_self, List.count_append]
      omega
    rintro (heq | heq)
    · rw [heq] at hcount
      exact absurd hcount (by decide)
    · rw [heq] at hcount
      exact absurd hcount (by decide)
  unfold Gate.isStaticRequest
  rw [if_neg hdatasources, if_neg hroot]
  exact hasFileExtension_metricPath h.param_plain.1

/-- The parameters of the request, if they fit. -/
theorem PanelPath.parse (maxParamsLen : Nat) (rest : Bytes) :
    Gate.parseApiRequest maxParamsLen (metricRequest e p rest)
      = if (str "endpoint=" ++ (e ++ ch '/' :: p)).length < maxParamsLen
          then some (str "endpoint=" ++ (e ++ ch '/' :: p)) else none := by
  obtain ⟨hspace, hmark, -⟩ := h.plain
  have hdrop : (metricRequest e p rest).drop 4 = metricPath e p ++ (str " HTTP/" ++ rest) := rfl
  have hget : startsWith (metricRequest e p rest) (str "GET ") = true := startsWith_append _ _
  have hnone : Gate.queryStart (metricPath e p ++ (str " HTTP/" ++ rest)) (str " HTTP/" ++ rest)
      = none := Gate.queryStart_none hmark
  have hquery : Gate.apiQuery (metricPath e p ++ (str " HTTP/" ++ rest)) (str " HTTP/" ++ rest)
      = [] := by
    unfold Gate.apiQuery
    rw [hnone]
  have hlen : (metricPath e p).length - 1 = (e ++ ch '/' :: p).length := by
    rw [metricPath, List.length_cons, Nat.add_sub_cancel]
  have hhead : (metricPath e p ++ (str " HTTP/" ++ rest)).head? = some (ch '/') := rfl
  have htake : ((metricPath e p ++ (str " HTTP/" ++ rest)).drop 1).take (e ++ ch '/' :: p).length
      = e ++ ch '/' :: p := by
    rw [metricPath, List.cons_append, List.drop_succ_cons, List.drop_zero, List.take_left]
  have hshort := h.short
  have hpos : 0 < (e ++ ch '/' :: p).length := by
    rw [List.length_append, List.length_cons]
    omega
  unfold Gate.parseApiRequest
  rw [if_pos hget, hdrop]
  dsimp only
  rw [Gate.strstr_version hspace]
  dsimp only
  rw [hnone, Option.getD_none, upTo_append, hlen, hhead, htake, hquery, Gate.apiBufferSize,
    if_neg (by simp only [ne_eq, not_true_eq_false, or_false]; omega), if_neg (by omega), apiParams_eq,
    endpointParams, if_pos rfl]
  split
  · rw [if_neg (by omega)]
  · rw [if_pos (by omega)]

theorem PanelPath.path (rest : Bytes) :
    Gate.extractPath (cstr (metricRequest e p rest)) = some (metricPath e p) := by
  rw [h.cstr_request]
  exact Gate.extractPath_of_target h.plain.1 h.plain.2.1 rfl

/-- With a token, the request is routed by its path. -/
theorem PanelPath.handle {env : Gate.Env} {ds : Gate.DatasourceList} {rest : Bytes}
    (htoken : Gate.hasValidToken env (cstr (metricRequest e p rest)) = true) :
    Gate.handleRequest env ds (metricRequest e p rest)
      = if ch '.' ∈ p then Gate.serveStaticFile env ds (metricPath e p)
        else Gate.forwardMetric env ds (cstr (metricRequest e p rest)) := by
  have hne : metricRequest e p rest ≠ [] := by simp [metricRequest, str]
  have hlogin : metricPath e p ≠ str "/_auth/login" := by
    intro heq
    have := h.not_gate_path (s := str "_auth/login") rfl
    rw [heq] at this
    exact absurd this (by decide)
  have hverify : metricPath e p ≠ str "/_auth/verify" := by
    intro heq
    have := h.not_gate_path (s := str "_auth/verify") rfl
    rw [heq] at this
    exact absurd this (by decide)
  have hdatasources : ¬(metricPath e p = str "/_datasources"
      ∨ startsWith (metricPath e p) (str "/_datasources/") = true) := by
    have h1 := h.not_gate_path (s := str "_datasources") rfl
    have h2 := h.not_gate_path (s := str "_datasources/") rfl
    rintro (heq | hstart)
    · rw [heq] at h1
      exact absurd h1 (by decide)
    · exact absurd (h2.symm.trans hstart) (by decide)
  have hoptions : startsWith (cstr (metricRequest e p rest)) (str "OPTIONS ") = false := by
    rw [h.cstr_request]
    rfl
  unfold Gate.handleRequest
  rw [if_neg hne]
  dsimp only
  rw [h.path]
  dsimp only
  rw [if_neg hlogin, if_neg hverify, if_neg (by rw [hoptions]; decide), htoken,
    if_neg (by simp)]
  unfold Gate.route
  rw [if_neg (by rw [h.not_grafana]; decide), if_neg hdatasources]
  by_cases hdot : ch '.' ∈ p
  · rw [if_pos (h.static_iff.mpr hdot), if_pos hdot]
  · rw [if_neg (fun hs => hdot (h.static_iff.mp hs)), if_neg hdot]

end

/-- A backend is chosen unless a named datasource is not stored. -/
theorem targetBackend_ok_iff {config : Gate.Config} {ds : Gate.DatasourceList} {buffer : Bytes} :
    (∃ b, Gate.targetBackend config ds buffer = .ok b)
      ↔ ∀ name, Gate.requestedDatasource buffer = some name →
        (Gate.findDatasource ds name).isSome = true := by
  rw [Gate.targetBackend_eq]
  cases Gate.requestedDatasource buffer with
  | none =>
      refine ⟨fun _ name hname => absurd hname (by simp), fun _ => ?_⟩
      dsimp only
      split
      · split <;> exact ⟨_, rfl⟩
      · exact ⟨_, rfl⟩
  | some name =>
      dsimp only
      cases hfind : Gate.findDatasource ds name with
      | none =>
          refine ⟨fun ⟨b, hb⟩ => absurd hb (by simp), fun h => ?_⟩
          have := h name rfl
          rw [hfind] at this
          exact absurd this (by simp)
      | some d =>
          refine ⟨fun _ name' hname => ?_, fun _ => ⟨_, rfl⟩⟩
          rw [← Option.some.inj hname, hfind]
          rfl

/-- Parameters are sent on exactly if a backend is chosen. -/
theorem lsrpSend_forward_iff {env : Gate.Env} {ds : Gate.DatasourceList} {buffer params sent : Bytes}
    {relay : Gate.LsrpResponse → Gate.Response} :
    (∃ host port, Gate.Effect.lsrpSend host port sent ∈ (Gate.forward env ds buffer params relay).effects)
      ↔ sent = params ∧ ∃ b, Gate.targetBackend env.config ds buffer = .ok b := by
  constructor
  · rintro ⟨host, port, hm⟩
    rcases Gate.forward_effects hm with ⟨host', port', he, hb⟩ | ⟨r, he⟩
    · exact ⟨(Gate.Effect.lsrpSend.inj he).2.2, _, hb⟩
    · exact absurd he (by simp)
  · rintro ⟨rfl, ⟨host, port⟩, hb⟩
    refine ⟨host, port, ?_⟩
    unfold Gate.forward
    rw [hb]
    dsimp only
    split <;> simp

/--
**When a metric request reaches a backend.**

`GET /e/p` with a valid token is sent on with the endpoint `e/p`, and no file is looked for,
exactly if nothing in the parameter, the headers or the sizes turns it away.
-/
theorem metric_routed_iff {env : Gate.Env} {ds : Gate.DatasourceList} {e p rest : Bytes}
    (h : PanelPath e p)
    (htoken : Gate.hasValidToken env (cstr (metricRequest e p rest)) = true) :
    Routed (Gate.handleRequest env ds (metricRequest e p rest)) (e ++ ch '/' :: p)
      ↔ Passes env ds e p rest := by
  have hparams : str "endpoint=" ++ (e ++ ch '/' :: p) = Gate.apiParams (e ++ ch '/' :: p) [] := by
    rw [apiParams_eq, endpointParams, if_pos rfl]
  have hforward : Gate.forwardMetric env ds (cstr (metricRequest e p rest))
      = if (str "endpoint=" ++ (e ++ ch '/' :: p)).length < env.maxParamsLen then
          Gate.forward env ds (cstr (metricRequest e p rest)) (str "endpoint=" ++ (e ++ ch '/' :: p))
            fun resp =>
              if resp.status = 0 then .ok (Gate.getApiContentType
                (Gate.paramsEndpoint (str "endpoint=" ++ (e ++ ch '/' :: p)))) resp.data
              else .error resp.data
        else Gate.answer ds (.error (str "Invalid or missing query parameters")) := by
    unfold Gate.forwardMetric
    rw [h.cstr_request, h.parse]
    by_cases hfits : (str "endpoint=" ++ (e ++ ch '/' :: p)).length < env.maxParamsLen
    · rw [if_pos hfits, if_pos hfits]
    · rw [if_neg hfits, if_neg hfits]
  constructor
  · intro hrouted
    obtain ⟨host, port, params, hsent, hread⟩ := hrouted.sent
    have hnofile := hrouted.noFile
    rw [h.handle htoken] at hsent hnofile
    by_cases hdot : ch '.' ∈ p
    · rw [if_pos hdot] at hnofile
      exact absurd (Gate.mem_serveStaticFile_openFile.mpr rfl) (hnofile _)
    · rw [if_neg hdot, hforward] at hsent
      split at hsent
      · rename_i hfits
        obtain ⟨hsame, hbackend⟩ := lsrpSend_forward_iff.mp ⟨host, port, hsent⟩
        rw [hsame, hparams, handlerGetParam_endpoint_iff] at hread
        simp only [List.mem_append, List.mem_cons, not_or] at hread
        exact ⟨hdot, ⟨hread.1, hread.2.2⟩, hfits, targetBackend_ok_iff.mp hbackend⟩
      · exact absurd hsent (by simp [Gate.answer])
  · intro hpass
    have hamp : ch '&' ∉ e ++ ch '/' :: p := by
      simp only [List.mem_append, List.mem_cons, not_or]
      exact ⟨hpass.noAmp.1, by decide, hpass.noAmp.2⟩
    refine ⟨?_, ?_⟩
    · obtain ⟨host, port, hsent⟩ :=
        lsrpSend_forward_iff.mpr ⟨rfl, targetBackend_ok_iff.mpr hpass.known⟩
      refine ⟨host, port, str "endpoint=" ++ (e ++ ch '/' :: p), ?_, ?_⟩
      · rw [h.handle htoken, if_neg hpass.noDot, hforward, if_pos hpass.fits]
        exact hsent
      · rw [hparams]
        exact handlerGetParam_endpoint_iff.mpr hamp
    · intro file hfile
      obtain ⟨path, hpath, hstatic, -⟩ := Gate.handleRequest_openFile hfile
      rw [h.path, Option.some.injEq] at hpath
      rw [← hpath, h.static_iff] at hstatic
      exact hpass.noDot hstatic

/-- The request of a panel, with the token of the sample. -/
def sampleRest : Bytes := str "1.1\r\n" ++ Gate.sampleAuthorization ++ str "\r\n"

theorem metric_routed_eth0 :
    Routed (Gate.handleRequest Gate.sampleEnv {}
      (metricRequest (str "network") (str "eth0") sampleRest)) (str "network/eth0") := by
  have hpath : PanelPath (str "network") (str "eth0") :=
    ⟨by decide, by decide, by decide, by decide, by decide⟩
  have htoken : Gate.hasValidToken Gate.sampleEnv
      (cstr (metricRequest (str "network") (str "eth0") sampleRest)) = true := by decide +kernel
  have hnone : Gate.requestedDatasource
      (cstr (metricRequest (str "network") (str "eth0") sampleRest)) = none := by decide +kernel
  refine (metric_routed_iff hpath htoken).mpr ⟨by decide, by decide, by decide, ?_⟩
  intro name hname
  rw [hnone] at hname
  exact absurd hname (by simp)

/-- A VLAN interface is looked for among the files. -/
theorem dotted_param_not_routed :
    let received := metricRequest (str "network") (str "eth0.100") sampleRest
    PanelPath (str "network") (str "eth0.100")
      ∧ Gate.hasValidToken Gate.sampleEnv (cstr received) = true
      ∧ (Gate.handleRequest Gate.sampleEnv {} received).effects
        = [.openFile (str "./gate/static/network/eth0.100"), .respond .notFound]
      ∧ ¬Routed (Gate.handleRequest Gate.sampleEnv {} received) (str "network/eth0.100") := by
  intro received
  have heffects : (Gate.handleRequest Gate.sampleEnv {} received).effects
      = [.openFile (str "./gate/static/network/eth0.100"), .respond .notFound] := by decide +kernel
  refine ⟨⟨by decide, by decide, by decide, by decide, by decide⟩, by decide +kernel, heffects, ?_⟩
  intro hrouted
  exact hrouted.noFile (str "./gate/static/network/eth0.100") (by rw [heffects]; simp)

end Svgd.Backend
