import Svgd.Proof.AuthGate
import Svgd.Backend.Params

/-!
# A Grafana body on its way to the backend

The gate escapes four characters and puts the body behind `body=`; the backend
finds the parameter by searching for that text and undoes the escapes. The round
trip rests on two facts about the encoder: its output holds neither `&` nor `=`, so
no text in the body can end the value or look like another parameter; and every
`%` of its output starts a complete escape, so nothing at the end of the body is
taken for one.
-/

namespace Svgd

open Lib Gate Backend

theorem urlDecode_urlEncode (s : Bytes) : urlDecode (urlEncode s) = s := by
  induction s with
  | nil => rfl
  | cons c s ih =>
      unfold urlEncode
      split
      · rename_i he
        unfold isEscaped at he
        simp only [Bool.or_eq_true, beq_iff_eq] at he
        rcases he with ((rfl | rfl) | rfl) | rfl
        all_goals
          rw [urlDecode_escape (by decide) (by decide), ih]
          rfl
      · rename_i he
        unfold isEscaped at he
        simp only [Bool.or_eq_true, beq_iff_eq, not_or] at he
        rw [urlDecode_cons he.2 he.1.2, ih]

/-- A separator is neither a percent sign nor a hex digit. -/
theorem hexDigitUpper_ne {c : UInt8} (hc : c = ch '&' ∨ c = ch '=') {d : Nat} (hd : d < 16) :
    c ≠ ch '%' ∧ c ≠ hexDigitUpper d := by
  have hdigits : ∀ d < 16, hexDigitUpper d ≠ ch '&' ∧ hexDigitUpper d ≠ ch '=' := by decide
  rcases hc with rfl | rfl
  · exact ⟨by decide, (hdigits d hd).1.symm⟩
  · exact ⟨by decide, (hdigits d hd).2.symm⟩

/-- The encoder leaves no separator in its output. -/
theorem not_mem_urlEncode {c : UInt8} (hc : c = ch '&' ∨ c = ch '=') (s : Bytes) :
    c ∉ urlEncode s := by
  induction s with
  | nil => simp [urlEncode]
  | cons b s ih =>
      -- an escaped byte becomes a percent sign and two digits, any other one is not escaped
      have hlt := b.toNat_lt
      obtain ⟨hpercent, hhigh⟩ := hexDigitUpper_ne hc (d := b.toNat / 16) (by omega)
      obtain ⟨_, hlow⟩ := hexDigitUpper_ne hc (d := b.toNat % 16) (by omega)
      unfold urlEncode
      split
      · simp only [List.mem_cons, not_or]
        exact ⟨hpercent, hhigh, hlow, ih⟩
      · rename_i he
        unfold isEscaped at he
        simp only [Bool.or_eq_true, beq_iff_eq, not_or] at he
        intro hm
        rcases List.mem_cons.mp hm with h | h
        · rcases hc with rfl | rfl
          · exact he.1.1.1 h.symm
          · exact he.1.1.2 h.symm
        · exact ih h

/-! ## What the backend reads -/

/-- What the backend has to find in the parameters for the body to have survived. -/
structure BodySurvives (body params : Bytes) : Prop where
  body : (handlerGetParam params (str "body")).map urlDecode = some body
  endpoint : handlerGetParam params (str "endpoint") = some (str "_grafana/query")
  period : handlerGetParam params (str "period") = none
  width : handlerGetParam params (str "width") = none
  height : handlerGetParam params (str "height") = none
  theme : handlerGetParam params (str "theme") = none

/-- The search for `key=` passes over everything in front of the body. -/
theorem handlerGetParam_none {key body : Bytes}
    (hkey : snprintf 256 (key ++ str "=") = key ++ str "=")
    (hskip : strstr (grafanaQueryParams body) (key ++ str "=")
      = strstr (urlEncode body) (key ++ str "=")) :
    handlerGetParam (grafanaQueryParams body) key = none := by
  unfold handlerGetParam
  rw [hkey]
  dsimp only
  rw [hskip, strstr_none_of_not_mem (c := ch '=') (by simp [str])
    (not_mem_urlEncode (Or.inr rfl) body)]

theorem bodySurvives (body : Bytes) : BodySurvives body (grafanaQueryParams body) where
  body := by
    have hpos : strstr (grafanaQueryParams body) (str "body=")
        = some (str "body=" ++ urlEncode body) := rfl
    have hval : handlerGetParam (grafanaQueryParams body) (str "body")
        = some (urlEncode body) := by
      unfold handlerGetParam
      dsimp only
      rw [show snprintf 256 (str "body" ++ str "=") = str "body=" from rfl, hpos]
      dsimp only
      rw [List.drop_left' rfl, strchr_eq_none.mpr (not_mem_urlEncode (Or.inl rfl) body)]
      rfl
    rw [hval, Option.map_some, urlDecode_urlEncode]
  endpoint := by
    have hpos : strstr (grafanaQueryParams body) (str "endpoint=")
        = some (str "endpoint=" ++ (str "_grafana/query" ++ ch '&' :: (str "body=" ++ urlEncode body))) :=
      rfl
    unfold handlerGetParam
    dsimp only
    rw [show snprintf 256 (str "endpoint" ++ str "=") = str "endpoint=" from rfl, hpos]
    dsimp only
    rw [List.drop_left' rfl, strchr_append (by decide), untilOr, upTo_append]
  period := handlerGetParam_none rfl rfl
  width := handlerGetParam_none rfl rfl
  height := handlerGetParam_none rfl rfl
  theme := handlerGetParam_none rfl rfl

/-! ## What the gate sends -/

/-- On `POST /grafana/query` the gate is in the query branch. -/
theorem handleRequest_grafana_query {env : Env} {ds : DatasourceList} {received body : Bytes}
    (hpath : extractPath (cstr received) = some (str "/grafana/query"))
    (hpost : startsWith (cstr received) (str "POST ") = true)
    (hbody : extractBody (cstr received) = some body) :
    handleRequest env ds received =
      if hasValidToken env (cstr received) = false then
        answer ds (.unauthorized (str "Missing or invalid token"))
      else if env.maxParamsLen ≤ (grafanaQueryParams body).length then
        answer ds (.json 413 (str "\x7b\"error\":\"Request body too large\"\x7d"))
      else grafanaForward env ds (cstr received) (grafanaQueryParams body) := by
  obtain ⟨t, ht⟩ := startsWith_iff.mp hpost
  have hopt : startsWith (cstr received) (str "OPTIONS ") = false := by rw [ht]; rfl
  have hget : startsWith (cstr received) (str "GET ") = false := by rw [ht]; rfl
  have hne : received ≠ [] := by
    rintro rfl
    exact absurd hpath (by decide)
  have hlogin : str "/grafana/query" ≠ str "/_auth/login" := by decide
  have hverify : str "/grafana/query" ≠ str "/_auth/verify" := by decide
  have hreq : requiresAuth (str "/grafana/query") = true := by decide
  have hgraf : isGrafanaPath (str "/grafana/query") = true := by decide
  have hsub : grafanaSub (str "/grafana/query") = str "query" := by decide
  have hsearch : str "query" ≠ str "search" := by decide
  unfold handleRequest route handleGrafana
  simp only [hne, hpath, hlogin, hverify, hopt, hreq, hgraf, hsub, hsearch, hget, hpost, hbody,
    if_false, if_true, Bool.false_eq_true, Bool.true_and, Bool.not_eq_true',
    Bool.true_eq_false]

/--
**Grafana bodies survive the hop.**

For every body, every parameters text the gate sends for `POST /grafana/query` gives
the body back to the backend byte for byte, names the right endpoint and sets none
of the other parameters. An authorised request with a resolvable backend is either
answered 413 or sent.
-/
theorem grafana_body_survives (env : Env) (ds : DatasourceList) (received body : Bytes)
    (hpath : extractPath (cstr received) = some (str "/grafana/query"))
    (hpost : startsWith (cstr received) (str "POST ") = true)
    (hbody : extractBody (cstr received) = some body) :
    (∀ host port params,
      Effect.lsrpSend host port params ∈ (handleRequest env ds received).effects →
      BodySurvives body params)
    ∧ (hasValidToken env (cstr received) = true →
        ∀ host port, targetBackend env.config ds (cstr received) = .ok (host, port) →
        Effect.respond (.json 413 (str "\x7b\"error\":\"Request body too large\"\x7d"))
            ∈ (handleRequest env ds received).effects
          ∨ ∃ params, Effect.lsrpSend host port params ∈ (handleRequest env ds received).effects) := by
  rw [handleRequest_grafana_query hpath hpost hbody]
  constructor
  · intro host port params h
    split at h
    · simp [answer] at h
    split at h
    · simp [answer] at h
    rcases forward_effects h with ⟨_, _, he, _⟩ | ⟨_, he⟩
    · rw [(Effect.lsrpSend.inj he).2.2]
      exact bodySurvives body
    · exact absurd he (by simp)
  · intro htoken host port hback
    rw [if_neg (by simp [htoken])]
    split
    · exact Or.inl (by simp [answer])
    · refine Or.inr ⟨grafanaQueryParams body, ?_⟩
      unfold grafanaForward forward
      rw [hback]
      dsimp only
      split <;> simp

/-- A body full of separators, with a percent sign at its very end, is sent and survives. -/
theorem grafana_body_survives_separators :
    let received := str "POST /grafana/query HTTP/1.1\r\n" ++ sampleAuthorization
      ++ str "\r\n" ++ str "a=1&period=2+%"
    ∃ params, Effect.lsrpSend (str "127.0.0.1") 8081 params
        ∈ (handleRequest sampleEnv {} received).effects
      ∧ BodySurvives (str "a=1&period=2+%") params := by
  intro received
  have hsample : Effect.lsrpSend (str "127.0.0.1") 8081 (grafanaQueryParams (str "a=1&period=2+%"))
        ∈ (handleRequest sampleEnv {} received).effects
      ∧ extractPath (cstr received) = some (str "/grafana/query")
      ∧ startsWith (cstr received) (str "POST ") = true
      ∧ extractBody (cstr received) = some (str "a=1&period=2+%") := by
    decide +kernel
  obtain ⟨hsend, hpath, hpost, hbody⟩ := hsample
  obtain ⟨hsurvive, _⟩ := grafana_body_survives sampleEnv {} received (str "a=1&period=2+%") hpath
    hpost hbody
  exact ⟨_, hsend, hsurvive _ _ _ hsend⟩

end Svgd
