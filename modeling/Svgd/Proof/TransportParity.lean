import Svgd.Backend.Server
import Svgd.Gate.Request

/-!
# One request over two transports

`GET /p?q` reaches the handler directly in HTTP mode. In LSRP mode the gate turns it
into `endpoint=p&q` and the backend reads the parameters out of that text. A path
without `=` and `&` hides no parameter, so both front ends see the same values, and
endpoint, period and theme are always the same.

Width and height are read once more by the handler, and only if they are numbers from
end to end. In HTTP mode anything else means the default; in LSRP mode it means what
`atoi` had made of it before. The two agree exactly when the value is such a number, or
`atoi` makes nothing or the default of it.
-/

namespace Svgd.Backend

open Lib

/-- The target `/p?q`. -/
def getTarget (p q : Bytes) : Bytes := ch '/' :: (p ++ ch '?' :: q)

/-- `GET /p?q`, followed by the header lines. -/
def getRequest (p q rest : Bytes) : Bytes :=
  str "GET " ++ (getTarget p q ++ (str " HTTP/1.1" ++ (str "\r\n" ++ rest)))

/-- A value in the query means the same size to `atoi` as to the check in the handler. -/
def SizeAgrees (query key : Bytes) (dflt : Int) : Prop :=
  ∀ v, handlerGetParam query key = some v →
    ((strtol v).2 = [] ∧ 0 < (strtol v).1) ∨ atoi v ≤ 0 ∨ atoi v = dflt

/-! ## The HTTP front end -/

section

variable {p q : Bytes} (hmark : ch '?' ∉ p) (hp : ch ' ' ∉ p) (hq : ch ' ' ∉ q)

include hp hq in
theorem space_not_mem_getTarget : ch ' ' ∉ getTarget p q := by
  simp only [getTarget, List.mem_cons, List.mem_append, not_or]
  exact ⟨by decide, hp, by decide, hq⟩

include hmark in
theorem strchr_getTarget (s : Bytes) :
    strchr (getTarget p q ++ s) (ch '?') = some (ch '?' :: (q ++ s)) := by
  have hfront : ch '?' ∉ ch '/' :: p := by
    simp only [List.mem_cons, not_or]
    exact ⟨by decide, hmark⟩
  have htext : getTarget p q ++ s = (ch '/' :: p) ++ ch '?' :: (q ++ s) := by simp [getTarget]
  rw [htext, strchr_append hfront]

end

/-- A line is read up to the second space. -/
theorem httpParseLine_get {t : Bytes} (ht : ch ' ' ∉ t) (v : Bytes) :
    httpParseLine (str "GET " ++ (t ++ ch ' ' :: v)) = httpSplitTarget (str "GET") t := by
  have hline : str "GET " ++ (t ++ ch ' ' :: v) = str "GET" ++ ch ' ' :: (t ++ ch ' ' :: v) := rfl
  unfold httpParseLine
  rw [hline, strchr_append (by decide)]
  dsimp only
  rw [upTo_append, if_neg (by decide), List.drop_succ_cons, List.drop_zero, strchr_append ht]
  dsimp only
  rw [upTo_append]

/-- A line without a second space is refused. -/
theorem httpParseLine_cut {t : Bytes} (ht : ch ' ' ∉ t) : httpParseLine (str "GET " ++ t) = none := by
  have hline : str "GET " ++ t = str "GET" ++ ch ' ' :: t := rfl
  unfold httpParseLine
  rw [hline, strchr_append (by decide)]
  dsimp only
  rw [upTo_append, if_neg (by decide), List.drop_succ_cons, List.drop_zero, strchr_eq_none.mpr ht]

/-- The first line ends at the first carriage return. -/
theorem httpParseRequest_line {line : Bytes} (h : ch '\r' ∉ line) (rest : Bytes) :
    httpParseRequest (line ++ ch '\r' :: rest) = httpParseLine line := by
  unfold httpParseRequest lineEnd
  rw [strchr_append h]
  dsimp only
  rw [upTo_append]

/-- What the HTTP front end passes on, if it accepts the request. -/
theorem httpAction_getRequest {p q rest : Bytes} {args : HandlerArgs} (hmark : ch '?' ∉ p)
    (hp : ch ' ' ∉ p) (hq : ch ' ' ∉ q) (h : httpAction (getRequest p q rest) = .process args) :
    args = httpArgs ⟨str "GET", cstr (ch '/' :: p), cstr q⟩ := by
  have hspace := space_not_mem_getTarget hp hq
  have hparse : ∃ req, httpParseRequest (getRequest p q rest) = some req ∧ args = httpArgs req := by
    have hoptions : startsWith (cstr (getRequest p q rest)) (str "OPTIONS") = false := by
      rw [getRequest, cstr_append (by decide)]
      rfl
    unfold httpAction at h
    rw [if_neg (by simp [getRequest, str]), if_neg (by rw [hoptions]; decide)] at h
    split at h
    · exact absurd h (by simp)
    · rename_i req hreq
      injection h with h
      exact ⟨req, hreq, h.symm⟩
  obtain ⟨req, hreq, rfl⟩ := hparse
  by_cases hcr : ch '\r' ∈ getTarget p q
  · -- the line ends inside the target, and the second space is not in it
    obtain ⟨a, b, hab, ha⟩ := List.eq_append_cons_of_mem hcr
    have hline : getRequest p q rest
        = (str "GET " ++ a) ++ ch '\r' :: (b ++ (str " HTTP/1.1" ++ (str "\r\n" ++ rest))) := by
      rw [getRequest, hab]
      simp
    have ha' : ch '\r' ∉ str "GET " ++ a := by
      simp only [List.mem_append, not_or]
      exact ⟨by decide, ha⟩
    have hcut : ch ' ' ∉ a := by
      intro hm
      exact hspace (hab ▸ List.mem_append_left _ hm)
    rw [hline, httpParseRequest_line ha', httpParseLine_cut hcut] at hreq
    exact absurd hreq (by simp)
  · have hline : getRequest p q rest = (str "GET " ++ (getTarget p q ++ ch ' ' :: str "HTTP/1.1"))
        ++ ch '\r' :: (str "\n" ++ rest) := by
      have hversion : str " HTTP/1.1" = ch ' ' :: str "HTTP/1.1" := rfl
      have hcrlf : str "\r\n" = ch '\r' :: str "\n" := rfl
      rw [getRequest, hversion, hcrlf]
      simp
    have hno : ch '\r' ∉ str "GET " ++ (getTarget p q ++ ch ' ' :: str "HTTP/1.1") := by
      simp only [List.mem_append, List.mem_cons, not_or]
      exact ⟨by decide, hcr, by decide, by decide⟩
    have hquery : strchr (getTarget p q) (ch '?') = some (ch '?' :: q) := by
      simpa using strchr_getTarget (q := q) hmark []
    have hpath : upTo (getTarget p q) (ch '?' :: q) = ch '/' :: p := by
      have htext : getTarget p q = (ch '/' :: p) ++ ch '?' :: q := rfl
      rw [htext, upTo_append]
    rw [hline, httpParseRequest_line hno, httpParseLine_get hspace] at hreq
    unfold httpSplitTarget at hreq
    rw [hquery] at hreq
    dsimp only at hreq
    rw [hpath, List.drop_succ_cons, List.drop_zero] at hreq
    split at hreq
    · exact absurd hreq (by simp)
    split at hreq
    · exact absurd hreq (by simp)
    split at hreq
    · exact absurd hreq (by simp)
    · injection hreq with hreq
      rw [← hreq]
      rfl

/-! ## The gate -/

/-- A NUL in the target hides the end of the line from the gate. -/
theorem parseApiRequest_nul {p q rest : Bytes} {maxParamsLen : Nat} (hp : ch ' ' ∉ p)
    (hq : ch ' ' ∉ q) (h0 : (0 : UInt8) ∈ getTarget p q) :
    Gate.parseApiRequest maxParamsLen (cstr (getRequest p q rest)) = none := by
  have hcut : cstr (getRequest p q rest) = str "GET " ++ cstr (getTarget p q) := by
    rw [getRequest, cstr_append (by decide), cstr_append_of_mem h0]
  have hspace : ch ' ' ∉ cstr (getTarget p q) := by
    intro hm
    exact space_not_mem_getTarget hp hq ((List.takeWhile_sublist _).subset hm)
  have hend : strstr (cstr (getTarget p q)) (str " HTTP/") = none :=
    strstr_none_of_not_mem (by decide) hspace
  have hdrop : (str "GET " ++ cstr (getTarget p q)).drop 4 = cstr (getTarget p q) := rfl
  unfold Gate.parseApiRequest
  rw [hcut, if_pos (startsWith_append _ _)]
  dsimp only
  rw [hdrop, hend]

/-- What the gate sends for a request it accepts. -/
theorem parseApiRequest_getRequest {p q rest params : Bytes} {maxParamsLen : Nat}
    (hlen : q.length ≤ 255) (hmark : ch '?' ∉ p) (hp : ch ' ' ∉ p) (hq : ch ' ' ∉ q)
    (h : Gate.parseApiRequest maxParamsLen (cstr (getRequest p q rest)) = some params) :
    (0 : UInt8) ∉ p ∧ (0 : UInt8) ∉ q ∧ params = Gate.apiParams p q := by
  have h0 : (0 : UInt8) ∉ getTarget p q := by
    intro hm
    rw [parseApiRequest_nul hp hq hm] at h
    exact absurd h (by simp)
  have hparts : (0 : UInt8) ∉ p ∧ (0 : UInt8) ∉ q := by
    simp only [getTarget, List.mem_cons, List.mem_append, not_or] at h0
    exact ⟨h0.2.1, h0.2.2.2⟩
  refine ⟨hparts.1, hparts.2, ?_⟩
  generalize hv : str ".1" ++ (str "\r\n" ++ cstr rest) = v
  -- the buffer from the target on, and from the end of the target on
  have hbuffer : cstr (getRequest p q rest)
      = str "GET " ++ (getTarget p q ++ (str " HTTP/" ++ (str "1" ++ v))) := by
    rw [getRequest, cstr_append (by decide), cstr_append h0, cstr_append (by decide),
      cstr_append (by decide), ← hv]
    rfl
  generalize hstop : str " HTTP/" ++ (str "1" ++ v) = stop at hbuffer
  have hend : strstr (getTarget p q ++ stop) (str " HTTP/") = some stop := by
    have hversion : str " HTTP/" = ch ' ' :: str "HTTP/" := rfl
    rw [← hstop, hversion, strstr_skip_head (space_not_mem_getTarget hp hq), ← hversion]
    exact strstr_head (startsWith_append _ _)
  have hquery : Gate.queryStart (getTarget p q ++ stop) stop = some (ch '?' :: (q ++ stop)) := by
    unfold Gate.queryStart
    rw [strchr_getTarget hmark]
    dsimp only
    rw [if_pos (by simp only [List.length_cons, List.length_append]; omega)]
  have hpath : upTo (getTarget p q ++ stop) (ch '?' :: (q ++ stop)) = ch '/' :: p := by
    have htext : getTarget p q ++ stop = (ch '/' :: p) ++ ch '?' :: (q ++ stop) := by
      simp [getTarget]
    rw [htext, upTo_append]
  have hapi : Gate.apiQuery (getTarget p q ++ stop) stop = q := by
    unfold Gate.apiQuery
    rw [hquery]
    dsimp only
    rw [List.drop_succ_cons, List.drop_zero, upTo_append, Gate.apiBufferSize]
    by_cases hnil : q = []
    · rw [hnil]
      rfl
    · have hpos := List.length_pos_iff.mpr hnil
      rw [if_pos ⟨hpos, by omega⟩]
  have hdrop : (str "GET " ++ (getTarget p q ++ stop)).drop 4 = getTarget p q ++ stop := rfl
  have hskip : ((getTarget p q ++ stop).drop 1).take p.length = p := by
    simp [getTarget]
  unfold Gate.parseApiRequest at h
  rw [hbuffer, if_pos (startsWith_append _ _)] at h
  dsimp only at h
  rw [hdrop, hend] at h
  dsimp only at h
  rw [hquery, Option.getD_some, hpath, hapi, List.length_cons, Nat.add_sub_cancel, hskip] at h
  split at h
  · exact absurd h (by simp)
  split at h
  · exact absurd h (by simp)
  split at h
  · exact absurd h (by simp)
  · exact (Option.some.inj h).symm

/-! ## Parameters -/

/-- A parameter is read past the endpoint, which has no `=` of its own. -/
theorem handlerGetParam_apiParams {p q key : Bytes} (hp : ch '=' ∉ p) (hkey : ch '&' ∉ key)
    (hshort : key.length < 255) (hend : ¬ key <:+ str "endpoint") :
    handlerGetParam (Gate.apiParams p q) key = handlerGetParam q key := by
  have hprint : snprintf 256 (key ++ str "=") = key ++ [ch '='] := by
    refine snprintf_of_lt ?_
    have hlen : (str "=").length = 1 := rfl
    rw [List.length_append, hlen]
    omega
  have hfront : strstr (str "endpoint=" ++ p) (key ++ [ch '=']) = none := by
    have htext : str "endpoint=" ++ p = str "endpoint" ++ ch '=' :: p := rfl
    rw [htext]
    exact strstr_none_of_one_mark (by decide) hp hend
  have hamp : ch '&' ∉ key ++ [ch '='] := by
    simp only [List.mem_append, not_or]
    exact ⟨hkey, by decide⟩
  have hsearch : strstr (Gate.apiParams p q) (key ++ [ch '=']) = strstr q (key ++ [ch '=']) := by
    unfold Gate.apiParams
    split
    · have htext : str "endpoint=" ++ p ++ str "&" ++ q = (str "endpoint=" ++ p) ++ ch '&' :: q := by
        have hsep : str "&" = [ch '&'] := rfl
        rw [hsep]
        simp
      rw [htext, strstr_append_of_none hfront hamp, strstr, if_neg]
      obtain ⟨c, w, hw⟩ : ∃ c w, key ++ [ch '='] = c :: w :=
        List.exists_cons_of_ne_nil (by simp)
      have hc : c ≠ ch '&' := by
        intro he
        exact hamp (by rw [hw, he]; exact List.mem_cons_self)
      rw [hw, startsWith_cons_cons]
      simp [hc]
    · rename_i hnil
      have hq : q = [] := by
        rw [← List.length_eq_zero_iff]
        omega
      rw [hfront, hq, strstr, if_neg (by simp)]
  unfold handlerGetParam
  dsimp only
  rw [hprint, hsearch]

theorem handlerGetParam_endpoint {p : Bytes} (hp : ch '&' ∉ p) (q : Bytes) :
    handlerGetParam (Gate.apiParams p q) (str "endpoint") = some p := by
  have hprint : snprintf 256 (str "endpoint" ++ str "=") = str "endpoint=" := by decide
  have hsep : str "&" = [ch '&'] := rfl
  unfold handlerGetParam Gate.apiParams
  dsimp only
  rw [hprint]
  by_cases hq : 0 < q.length
  · rw [if_pos hq, List.append_assoc, List.append_assoc, strstr_head (startsWith_append _ _)]
    dsimp only
    rw [List.drop_left, hsep, List.singleton_append, strchr_append hp, untilOr, upTo_append]
  · rw [if_neg hq, strstr_head (startsWith_append _ _)]
    dsimp only
    rw [List.drop_left, strchr_eq_none.mpr hp, untilOr]

/-- The two readers of the period agree: an ampersand ends a number. -/
theorem lsrpPeriod_eq {p q : Bytes} (hp : ch '=' ∉ p) :
    lsrpPeriod (Gate.apiParams p q) = httpPeriod q := by
  have hprint : snprintf 256 (str "period" ++ str "=") = str "period=" := by decide
  unfold lsrpPeriod httpPeriod
  rw [handlerGetParam_apiParams hp (by decide) (by decide) (by decide)]
  unfold handlerGetParam
  dsimp only
  rw [hprint]
  cases strstr q (str "period=") with
  | none => rfl
  | some t =>
      have hseven : (str "period=").length = 7 := rfl
      have hatoi : atoi (untilOr (t.drop 7) (strchr (t.drop 7) (ch '&'))) = atoi (t.drop 7) := by
        cases hamp : strchr (t.drop 7) (ch '&') with
        | none => rfl
        | some u =>
            obtain ⟨v, w, htext, rfl, -⟩ := strchr_some hamp
            rw [htext, untilOr, upTo_append, atoi_append_stop (by decide) (by decide) (by decide)]
      simp only [hseven, hatoi]

/-! ## Sizes -/

/-- A size between its bounds is the default one only for the default itself, or for nothing. -/
theorem boundSize_eq_default {dflt lo hi size : Int} (hlo : lo < dflt) (hhi : dflt < hi)
    (hpos : 0 < dflt) : boundSize dflt lo hi size = dflt ↔ size ≤ 0 ∨ size = dflt := by
  unfold boundSize
  dsimp only
  split <;> split <;> split <;> omega

theorem querySize_eq_iff {q key : Bytes} {dflt lo hi : Int} (hlo : lo < dflt) (hhi : dflt < hi)
    (hpos : 0 < dflt) :
    boundSize dflt lo hi (querySize (handlerGetParam q key) 0)
        = boundSize dflt lo hi (querySize (handlerGetParam q key) (lsrpSize q key))
      ↔ SizeAgrees q key dflt := by
  have hzero : boundSize dflt lo hi 0 = dflt := (boundSize_eq_default hlo hhi hpos).mpr (by omega)
  unfold SizeAgrees lsrpSize querySize
  cases handlerGetParam q key with
  | none => exact iff_of_true rfl fun v h => absurd h (by simp)
  | some v =>
      dsimp only
      by_cases hnum : (strtol v).2 = [] ∧ 0 < (strtol v).1
      · rw [if_pos hnum, if_pos hnum]
        refine iff_of_true rfl ?_
        intro w hw
        rw [← Option.some.inj hw]
        exact Or.inl hnum
      · rw [if_neg hnum, if_neg hnum, hzero, eq_comm, boundSize_eq_default hlo hhi hpos]
        constructor
        · intro h w hw
          rw [← Option.some.inj hw]
          exact Or.inr h
        · intro h
          rcases h v rfl with hnum' | h
          · exact absurd hnum' hnum
          · exact h

/-! ## One request, both ways -/

section

variable {p q rest rest' params : Bytes} {maxParamsLen : Nat} {a b : HandlerArgs}
  (hp : p ≠ [] ∧ p.length ≤ 254 ∧ ∀ c ∈ str "&=?. ", c ∉ p) (hq : q.length ≤ 255 ∧ ch ' ' ∉ q)
  (hhttp : httpAction (getRequest p q rest) = .process a)
  (hgate : Gate.parseApiRequest maxParamsLen (cstr (getRequest p q rest')) = some params)
  (hlsrp : lsrpArgs params = .ok b)

include hp hq hgate

theorem params_eq_apiParams : (0 : UInt8) ∉ p ∧ (0 : UInt8) ∉ q ∧ params = Gate.apiParams p q :=
  parseApiRequest_getRequest hq.1 (hp.2.2 _ (by decide)) (hp.2.2 _ (by decide)) hq.2 hgate

include hhttp in
/-- The arguments in HTTP mode. -/
theorem httpArgs_eq : a = ⟨p, some q, httpPeriod q, 0, 0⟩ := by
  obtain ⟨hp0, hq0, -⟩ := params_eq_apiParams hp hq hgate
  have ha := httpAction_getRequest (hp.2.2 _ (by decide)) (hp.2.2 _ (by decide)) hq.2 hhttp
  have hslash : (0 : UInt8) ∉ ch '/' :: p := by
    simp only [List.mem_cons, not_or]
    exact ⟨by decide, hp0⟩
  rw [cstr_eq_self hslash, cstr_eq_self hq0] at ha
  rw [ha]
  rfl

include hlsrp in
/-- The arguments in LSRP mode. -/
theorem lsrpArgs_eq :
    b = ⟨p, some (Gate.apiParams p q), lsrpPeriod (Gate.apiParams p q),
      lsrpSize (Gate.apiParams p q) (str "width"), lsrpSize (Gate.apiParams p q) (str "height")⟩ := by
  have hne : Gate.apiParams p q ≠ [] := by
    unfold Gate.apiParams
    split <;> simp [str]
  rw [(params_eq_apiParams hp hq hgate).2.2] at hlsrp
  unfold lsrpArgs at hlsrp
  rw [if_neg hne, handlerGetParam_endpoint (hp.2.2 _ (by decide))] at hlsrp
  injection hlsrp with hb
  exact hb.symm

include hhttp hlsrp

/-- Equal jobs are handled alike. -/
theorem handlerProcess_transported {env : HandlerEnv}
    (hjob : renderJob env.config a = renderJob env.config b) (useCache : Bool) (cache : Cache) :
    handlerProcess env a useCache cache = handlerProcess env b useCache cache := by
  have ha := httpArgs_eq hp hq hhttp hgate
  have hb := lsrpArgs_eq hp hq hgate hlsrp
  have haquery : a.query = some q := by rw [ha]
  have hbquery : b.query = some (Gate.apiParams p q) := by rw [hb]
  have hbody : handlerGetParam (Gate.apiParams p q) (str "body") = handlerGetParam q (str "body") :=
    handlerGetParam_apiParams (hp.2.2 _ (by decide)) (by decide) (by decide) (by decide)
  exact handlerProcess_congr hjob haquery hbquery hbody.symm useCache cache

/-- Then both front ends answer from one run of the handler. -/
theorem replies_transported {env : HandlerEnv}
    (hjob : renderJob env.config a = renderJob env.config b) (cache : Cache) :
    ∃ run : Duk (HandlerResult × Cache),
      httpServe env (getRequest p q rest) cache
          = (do let (r, cache) ← run; pure (some (httpReply r), cache))
        ∧ lsrpHandler env params cache
          = (do let (r, cache) ← run; pure (⟨if r.status = 0 then 0 else 1, r.data⟩, cache)) := by
  refine ⟨handlerProcess env a true cache, ?_, ?_⟩
  · unfold httpServe
    rw [hhttp]
  · unfold lsrpHandler
    rw [hlsrp, handlerProcess_transported hp hq hhttp hgate hlsrp hjob]

end

/--
**When both transports ask for the same chart.**

Endpoint, period and theme are always the same. Width and height, and with them the
whole job, are the same exactly when the two values in the query mean the same to both
readers; then the handler does the same in both modes.
-/
theorem transport_parity_iff (config : ServerConfig) (p q rest rest' params : Bytes)
    (maxParamsLen : Nat) (a b : HandlerArgs)
    (hp : p ≠ [] ∧ p.length ≤ 254 ∧ ∀ c ∈ str "&=?. ", c ∉ p) (hq : q.length ≤ 255 ∧ ch ' ' ∉ q)
    (hhttp : httpAction (getRequest p q rest) = .process a)
    (hgate : Gate.parseApiRequest maxParamsLen (cstr (getRequest p q rest')) = some params)
    (hlsrp : lsrpArgs params = .ok b) :
    (renderJob config a).endpoint = (renderJob config b).endpoint
    ∧ (renderJob config a).period = (renderJob config b).period
    ∧ (renderJob config a).theme = (renderJob config b).theme
    ∧ ((renderJob config a).width = (renderJob config b).width ↔ SizeAgrees q (str "width") 800)
    ∧ ((renderJob config a).height = (renderJob config b).height ↔ SizeAgrees q (str "height") 450)
    ∧ (renderJob config a = renderJob config b →
        ∀ (env : HandlerEnv) (useCache : Bool) (cache : Cache), env.config = config →
          handlerProcess env a useCache cache = handlerProcess env b useCache cache) := by
  have heq : ch '=' ∉ p := hp.2.2 _ (by decide)
  have ha := httpArgs_eq hp hq hhttp hgate
  have hb := lsrpArgs_eq hp hq hgate hlsrp
  have hparam : ∀ key, ch '&' ∉ key → key.length < 255 → ¬ key <:+ str "endpoint" →
      queryParam a.query key = handlerGetParam q key
        ∧ queryParam b.query key = handlerGetParam q key
        ∧ lsrpSize (Gate.apiParams p q) key = lsrpSize q key := by
    intro key hkey hshort hend
    have hget : handlerGetParam (Gate.apiParams p q) key = handlerGetParam q key :=
      handlerGetParam_apiParams heq hkey hshort hend
    refine ⟨by rw [ha]; rfl, by rw [hb]; exact hget, ?_⟩
    unfold lsrpSize
    rw [hget]
  obtain ⟨hwa, hwb, hwl⟩ := hparam (str "width") (by decide) (by decide) (by decide)
  obtain ⟨hha, hhb, hhl⟩ := hparam (str "height") (by decide) (by decide) (by decide)
  obtain ⟨hta, htb, -⟩ := hparam (str "theme") (by decide) (by decide) (by decide)
  refine ⟨?_, ?_, ?_, ?_, ?_, ?_⟩
  · show a.endpoint = b.endpoint
    rw [ha, hb]
  · show a.period = b.period
    rw [ha, hb]
    exact (lsrpPeriod_eq heq).symm
  · show renderTheme config a = renderTheme config b
    unfold renderTheme
    rw [hta, htb]
  · have haw : a.width = 0 := by rw [ha]
    have hbw : b.width = lsrpSize q (str "width") := by rw [hb]; exact hwl
    show svgWidth a = svgWidth b ↔ _
    unfold svgWidth
    rw [hwa, hwb, haw, hbw]
    exact querySize_eq_iff (by decide) (by decide) (by decide)
  · have hah : a.height = 0 := by rw [ha]
    have hbh : b.height = lsrpSize q (str "height") := by rw [hb]; exact hhl
    show svgHeight a = svgHeight b ↔ _
    unfold svgHeight
    rw [hha, hhb, hah, hbh]
    exact querySize_eq_iff (by decide) (by decide) (by decide)
  · intro hjob env useCache cache henv
    rw [← henv] at hjob
    exact handlerProcess_transported hp hq hhttp hgate hlsrp hjob useCache cache

/-- A width that is a number gives the same chart in both modes. -/
theorem transport_parity_number :
    let q := str "period=60&width=500"
    let request := getRequest (str "cpu") q (str "\r\n")
    let params := str "endpoint=cpu&period=60&width=500"
    let a : HandlerArgs := ⟨str "cpu", some q, 60, 0, 0⟩
    let b : HandlerArgs := ⟨str "cpu", some params, 60, 500, 0⟩
    httpAction request = .process a
      ∧ Gate.parseApiRequest 4096 (cstr request) = some params ∧ lsrpArgs params = .ok b
      ∧ (renderJob {} a).width = 500 ∧ (renderJob {} a).width = (renderJob {} b).width := by
  intro q request params a b
  have hhttp : httpAction request = .process a := by decide +kernel
  have hgate : Gate.parseApiRequest 4096 (cstr request) = some params := by decide +kernel
  have hlsrp : lsrpArgs params = .ok b := by decide +kernel
  have hagrees : SizeAgrees q (str "width") 800 := by
    intro v hv
    have hvalue : handlerGetParam q (str "width") = some (str "500") := by decide +kernel
    rw [← Option.some.inj (hvalue.symm.trans hv)]
    exact Or.inl (by decide +kernel)
  have hplain : ∀ c ∈ str "&=?. ", c ∉ str "cpu" := by
    have hall : (str "&=?. ").all (fun c => !(str "cpu").contains c) = true := by decide
    simpa using List.all_eq_true.mp hall
  refine ⟨hhttp, hgate, hlsrp, by decide +kernel, ?_⟩
  exact (transport_parity_iff {} (str "cpu") q (str "\r\n") (str "\r\n") params 4096 a b
    ⟨by decide, by decide, hplain⟩ ⟨by decide, by decide⟩ hhttp hgate hlsrp).2.2.2.1.mpr hagrees

/-- A width with text behind the number is the default in one mode and the number in the other. -/
theorem transport_parity_trailing :
    let request := getRequest (str "cpu") (str "width=500abc") (str "\r\n")
    let params := str "endpoint=cpu&width=500abc"
    let a : HandlerArgs := ⟨str "cpu", some (str "width=500abc"), 3600, 0, 0⟩
    let b : HandlerArgs := ⟨str "cpu", some params, 3600, 500, 0⟩
    httpAction request = .process a
      ∧ Gate.parseApiRequest 4096 (cstr request) = some params ∧ lsrpArgs params = .ok b
      ∧ (renderJob {} a).width = 800 ∧ (renderJob {} b).width = 500 := by
  decide +kernel

end Svgd.Backend
