import Svgd.Lib.CString

/-!
# Reading a request

The string classifiers of `gate/main.c`: what the path of a request is, whether
it names a static file, whether it needs a token, and which LSRP parameters a
`GET` turns into. Each works on the request buffer as a C string; a pointer into
the buffer is the suffix it points at, and an earlier pointer is a longer suffix.
-/

namespace Svgd.Gate

open Lib

/-- Where the request target starts, by method. -/
def targetStart (request : Bytes) : Option Bytes :=
  if startsWith request (str "GET ") then some (request.drop 4)
  else if startsWith request (str "POST ") then some (request.drop 5)
  else if startsWith request (str "PUT ") then some (request.drop 4)
  else if startsWith request (str "DELETE ") then some (request.drop 7)
  else if startsWith request (str "OPTIONS ") then some (request.drop 8)
  else none

/-- The `?` of the request target, when it comes before the version. -/
def queryStart (start pathEnd : Bytes) : Option Bytes :=
  match strchr start (ch '?') with
  | some q => if pathEnd.length < q.length then some q else none
  | none => none

/-- `extract_path`. -/
def extractPath (request : Bytes) : Option Bytes :=
  match targetStart request with
  | none => none
  | some start =>
      match strstr start (str " HTTP/") with
      | none => none
      | some pathEnd => some (upTo start ((queryStart start pathEnd).getD pathEnd))

/-- `extract_body`. -/
def extractBody (request : Bytes) : Option Bytes :=
  match strstr request (str "\r\n\r\n") with
  | none => none
  | some body => some (body.drop 4)

/-- The size of the path and query buffers of `parse_api_request`. -/
def apiBufferSize : Nat := 256

/-- The query text `parse_api_request` keeps: one that does not fit is dropped. -/
def apiQuery (start pathEnd : Bytes) : Bytes :=
  match queryStart start pathEnd with
  | none => []
  | some q =>
      let query := upTo (q.drop 1) pathEnd
      if 0 < query.length ∧ query.length < apiBufferSize then query else []

/-- The LSRP parameter text: `endpoint=<path>&<query>`. -/
def apiParams (path query : Bytes) : Bytes :=
  if 0 < query.length then str "endpoint=" ++ path ++ str "&" ++ query
  else str "endpoint=" ++ path

/-- `parse_api_request`: the LSRP parameters of a metric request. -/
def parseApiRequest (maxParamsLen : Nat) (request : Bytes) : Option Bytes :=
  if startsWith request (str "GET ") then
    let start := request.drop 4
    match strstr start (str " HTTP/") with
    | none => none
    | some pathEnd =>
        -- an empty target makes `path_len` wrap, but then `path_start[0]` is not a slash
        let pathLen := (upTo start ((queryStart start pathEnd).getD pathEnd)).length - 1
        if pathLen < 1 ∨ start.head? ≠ some (ch '/') then none
        else if apiBufferSize ≤ pathLen then none
        else
          let params := apiParams ((start.drop 1).take pathLen) (apiQuery start pathEnd)
          if maxParamsLen ≤ params.length then none else some params
  else none

/-! ## Classification -/

/-- `has_file_extension`: a dot after the last slash. -/
def hasFileExtension (path : Bytes) : Bool :=
  match strrchr path (ch '.'), strrchr path (ch '/') with
  | none, _ => false
  | some _, none => true
  | some dot, some slash => decide (slash < dot)

/-- `is_static_request`. -/
def isStaticRequest (path : Bytes) : Bool :=
  if path = str "/_datasources" ∨ startsWith path (str "/_datasources/")
      ∨ startsWith path (str "/_config/") then false
  else if path = str "/" ∨ path = str "/index.html" then true
  else hasFileExtension path

/-- `requires_auth`. -/
def requiresAuth (path : Bytes) : Bool :=
  if isStaticRequest path then false
  else if path = str "/_auth/login" ∨ path = str "/_auth/verify" then false
  else true

/-- `get_mime_type`. -/
def getMimeType (path : Bytes) : Bytes :=
  if (strstr path (str ".html")).isSome ∨ path = str "/" then str "text/html; charset=utf-8"
  else if (strstr path (str ".js")).isSome then str "application/javascript; charset=utf-8"
  else if (strstr path (str ".css")).isSome then str "text/css; charset=utf-8"
  else if (strstr path (str ".json")).isSome then str "application/json; charset=utf-8"
  else if (strstr path (str ".svg")).isSome then str "image/svg+xml"
  else if (strstr path (str ".png")).isSome then str "image/png"
  else str "application/octet-stream"

/-- `get_api_content_type`. -/
def getApiContentType (endpoint : Bytes) : Bytes :=
  if startsWith endpoint (str "_config/") then str "application/json" else str "image/svg+xml"

/-! ## Header and query values -/

/-- The earlier of two stops, either of which may be missing. -/
def firstStop : Option Bytes → Option Bytes → Option Bytes
  | stop, none => stop
  | none, some t => some t
  | some s, some t => if s.length < t.length then some t else some s

/-- `extract_auth_token`: the bearer token, wherever in the buffer the header text stands. -/
def extractAuthToken (request : Bytes) : Option Bytes :=
  match strstr request (str "Authorization: Bearer ") with
  | none => none
  | some hdr =>
      let value := hdr.drop 22
      match firstStop (strchr value (ch '\r')) (strchr value (ch '\n')) with
      | none => none
      | some stop => some (upTo value stop)

/-- `extract_datasource_param`. -/
def extractDatasourceParam (query : Bytes) : Option Bytes :=
  match strstr query (str "datasource=") with
  | none => none
  | some ds =>
      let value := ds.drop 11
      some (untilOr value (firstStop (strchr value (ch '&')) (strchr value (ch ' '))))

/-! ## What the two readers of the path agree on -/

/-- A question mark behind the target starts no query. -/
theorem queryStart_none {path stop : Bytes} (hquery : ch '?' ∉ path) :
    queryStart (path ++ stop) stop = none := by
  unfold queryStart
  rw [strchr_skip hquery]
  cases hq : strchr stop (ch '?') with
  | none => rfl
  | some q =>
      obtain ⟨p, _, hpq, _⟩ := strchr_some hq
      dsimp only
      rw [if_neg (by rw [hpq, List.length_append]; omega)]

/-- A target without spaces ends at the version. -/
theorem strstr_version {path : Bytes} (hspace : ch ' ' ∉ path) (t : Bytes) :
    strstr (path ++ (str " HTTP/" ++ t)) (str " HTTP/") = some (str " HTTP/" ++ t) := by
  have hversion : str " HTTP/" = ch ' ' :: str "HTTP/" := rfl
  rw [hversion, strstr_skip_head hspace]
  exact strstr_head (startsWith_append _ _)

/-- The path of a target without a query. -/
theorem extractPath_of_target {request path t : Bytes} (hspace : ch ' ' ∉ path)
    (hquery : ch '?' ∉ path) (hstart : targetStart request = some (path ++ (str " HTTP/" ++ t))) :
    extractPath request = some path := by
  unfold extractPath
  rw [hstart]
  dsimp only
  rw [strstr_version hspace]
  dsimp only
  rw [queryStart_none hquery, Option.getD_none, upTo_append]

/-- The path of a `POST` without a query. -/
theorem extractPath_post {path t : Bytes} (hspace : ch ' ' ∉ path) (hquery : ch '?' ∉ path) :
    extractPath (str "POST " ++ (path ++ (str " HTTP/" ++ t))) = some path := by
  have hmethod : str "POST " = [ch 'P', ch 'O', ch 'S', ch 'T', ch ' '] := rfl
  have hstart : targetStart (str "POST " ++ (path ++ (str " HTTP/" ++ t)))
      = some (path ++ (str " HTTP/" ++ t)) := by
    unfold targetStart
    rw [if_neg (by rw [hmethod]; simp [str, ch]), if_pos (startsWith_append _ _), hmethod]
    rfl
  exact extractPath_of_target hspace hquery hstart

/--
**The forwarded endpoint is the classified path.**

`parse_api_request` reads the path a second time, on its own. Whenever it
produces parameters, the endpoint in them is the path `extract_path` returned,
without its leading slash.
-/
theorem parseApiRequest_endpoint {maxParamsLen : Nat} {request params : Bytes}
    (h : parseApiRequest maxParamsLen request = some params) :
    startsWith request (str "GET ") = true
      ∧ ∃ endpoint query, extractPath request = some (ch '/' :: endpoint)
        ∧ params = str "endpoint=" ++ endpoint
            ++ (if query = [] then [] else str "&" ++ query) := by
  unfold parseApiRequest at h
  split at h
  case isFalse => exact absurd h (by simp)
  rename_i hget
  refine ⟨hget, ?_⟩
  dsimp only at h
  split at h
  · exact absurd h (by simp)
  rename_i pathEnd hend
  split at h
  · exact absurd h (by simp)
  rename_i hlen
  split at h
  · exact absurd h (by simp)
  split at h
  · exact absurd h (by simp)
  injection h with h
  -- name the path text once; both readers compute it the same way
  generalize hstart : request.drop 4 = start at *
  generalize hstop : (queryStart start pathEnd).getD pathEnd = stop at *
  have hpath : extractPath request = some (upTo start stop) := by
    unfold extractPath targetStart
    rw [if_pos hget, hstart]
    dsimp only
    rw [hend]
    dsimp only
    rw [hstop]
  push Not at hlen
  obtain ⟨hlen1, hhead⟩ := hlen
  obtain ⟨rest, hrest⟩ : ∃ rest, start = ch '/' :: rest := by
    cases start with
    | nil => simp at hhead
    | cons b rest => exact ⟨rest, by simpa using hhead⟩
  have hup : upTo start stop = ch '/' :: rest.take ((upTo start stop).length - 1) := by
    have hle : 1 ≤ (upTo start stop).length := by omega
    rw [hrest] at hle ⊢
    unfold upTo at hle ⊢
    simp only [List.length_take, List.length_cons] at hle ⊢
    obtain ⟨k, hk⟩ : ∃ k, rest.length + 1 - stop.length = k + 1 :=
      ⟨rest.length + 1 - stop.length - 1, by omega⟩
    rw [hk, List.take_succ_cons, Nat.min_eq_left (by omega), Nat.add_sub_cancel]
  refine ⟨rest.take ((upTo start stop).length - 1), apiQuery start pathEnd,
    by rw [hpath, ← hup], ?_⟩
  have hdrop : start.drop 1 = rest := by rw [hrest]; rfl
  rw [← h, hdrop, apiParams]
  by_cases hq : apiQuery start pathEnd = []
  · simp [hq]
  · rw [if_pos (List.length_pos_iff.mpr hq), if_neg hq, List.append_assoc]

end Svgd.Gate
