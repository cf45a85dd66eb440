import Svgd.Gate.Wire
import Svgd.Lib.HttpSized
import Svgd.Proof.AuthGate
import Svgd.Proof.ErrorFraming
import Svgd.Proof.FleetFreshness
import Svgd.Proof.Mutations

/-!
# One request, one response

What a client of the gate receives is one HTTP response with the declared length, whatever it
sent: every route answers once, every head fits its buffer, and an error of a backend is short
enough for `send_error` (`Brief`). The errors of the backends of a deployment are, with any
transport that hands on what the gate and they pass to it. The exceptions are two. A `PUT` or
`DELETE` of `/_datasources` itself is not answered at all, and a deletion is answered by a
204, which has a head only.
-/

namespace Svgd.Gate

open Lib Lib.Http

/-! ## What fits is sent -/

theorem sendBuffer_of_fits {size : Nat} {text : Bytes} (hfits : text.length < size)
    (hsize : size ≤ 2 ^ 31) (stack : Nat → UInt8) : sendBuffer size stack text = text := by
  have hsent : sentLength text = text.length := if_pos (Nat.lt_of_lt_of_le hfits hsize)
  unfold sendBuffer
  rw [hsent, TextBuffer.written_of_fits hfits,
    TextBuffer.map_store_zero (by rw [List.length_append]; omega), List.take_left]

/-! ## Every answer that is sent -/

/-- The lines behind the length in the heads of the gate. -/
theorem closing_text : crlf ++ (lineTexts ([allowOriginField, closeField].map Field.line) ++ crlf)
    = str "\r\nAccess-Control-Allow-Origin: *\r\nConnection: close\r\n\r\n" := by decide

theorem neutral_typed {ct : Bytes} (hct : ∀ b ∈ ct, isText b = true) :
    ∀ f ∈ [contentTypeField ct hct] ++ [allowOriginField, closeField], f.Neutral := by
  intro f hf
  rcases List.mem_cons.mp hf with rfl | hf
  · exact neutral_contentType hct
  · exact neutral_closing f hf

/-- The media types of the gate. -/
def mediaTypes : List Bytes :=
  [str "text/html; charset=utf-8", str "application/javascript; charset=utf-8",
    str "text/css; charset=utf-8", str "application/json; charset=utf-8", str "image/svg+xml",
    str "image/png", str "application/octet-stream", str "application/json"]

/-- What the preflight answers allow. -/
def preflights : List (Bytes × Bytes) :=
  [(str "POST, OPTIONS", str "Content-Type, Authorization"),
    (str "GET, OPTIONS", str "Content-Type, Authorization"), (str "GET, OPTIONS", str "Content-Type"),
    (str "GET, POST, DELETE, OPTIONS", str "Content-Type"),
    (str "GET, POST, DELETE, PUT, OPTIONS", str "Content-Type"),
    (str "GET, POST, OPTIONS", str "Content-Type, Authorization")]

/-- An answer with a payload, as the functions that send it take it. -/
def Response.Sendable : Response → Prop
  | .json status _ => status ∈ [200, 201, 400, 404, 409, 413, 500]
  | .error message => (cstr message).length ≤ 367
  | .notFound => True
  | .unauthorized message => (cstr message).length ≤ 366
  | .ok contentType _ => contentType ∈ mediaTypes
  | .preflight methods headers => (methods, headers) ∈ preflights

theorem mediaTypes_plain {ct : Bytes} (h : ct ∈ mediaTypes) :
    (∀ b ∈ ct, isText b = true) ∧ ct.length ≤ 64 := by
  have hall : mediaTypes.all (fun ct => ct.all isText && decide (ct.length ≤ 64)) = true := by decide
  have := List.all_eq_true.mp hall ct h
  rw [Bool.and_eq_true, decide_eq_true_iff] at this
  exact ⟨isText_of_all this.1, this.2⟩

theorem length_printNat_size {n : Nat} (h : n < 2 ^ 64) : (printNat n).length ≤ 20 :=
  length_printNat_le (by decide) (Nat.lt_trans h (by decide))

theorem sendJson_one {status : Nat} {body : Bytes}
    (hstatus : status ∈ [200, 201, 400, 404, 409, 413, 500]) (hsize : (cstr body).length < 2 ^ 64) :
    OneResponse status (cstr body) fun stack => sendJson stack status body := by
  have hall : [200, 201, 400, 404, 409, 413, 500].all (fun status => decide ((200 ≤ status
      ∧ status ≤ 599 ∧ status ≠ 204 ∧ status ≠ 304) ∧ (jsonStatusText status).all isText = true
      ∧ (str "HTTP/1.1 " ++ (printInt status ++ (str " " ++ jsonStatusText status))).length ≤ 40))
      = true := by decide
  obtain ⟨hcode, hreason, hlen⟩ := of_decide_eq_true (List.all_eq_true.mp hall status hstatus)
  have hplain : ∀ b ∈ str "application/json", isText b = true := isText_of_all (by decide)
  refine oneResponse_of_head hcode (isText_of_all hreason) (neutral_typed hplain) fun stack => ?_
  have hhead : headText status (jsonStatusText status)
      ([contentTypeField _ hplain] ++ .length (cstr body).length :: [allowOriginField, closeField])
      = jsonHeader status (cstr body).length := by
    have hsplit : str "\r\nContent-Type: application/json\r\nContent-Length: "
        = str "\r\nContent-Type: " ++ (str "application/json" ++ str "\r\nContent-Length: ") := by
      simp only [← str_append, String.reduceAppend]
    rw [headText_typed hplain, closing_text, jsonHeader, Nat.mod_eq_of_lt hsize, hsplit]
    simp only [List.append_assoc]
  have hfits : (jsonHeader status (cstr body).length).length < 256 := by
    have hdigits := length_printNat_size hsize
    have hone : (str "\r\nContent-Type: application/json\r\nContent-Length: ").length = 50 := by decide
    have htwo : (str "\r\nAccess-Control-Allow-Origin: *\r\nConnection: close\r\n\r\n").length = 55 := by
      decide
    unfold jsonHeader
    rw [Nat.mod_eq_of_lt hsize]
    simp only [List.length_append, hone, htwo] at hlen ⊢
    omega
  show sendBuffer 256 stack (jsonHeader status (cstr body).length) ++ cstr body = _
  rw [sendBuffer_of_fits hfits (by decide), hhead]

theorem sendResponse_one {ct data : Bytes} (hct : ct ∈ mediaTypes) (hsize : data.length < 2 ^ 64) :
    OneResponse 200 data fun stack => sendResponse stack ct data := by
  obtain ⟨hplain, hlen⟩ := mediaTypes_plain hct
  refine oneResponse_of_head (by decide) (isText_of_all (by decide : (str "OK").all isText = true))
    (neutral_typed hplain) fun stack => ?_
  have hhead : headText 200 (str "OK")
      ([contentTypeField _ hplain] ++ .length data.length :: [allowOriginField, closeField])
      = responseHeader ct data.length := by
    have hsplit : str "HTTP/1.1 200 OK\r\nContent-Type: " = str "HTTP/1.1 " ++ (printInt (200 : Nat)
        ++ (str " " ++ (str "OK" ++ str "\r\nContent-Type: "))) := by decide
    rw [headText_typed hplain, closing_text, responseHeader, Nat.mod_eq_of_lt hsize, hsplit]
    simp only [List.append_assoc]
  have hfits : (responseHeader ct data.length).length < 512 := by
    have hdigits := length_printNat_size hsize
    have hone : (str "HTTP/1.1 200 OK\r\nContent-Type: ").length = 31 := by decide
    have htwo : (str "\r\nContent-Length: ").length = 18 := by decide
    have hthree : (str "\r\nAccess-Control-Allow-Origin: *\r\nConnection: close\r\n\r\n").length
        = 55 := by decide
    unfold responseHeader
    rw [Nat.mod_eq_of_lt hsize]
    simp only [List.length_append, hone, htwo, hthree]
    omega
  show sendBuffer 512 stack (responseHeader ct data.length) ++ data = _
  rw [sendBuffer_of_fits hfits (by decide), hhead]

/-- The body of an error. -/
def errorPayload (message : Bytes) : Bytes := str "\x7b\"error\":\"" ++ (message ++ str "\"\x7d")

theorem length_errorPayload (message : Bytes) :
    (errorPayload message).length = message.length + 12 := by
  have hone : (str "\x7b\"error\":\"").length = 10 := by decide
  have htwo : (str "\"\x7d").length = 2 := by decide
  unfold errorPayload
  rw [List.length_append, List.length_append, hone, htwo]
  omega

/-- An error that fits is one response, whatever its message. -/
theorem sendFormatted_one {code : Nat} {reason message length : Bytes}
    (hcode : 200 ≤ code ∧ code ≤ 599 ∧ code ≠ 204 ∧ code ≠ 304)
    (hreason : ∀ b ∈ reason, isText b = true) (hlength : length = printNat (message.length + 12))
    (hfits : (errorText (errorStatus code reason) length message).length ≤ 511) :
    OneResponse code (errorPayload message) fun stack =>
      sendFormatted stack (errorText (errorStatus code reason) length message) := by
  have hplain : ∀ b ∈ str "application/json", isText b = true := isText_of_all (by decide)
  refine oneResponse_of_head hcode hreason (neutral_typed hplain) fun stack => ?_
  have hbuffer : sendFormatted stack (errorText (errorStatus code reason) length message)
      = sendBuffer 512 stack (errorText (errorStatus code reason) length message) := rfl
  have hone : str "\r\nContent-Type: application/json\r\nContent-Length: "
      = str "\r\nContent-Type: " ++ (str "application/json" ++ str "\r\nContent-Length: ") := by
    simp only [← str_append, String.reduceAppend]
  have htwo : str "\r\nAccess-Control-Allow-Origin: *\r\nConnection: close\r\n\r\n\x7b\"error\":\""
      = str "\r\nAccess-Control-Allow-Origin: *\r\nConnection: close\r\n\r\n"
        ++ str "\x7b\"error\":\"" := by
    simp only [← str_append, String.reduceAppend]
  have hthree : ch ' ' :: reason = str " " ++ reason := rfl
  rw [hbuffer, sendBuffer_of_fits (Nat.lt_succ_of_le hfits) (by decide), headText_typed hplain,
    closing_text, length_errorPayload, errorText, errorStatus, hone, htwo, hlength, errorPayload, hthree]
  simp only [List.append_assoc]

theorem sendError_one {message : Bytes} (h : message.length ≤ 367) :
    OneResponse 400 (errorPayload message) fun stack => sendError stack message := by
  have hlength : printNat ((message.length + 12) % 2 ^ 64) = printNat (message.length + 12) := by
    rw [Nat.mod_eq_of_lt (by omega)]
  have hstatus : errorStatus 400 (str "Bad Request") = str "HTTP/1.1 400 Bad Request" := by decide
  have hfits : (errorText (str "HTTP/1.1 400 Bad Request") _ message).length ≤ 511 :=
    (fits_iff (k := 367) (by decide) (by decide) fun _ => hlength).mpr h
  rw [← hstatus] at hfits
  have hone := sendFormatted_one (by decide)
    (isText_of_all (by decide : (str "Bad Request").all isText = true)) hlength hfits
  rw [hstatus] at hone
  exact hone

theorem send401Auth_one {message : Bytes} (h : message.length ≤ 366) :
    OneResponse 401 (errorPayload message) fun stack => send401Auth stack message := by
  have hlength : printInt (toInt32 (message.length + 12)) = printNat (message.length + 12) := by
    have hvalue : toInt32 ((message.length : Int) + 12) = ((message.length + 12 : Nat) : Int) := by
      unfold toInt32
      omega
    rw [hvalue]
    rfl
  have hstatus : errorStatus 401 (str "Unauthorized") = str "HTTP/1.1 401 Unauthorized" := by decide
  have hfits : (errorText (str "HTTP/1.1 401 Unauthorized") _ message).length ≤ 511 :=
    (fits_iff (k := 366) (by decide) (by decide) fun _ => hlength).mpr h
  rw [← hstatus] at hfits
  have hone := sendFormatted_one (by decide)
    (isText_of_all (by decide : (str "Unauthorized").all isText = true)) hlength hfits
  rw [hstatus] at hone
  exact hone

theorem send404_one : OneResponse 404 (str "Not Found") fun _ : Nat → UInt8 => send404 := by
  have hplain : ∀ b ∈ str "text/plain", isText b = true := isText_of_all (by decide)
  have hneutral : ∀ f ∈ [contentTypeField _ hplain] ++ [closeField], f.Neutral := by
    intro f hf
    rcases List.mem_cons.mp hf with rfl | hf
    · exact neutral_contentType hplain
    · exact neutral_closing f (List.mem_cons_of_mem _ hf)
  refine oneResponse_of_head (by decide)
    (isText_of_all (by decide : (str "Not Found").all isText = true)) hneutral fun _ => ?_
  rw [headText_typed hplain]
  decide

/-- What closes the connection in the head of `handle_options`. -/
def preflightBack (methods headers : Bytes) : List Field :=
  if methods = str "GET, OPTIONS" ∧ headers = str "Content-Type" then [closeField] else []

theorem preflight_one {methods headers : Bytes} (h : (methods, headers) ∈ preflights) :
    OneResponse 200 [] fun _ : Nat → UInt8 => preflightText methods headers := by
  have hall : preflights.all (fun m => m.1.all isText && m.2.all isText) = true := by decide
  have hplain := List.all_eq_true.mp hall _ h
  rw [Bool.and_eq_true] at hplain
  have hmethods : ∀ b ∈ methods, isText b = true := isText_of_all hplain.1
  have hheaders : ∀ b ∈ headers, isText b = true := isText_of_all hplain.2
  have hneutral : ∀ f ∈ [allowOriginField, allowMethodsField methods hmethods,
      allowHeadersField headers hheaders] ++ preflightBack methods headers, f.Neutral := by
    intro f hf
    simp only [List.cons_append, List.nil_append, List.mem_cons] at hf
    rcases hf with rfl | rfl | rfl | hf
    · exact neutral_closing _ List.mem_cons_self
    · exact neutral_allowMethods hmethods
    · exact neutral_allowHeaders hheaders
    · unfold preflightBack at hf
      split at hf
      · exact neutral_closing f (List.mem_cons_of_mem _ hf)
      · exact absurd hf List.not_mem_nil
  refine oneResponse_of_head (by decide)
    (isText_of_all (by decide : (str "OK").all isText = true)) hneutral fun _ => ?_
  have hone : str "HTTP/1.1 200 OK\r\nAccess-Control-Allow-Origin: *\r\nAccess-Control-Allow-Methods: "
      = statusText 200 (str "OK") ++ (crlf ++ (allowOriginField.line ++ (crlf
        ++ (str "Access-Control-Allow-Methods" ++ str ": ")))) := by decide
  have htwo : str "\r\nAccess-Control-Allow-Headers: "
      = crlf ++ (str "Access-Control-Allow-Headers" ++ str ": ") := by decide
  have hthree : str "\r\nContent-Length: 0\r\n" = crlf ++ ((Field.length 0).line ++ crlf) := by decide
  have hback : (if methods = str "GET, OPTIONS" ∧ headers = str "Content-Type" then
      str "Connection: close\r\n" else []) = lineTexts ((preflightBack methods headers).map Field.line) := by
    unfold preflightBack
    split
    · decide
    · rfl
  rw [preflightText, hback, hone, htwo, hthree]
  simp only [headText, lineTexts, List.map_cons, List.map_append, List.map_nil, List.flatMap_cons,
    List.flatMap_append, List.flatMap_nil, allowMethodsField, allowHeadersField, line_printed,
    List.append_assoc, List.append_nil, List.length_nil]
  rfl

/-- **An answer is one response on the wire.** -/
theorem wire_one {r : Response} (h : r.Sendable) (hsize : r.payload.length < 2 ^ 64) :
    OneResponse r.status r.payload fun stack => r.wire stack := by
  cases r with
  | json status body => exact sendJson_one h hsize
  | error message => exact sendError_one h
  | notFound => exact send404_one
  | unauthorized message => exact send401Auth_one h
  | ok contentType data => exact sendResponse_one h hsize
  | preflight methods headers => exact preflight_one h

/-! ## Every request is answered once -/

/-- One answer, that can be sent; the answer to a deletion has no payload. -/
def Answers (o : Outcome) : Prop := ∃ r, o.replies = [r] ∧ (r.Sendable ∨ r = .json 204 [])

theorem answers_answer {ds : DatasourceList} {r : Response} (h : r.Sendable) :
    Answers (answer ds r) := ⟨r, rfl, Or.inl h⟩

theorem sendable_json {status : Nat} {body : Bytes}
    (h : status ∈ [200, 201, 400, 404, 409, 413, 500]) : (Response.json status body).Sendable := h

theorem handleLogin_sendable (env : Env) (body : Bytes) : (handleLogin env body).Sendable := by
  unfold handleLogin
  dsimp only
  split
  · show (cstr _).length ≤ 366
    decide
  split
  · show (cstr _).length ≤ 366
    decide
  split
  · show (cstr _).length ≤ 366
    decide
  split
  · exact sendable_json (by decide)
  · exact sendable_json (by decide)

theorem routeLogin_sendable (env : Env) (buffer : Bytes) : (routeLogin env buffer).Sendable := by
  unfold routeLogin
  split
  · split
    · exact handleLogin_sendable ..
    · exact sendable_json (by decide)
  split
  · show _ ∈ preflights
    decide
  · trivial

theorem routeVerify_sendable (env : Env) (buffer : Bytes) : (routeVerify env buffer).Sendable := by
  unfold routeVerify
  split
  · show _ ∈ preflights
    decide
  split
  · split
    · exact sendable_json (by decide)
    · show (cstr _).length ≤ 366
      decide
  · trivial

theorem getMimeType_mem (path : Bytes) : getMimeType path ∈ mediaTypes := by
  unfold getMimeType
  split
  · decide
  split
  · decide
  split
  · decide
  split
  · decide
  split
  · decide
  split
  · decide
  · decide

theorem getApiContentType_mem (endpoint : Bytes) : getApiContentType endpoint ∈ mediaTypes := by
  unfold getApiContentType
  split
  · decide
  · decide

section

variable {env : Env} {ds : DatasourceList}

theorem serveStaticFile_answers (path : Bytes) : Answers (serveStaticFile env ds path) := by
  unfold serveStaticFile
  dsimp only
  split
  · exact ⟨_, rfl, Or.inl trivial⟩
  split
  · refine ⟨_, rfl, Or.inl ?_⟩
    show (cstr _).length ≤ 367
    decide
  · exact ⟨_, rfl, Or.inl (getMimeType_mem path)⟩

theorem handlePostDatasource_answers (body : Bytes) : Answers (handlePostDatasource ds body) := by
  unfold handlePostDatasource
  dsimp only
  split
  · exact answers_answer (sendable_json (by decide))
  split
  · exact answers_answer (sendable_json (by decide))
  · exact answers_answer (sendable_json (by decide))
  · exact answers_answer (sendable_json (by decide))
  · exact ⟨_, rfl, Or.inl (sendable_json (by decide))⟩

theorem handleDeleteDatasource_answers (name : Bytes) : Answers (handleDeleteDatasource ds name) := by
  unfold handleDeleteDatasource
  split
  · exact ⟨_, rfl, Or.inr rfl⟩
  · exact answers_answer (sendable_json (by decide))

theorem handleSetDefault_answers (name : Bytes) : Answers (handleSetDefault ds name) := by
  unfold handleSetDefault
  split
  · exact ⟨_, rfl, Or.inl (sendable_json (by decide))⟩
  · exact answers_answer (sendable_json (by decide))

/-- A method that the list itself does not have. -/
def OtherMethod (buffer : Bytes) : Prop :=
  startsWith buffer (str "GET ") = false ∧ startsWith buffer (str "POST ") = false
    ∧ startsWith buffer (str "OPTIONS ") = false

theorem routeDatasources_answers (path buffer : Bytes) :
    Answers (routeDatasources ds path buffer)
      ∨ ((path = str "/_datasources" ∧ OtherMethod buffer)
        ∧ (routeDatasources ds path buffer).replies = []) := by
  unfold routeDatasources
  split
  · rename_i hpath
    split
    · exact Or.inl ⟨_, rfl, Or.inl (sendable_json (by decide))⟩
    rename_i hget
    split
    · split
      · exact Or.inl (handlePostDatasource_answers _)
      · exact Or.inl (answers_answer (sendable_json (by decide)))
    rename_i hpost
    split
    · exact Or.inl (answers_answer (show _ ∈ preflights by decide))
    · rename_i hoptions
      exact Or.inr ⟨⟨hpath, by simpa using hget, by simpa using hpost, by simpa using hoptions⟩, rfl⟩
  · left
    dsimp only
    split
    · exact handleDeleteDatasource_answers _
    split
    · exact handleSetDefault_answers _
    split
    · exact answers_answer (show _ ∈ preflights by decide)
    · exact answers_answer trivial

/-- The backends say what is wrong in a few words. -/
def Brief (env : Env) : Prop :=
  ∀ host port params resp, env.lsrpClientSend host port params = some resp → resp.status ≠ 0 →
    (cstr resp.data).length ≤ 367

theorem forward_answers {buffer params : Bytes} {relay : LsrpResponse → Response}
    (hrelay : ∀ host port resp, env.lsrpClientSend host port params = some resp →
      (relay resp).Sendable) : Answers (forward env ds buffer params relay) := by
  unfold forward
  split
  · exact answers_answer (sendable_json (by decide))
  split
  · refine ⟨_, rfl, Or.inl ?_⟩
    show (cstr _).length ≤ 367
    decide
  · rename_i resp hresp
    exact ⟨_, rfl, Or.inl (hrelay _ _ resp hresp)⟩

theorem grafanaForward_answers (buffer params : Bytes) :
    Answers (grafanaForward env ds buffer params) := by
  refine forward_answers fun _ _ resp _ => ?_
  split
  · exact show _ ∈ mediaTypes by decide
  · exact sendable_json (by decide)

theorem handleGrafana_answers (path buffer : Bytes) : Answers (handleGrafana env ds path buffer) := by
  unfold handleGrafana
  dsimp only
  split
  · exact answers_answer (show _ ∈ preflights by decide)
  split
  · exact answers_answer (sendable_json (by decide))
  split
  · exact answers_answer trivial
  split
  · exact grafanaForward_answers ..
  split
  · split
    · exact answers_answer (sendable_json (by decide))
    · split
      · exact answers_answer (sendable_json (by decide))
      · exact grafanaForward_answers ..
  split
  · exact answers_answer (sendable_json (by decide))
  · exact answers_answer (sendable_json (by decide))

theorem forwardMetric_answers (hbrief : Brief env) (buffer : Bytes) :
    Answers (forwardMetric env ds buffer) := by
  unfold forwardMetric
  split
  · refine answers_answer ?_
    show (cstr _).length ≤ 367
    decide
  · refine forward_answers fun host port resp hresp => ?_
    split
    · exact getApiContentType_mem _
    · rename_i hstatus
      exact hbrief host port _ resp hresp hstatus

theorem route_answers (hbrief : Brief env) (path buffer : Bytes) :
    Answers (route env ds path buffer)
      ∨ ((path = str "/_datasources" ∧ OtherMethod buffer)
        ∧ (route env ds path buffer).replies = []) := by
  unfold route
  split
  · exact Or.inl (handleGrafana_answers ..)
  split
  · exact routeDatasources_answers ..
  split
  · exact Or.inl (serveStaticFile_answers _)
  · exact Or.inl (forwardMetric_answers hbrief _)

/-- The requests that are not answered. -/
def Unanswered (received : Bytes) : Prop :=
  received = [] ∨ (extractPath (cstr received) = some (str "/_datasources")
    ∧ OtherMethod (cstr received))

/-- Every other request is answered once. -/
theorem handleRequest_answers (hbrief : Brief env) (received : Bytes) :
    Answers (handleRequest env ds received)
      ∨ (Unanswered received ∧ (handleRequest env ds received).replies = []) := by
  unfold handleRequest
  split
  · rename_i hnil
    exact Or.inr ⟨Or.inl hnil, rfl⟩
  dsimp only
  cases hpath : extractPath (cstr received) with
  | none =>
      refine Or.inl (answers_answer ?_)
      show (cstr _).length ≤ 367
      decide
  | some path =>
      dsimp only
      split
      · exact Or.inl (answers_answer (routeLogin_sendable ..))
      split
      · exact Or.inl (answers_answer (routeVerify_sendable ..))
      split
      · exact Or.inl (answers_answer (show _ ∈ preflights by decide))
      split
      · refine Or.inl (answers_answer ?_)
        show (cstr _).length ≤ 366
        decide
      rcases route_answers hbrief path (cstr received) with h | ⟨⟨rfl, hmethods⟩, hnone⟩
      · exact Or.inl h
      · exact Or.inr ⟨Or.inr ⟨hpath, hmethods⟩, hnone⟩

end

/-! ## Errors of a backend are short -/

theorem handlerRoute_refused {config : Backend.ServerConfig} {endpoint message : Bytes} {period : Int}
    (h : Backend.handlerRoute config endpoint period = .refused message) : message.length ≤ 255 := by
  unfold Backend.handlerRoute at h
  split at h
  · exact absurd h (by simp)
  split at h
  · exact absurd h (by simp)
  split at h
  · exact absurd h (by simp)
  split at h
  · rw [← Backend.Route.refused.inj h]
    exact length_snprintf_le 256 _
  split at h
  · split at h
    · rw [← Backend.Route.refused.inj h]
      exact length_snprintf_le 256 _
    · exact absurd h (by simp)
  · exact absurd h (by simp)

theorem renderResult_brief (env : Backend.HandlerEnv) (job : Backend.RenderJob)
    (m : Backend.MetricConfig) (data : Option Backend.MetricData)
    (h : (Backend.renderResult env job m data).status ≠ 0) :
    (Backend.renderResult env job m data).data.length ≤ 255 := by
  unfold Backend.renderResult at h ⊢
  cases data with
  | none =>
      show (str "Failed to fetch metric data").length ≤ 255
      decide
  | some data =>
      dsimp only at h ⊢
      cases hsvg : env.generateSvg { data with metricConfig := m } job.width job.height job.theme with
      | none =>
          show (str "Failed to generate SVG").length ≤ 255
          decide
      | some svg =>
          rw [hsvg] at h
          exact absurd rfl h

theorem readQuery_brief {env : Backend.GrafanaEnv} {query : Option Bytes}
    {r : Backend.HandlerResult} {st st' : List Backend.DukVal}
    (h : Backend.readQuery env query st = some (.error r, st')) : r.data.length ≤ 255 := by
  have hpure : ∀ message : Bytes, message.length ≤ 255 →
      (pure (.error (Backend.errorResult message)) :
        Backend.Duk (Except Backend.HandlerResult (List Bytes × Int))) st = some (.error r, st') →
      r.data.length ≤ 255 := by
    intro message hshort h
    cases h
    exact hshort
  unfold Backend.readQuery at h
  cases query with
  | none => exact hpure _ (by decide) h
  | some query =>
      dsimp only at h
      cases hbody : Backend.handlerGetParam query (str "body") with
      | none =>
          rw [hbody] at h
          exact hpure _ (by decide) h
      | some enc =>
          rw [hbody] at h
          dsimp only at h
          by_cases hcontext : env.hasContext = true
          · rw [if_pos hcontext] at h
            unfold Backend.readBody at h
            obtain ⟨⟨⟩, st₁, -, h⟩ := Stacked.bind_some h
            obtain ⟨ok, st₂, -, h⟩ := Stacked.bind_some h
            cases ok with
            | true =>
                obtain ⟨q, st₃, -, h⟩ := Stacked.bind_some h
                cases h
            | false =>
                obtain ⟨⟨⟩, st₃, -, h⟩ := Stacked.bind_some h
                cases h
                decide
          · rw [if_neg hcontext] at h
            exact hpure _ (by decide) h

theorem grafanaQuery_brief {env : Backend.GrafanaEnv} {query : Option Bytes}
    {r : Backend.HandlerResult} {st st' : List Backend.DukVal}
    (h : Backend.grafanaQuery env query st = some (r, st')) (hstatus : r.status ≠ 0) :
    r.data.length ≤ 255 := by
  unfold Backend.grafanaQuery at h
  obtain ⟨read, st₁, hread, h⟩ := Stacked.bind_some h
  cases read with
  | error e =>
      cases h
      exact readQuery_brief hread
  | ok q =>
      cases h
      exact absurd rfl hstatus

/-- **An error of the handler is short.** -/
theorem handlerProcess_brief {env : Backend.HandlerEnv} {args : Backend.HandlerArgs} {u : Bool}
    {cache cache' : Backend.Cache} {r : Backend.HandlerResult} {st : List Backend.DukVal}
    (h : Backend.handlerProcess env args u cache [] = some ((r, cache'), st))
    (hstatus : r.status ≠ 0) : r.data.length ≤ 255 := by
  unfold Backend.handlerProcess at h
  dsimp only at h
  cases hroute : Backend.handlerRoute env.config (Backend.renderJob env.config args).endpoint
      (Backend.renderJob env.config args).period with
  | metricsConfig =>
      rw [hroute] at h
      cases hjson : env.metricsJson with
      | none =>
          rw [hjson] at h
          cases h
          decide
      | some json =>
          rw [hjson] at h
          cases h
          exact absurd rfl hstatus
  | grafanaSearch =>
      rw [hroute] at h
      cases h
      exact absurd rfl hstatus
  | grafanaQuery =>
      rw [hroute] at h
      obtain ⟨r', st', hquery, hpure⟩ := Stacked.bind_some h
      cases hpure
      exact grafanaQuery_brief hquery hstatus
  | refused message =>
      rw [hroute] at h
      cases h
      exact handlerRoute_refused hroute
  | fetch req =>
      rw [hroute] at h
      cases h
      exact renderResult_brief _ _ _ _ hstatus

theorem length_cstr_le (s : Bytes) : (cstr s).length ≤ s.length :=
  (List.takeWhile_sublist _).length_le

/-- **The backends of a deployment are brief.** -/
theorem brief_deployment (d : Deployment) {a : Arrival} (hlsrp : a.lsrp.Lawful) : Brief (d.env a) := by
  intro host port params resp hresp hstatus
  obtain ⟨reply, left, hserve, rfl⟩ := Deployment.lsrpClientSend_some hlsrp hresp
  refine Nat.le_trans (length_cstr_le _) ?_
  show reply.data.length ≤ 367
  cases hprocess : d.fleet (host, port) with
  | none =>
      rw [hprocess] at hserve
      exact absurd hserve (by simp [Ask.serve])
  | some cache =>
      rw [hprocess] at hserve
      have hserve : (Backend.lsrpHandler (a.world (host, port)) params cache []).map Prod.fst
          = some (reply, left) := hserve
      unfold Backend.lsrpHandler at hserve
      cases hargs : Backend.lsrpArgs params with
      | error message =>
          rw [hargs] at hserve
          obtain ⟨rfl, -⟩ := Prod.mk.inj (Option.some.inj hserve)
          show message.length ≤ 367
          unfold Backend.lsrpArgs at hargs
          split at hargs
          · rw [← Except.error.inj hargs]
            decide
          · split at hargs
            · rw [← Except.error.inj hargs]
              decide
            · exact absurd hargs (by simp)
      | ok args =>
          rw [hargs] at hserve
          have hserve := (answered_eq (Backend.handlerProcess (a.world (host, port)) args true cache)
            fun r => Backend.LsrpReply.mk (if r.status = 0 then 0 else 1) r.data).symm.trans hserve
          obtain ⟨⟨result, left'⟩, hresult, hreply⟩ := Option.map_eq_some_iff.mp hserve
          obtain ⟨⟨-, st⟩, hrun, rfl⟩ := Option.map_eq_some_iff.mp hresult
          obtain ⟨rfl, rfl⟩ := Prod.mk.inj hreply
          have hfailed : result.status ≠ 0 := by
            intro h0
            exact hstatus (if_pos h0)
          have := handlerProcess_brief hrun hfailed
          show result.data.length ≤ 367
          omega

/--
**One request, one response.**

Whatever the gate receives, in whatever state it is, and whatever stands on its stack: if the
errors it hears of its backends are short, what it sends back is one HTTP response, with the
declared length and the status and payload of its answer, if the answer fits the memory of a
machine. A deletion is answered with a head only, and two requests are not answered.
-/
theorem one_response (env : Env) (hbrief : Brief env) (ds : DatasourceList) (received : Bytes)
    (hsize : ∀ r ∈ (handleRequest env ds received).replies, r.payload.length < 2 ^ 64) :
    (∃ r, (handleRequest env ds received).replies = [r]
        ∧ OneResponse r.status r.payload fun stack => (handleRequest env ds received).wire stack)
      ∨ ((handleRequest env ds received).replies = [.json 204 []]
        ∧ ∀ stack, (handleRequest env ds received).wire stack = jsonHeader 204 0)
      ∨ (Unanswered received ∧ ∀ stack, (handleRequest env ds received).wire stack = []) := by
  have hwire : ∀ {r : Response}, (handleRequest env ds received).replies = [r] →
      ∀ stack, (handleRequest env ds received).wire stack = r.wire stack := by
    intro r hr stack
    unfold Outcome.wire
    rw [hr, List.flatMap_singleton]
  rcases handleRequest_answers hbrief received with ⟨r, hr, hsend | rfl⟩ | ⟨hun, hnone⟩
  · refine Or.inl ⟨r, hr, ?_⟩
    obtain ⟨m, hcode, hframing, htext⟩ := wire_one hsend (hsize r (by rw [hr]; simp))
    exact ⟨m, hcode, hframing, fun stack => (hwire hr stack).trans (htext stack)⟩
  · refine Or.inr (Or.inl ⟨hr, fun stack => (hwire hr stack).trans ?_⟩)
    show sendBuffer 256 stack (jsonHeader 204 0) ++ [] = _
    rw [sendBuffer_of_fits (by decide +kernel) (by decide), List.append_nil]
  · refine Or.inr (Or.inr ⟨hun, fun stack => ?_⟩)
    unfold Outcome.wire
    rw [show (handleRequest env ds received).replies = [] from hnone]
    rfl

/-- The chart of the sample is one response. -/
theorem one_response_net : OneResponse 200 (str "<svg/>") fun stack =>
    (sampleDeployment.outcome sampleChart).wire stack := by
  have hreplies : (sampleDeployment.outcome sampleChart).replies
      = [.ok (str "image/svg+xml") (str "<svg/>")] := by decide +kernel
  have hpath : extractPath (cstr sampleChart.received) = some (str "/net") := by decide +kernel
  have hbrief : Brief (sampleDeployment.env sampleChart) :=
    brief_deployment sampleDeployment (Lsrp.lossless_reliable 0).toLawful
  have hsize : ∀ r ∈ (sampleDeployment.outcome sampleChart).replies, r.payload.length < 2 ^ 64 := by
    rw [hreplies]
    exact List.forall_mem_singleton.mpr (by decide)
  rcases one_response (sampleDeployment.env sampleChart) hbrief sampleDeployment.datasources
      sampleChart.received hsize with
    ⟨r, hr, hone⟩ | ⟨hdeleted, -⟩ | ⟨hun | hun, -⟩
  · obtain rfl : r = .ok (str "image/svg+xml") (str "<svg/>") :=
      (List.singleton_inj.mp (hr.symm.trans hreplies))
    exact hone
  · exact absurd (hdeleted.symm.trans hreplies) (by simp)
  · exact absurd hun (by decide)
  · exact absurd (hun.1.symm.trans hpath) (by decide)

end Svgd.Gate
