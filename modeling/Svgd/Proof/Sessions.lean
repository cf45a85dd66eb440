import Svgd.Gate.Session
import Svgd.Proof.Tokens
import Svgd.Lib.JsonForward

/-!
# Sessions

What a page can count on, whatever is delayed, reordered or lost: a token it holds was issued
for the right password, a call with it is admitted exactly until its lifetime ends, and only a
logout or an expired token ends a session.

The text of a token passes through four readers on its way: it is put into a JSON string, read
by the page, put into a header and cut out of the buffer again. It survives because it is made
of the base64 alphabet and a dot (`tokenChar`). The rest is an invariant over the flights: an
answer that refuses a call stays tied to a token that has expired.
-/

namespace Svgd.Gate

open Lib

/-- OpenSSL writes base64 in the standard alphabet. -/
structure OpenSSL.Standard (ssl : OpenSSL) : Prop extends ssl.RoundTrips where
  base64_chars : ∀ b, ∀ c ∈ ssl.base64 b, isBase64Char c = true ∨ c = ch '='

theorem OpenSSL.onSample_standard : OpenSSL.onSample.Standard where
  toRoundTrips := OpenSSL.onSample_roundTrips
  base64_chars b c hc := by
    have hc : c ∈ base64Text b := hc
    obtain ⟨body, k, heq, -, hbody⟩ := base64Text_shape b
    rw [heq, List.mem_append] at hc
    exact hc.imp (List.all_eq_true.mp hbody c) List.eq_of_mem_replicate

/-! ## The text of a token -/

/-- The characters of a token. -/
def tokenChar (c : UInt8) : Bool := isBase64Char c || c == ch '=' || c == ch '.'

/-- None of them means anything in a JSON string, in a header or in C. -/
theorem tokenChar_plain {c : UInt8} (h : tokenChar c = true) :
    c ≠ ch '"' ∧ c ≠ ch '\\' ∧ 0x20 ≤ c.toNat ∧ c.toNat < 0x80 := by
  have hall : ∀ n : Fin 256, tokenChar (UInt8.ofNat n) = true →
      UInt8.ofNat n ≠ ch '"' ∧ UInt8.ofNat n ≠ ch '\\' ∧ 0x20 ≤ (UInt8.ofNat n).toNat
        ∧ (UInt8.ofNat n).toNat < 0x80 := by decide +kernel
  have hc : UInt8.ofNat c.toNat = c := UInt8.ofNat_toNat
  have := hall ⟨c.toNat, c.toNat_lt⟩
  dsimp only at this
  rw [hc] at this
  exact this h

section

variable {ssl : OpenSSL} {auth : AuthConfig} {T : Int} {token : Bytes}

theorem mem_stripPadding {b : Bytes} {c : UInt8} (h : c ∈ stripPadding b) : c ∈ b := by
  unfold stripPadding at h
  rw [List.mem_reverse] at h
  exact List.mem_reverse.mp ((List.dropWhile_sublist _).subset h)

theorem tokenChar_of_created (hssl : ssl.Standard) (h : authCreateToken ssl auth T = some token) :
    ∀ c ∈ token, tokenChar c = true := by
  have hbase : ∀ b, ∀ c ∈ ssl.base64 b, tokenChar c = true := by
    intro b c hc
    unfold tokenChar
    rcases hssl.base64_chars b c hc with hc | rfl
    · simp [hc]
    · decide
  intro c hc
  rw [authCreateToken_some h, List.mem_append, List.mem_cons] at hc
  rcases hc with hc | rfl | hc
  · exact hbase _ c (mem_stripPadding hc)
  · decide
  · exact hbase _ c hc

theorem created_ne_nil (h : authCreateToken ssl auth T = some token) : token ≠ [] := by
  rw [authCreateToken_some h]
  simp

/-- How long a token lives, in seconds. -/
def AuthConfig.lifetime (auth : AuthConfig) : Int := auth.tokenExpiryDays * 86400

/-- **A token is valid exactly until its lifetime ends.** -/
theorem created_valid_iff (hssl : ssl.Standard) (hload : auth.loaded = true)
    (hdays : 1 ≤ auth.tokenExpiryDays ∧ auth.tokenExpiryDays ≤ 365) (hT : 0 ≤ T) (hT' : T < lastClock)
    (h : authCreateToken ssl auth T = some token) (t : Int) :
    authValidateToken ssl auth t token = true ↔ t ≤ T + auth.lifetime := by
  unfold lastClock at hT'
  unfold AuthConfig.lifetime
  rw [created_accepted_iff hssl.toRoundTrips hload rfl hT (by omega) h,
    tokenExpiry_eq (by omega) hT (by omega)]

/-! ## The page reads it -/

/-- The text the gate makes of a token is an object with that token in it. -/
theorem decodeJson_token (hchars : ∀ c ∈ token, tokenChar c = true) :
    decodeJson (str "\x7b\"token\":\"" ++ token ++ str "\"\x7d")
      = some (.obj [(str "token", .str token)]) := by
  have htext : str "\x7b\"token\":\"" ++ token ++ str "\"\x7d" = ch '\x7b' ::
      (commaJoin ([stringMember (str "token") token (by decide)].map Member.full) ++ [ch '\x7d']) := by
    have hopen : str "\x7b\"token\":\"" = ch '\x7b' :: ch '"' :: (str "token"
      ++ ch '"' :: ch ':' :: [ch '"']) := rfl
    have hclose : str "\"\x7d" = [ch '"', ch '\x7d'] := rfl
    rw [hopen, hclose]
    simp only [commaJoin, stringMember, Member.full, quoted, List.map_cons, List.map_nil,
      List.append_assoc, List.cons_append, List.nil_append]
  have hplain : JsonPlain token := fun c hc =>
    ⟨(tokenChar_plain (hchars c hc)).1, (tokenChar_plain (hchars c hc)).2.1,
      (tokenChar_plain (hchars c hc)).2.2.1⟩
  have hutf : validUtf8 (str "\x7b\"token\":\"" ++ token ++ str "\"\x7d") = true := by
    refine (utf8Piece_ascii (List.all_eq_true.mpr fun c hc => ?_)).valid.mpr trivial
    have hends : (str "\x7b\"token\":\"" ++ str "\"\x7d").all (·.toNat < 0x80) = true := by decide
    rw [List.mem_append, List.mem_append] at hc
    rcases hc with (hc | hc) | hc
    · exact List.all_eq_true.mp hends c (List.mem_append_left _ hc)
    · exact decide_eq_true (tokenChar_plain (hchars c hc)).2.2.2
    · exact List.all_eq_true.mp hends c (List.mem_append_right _ hc)
  rw [htext] at hutf ⊢
  refine (readsAs_object (stringMember (str "token") token (by decide)) []).decode.mpr ⟨?_, hutf⟩
  intro x hx
  rw [List.mem_singleton] at hx
  rw [hx]
  exact hplain

/-- The page finds the token in that text. -/
theorem response_token_json (hchars : ∀ c ∈ token, tokenChar c = true) (hne : token ≠ []) :
    (Response.json 200 (str "\x7b\"token\":\"" ++ token ++ str "\"\x7d")).token = some token := by
  have hmember : Json.member [(str "token", Json.str token)] (str "token") = some (.str token) := rfl
  have hok : ∀ body, (Response.json 200 body).okBody = some body := fun _ => rfl
  unfold Response.token
  rw [hok, Option.bind_some, decodeJson_token hchars]
  dsimp only
  rw [hmember]
  exact if_neg hne

/-! ## The gate reads it -/

variable (c : ApiCall)

theorem ApiCall.cstr_request (hchars : ∀ c ∈ token, tokenChar c = true) :
    cstr (c.request token) = (browserLine c.method.text c.url c.method.token).request
      (c.before ++ (bearer ++ (token ++ (str "\r\n" ++ cstr c.after)))) := by
  have htoken : (0 : UInt8) ∉ token := by
    intro h0
    have := (tokenChar_plain (hchars _ h0)).2.2.1
    exact absurd this (by decide)
  unfold ApiCall.request
  rw [Svgd.Gate.cstr_request, cstr_append c.before_no_nul, cstr_append (by decide),
    cstr_append htoken, cstr_append (by decide)]

theorem ApiCall.extractAuthToken_request (hchars : ∀ c ∈ token, tokenChar c = true) :
    extractAuthToken (cstr (c.request token)) = some token := by
  have hctl : ∀ b : UInt8, b.toNat < 0x20 → b ∉ token := by
    intro b hb hm
    have := (tokenChar_plain (hchars b hm)).2.2.1
    omega
  have hcr : strchr (token ++ (str "\r\n" ++ cstr c.after)) (ch '\r')
      = some (str "\r\n" ++ cstr c.after) := strchr_append (hctl _ (by decide))
  have hlf : strchr (token ++ (str "\r\n" ++ cstr c.after)) (ch '\n')
      = some (ch '\n' :: cstr c.after) := by
    rw [strchr_skip (hctl _ (by decide))]
    exact strchr_append (p := [ch '\r']) (by decide)
  have hfirst : firstStop (some (str "\r\n" ++ cstr c.after)) (some (ch '\n' :: cstr c.after))
      = some (str "\r\n" ++ cstr c.after) := by
    have hlen : (str "\r\n").length = 2 := rfl
    rw [firstStop, if_neg (by rw [List.length_append, List.length_cons, hlen]; omega)]
  have hlen : bearer.length = 22 := rfl
  unfold extractAuthToken
  rw [c.cstr_request hchars]
  have hfind := c.first (token ++ (str "\r\n" ++ cstr c.after))
  unfold bearer at hfind hlen ⊢
  rw [hfind]
  dsimp only
  rw [← hlen, List.drop_left, hcr, hlf, hfirst]
  dsimp only
  rw [upTo_append]

/-- **A call is routed if its token is valid, and refused if not.** -/
theorem handleRequest_call (env : Env) (ds : DatasourceList)
    (hchars : ∀ c ∈ token, tokenChar c = true) :
    handleRequest env ds (c.request token)
      = if authValidateToken env.ssl env.auth env.now token then
          route env ds (Url.pathText c.url) (cstr (c.request token))
        else answer ds (.unauthorized (str "Missing or invalid token")) := by
  have hpath : extractPath (cstr (c.request token)) = some (Url.pathText c.url) := by
    refine extractPath_browserLine fun t => ?_
    cases c.method <;> rfl
  have hne : c.request token ≠ [] := by
    intro hnil
    have hnone : extractPath (cstr []) = none := rfl
    rw [hnil, hnone] at hpath
    cases hpath
  have hopt : startsWith (cstr (c.request token)) (str "OPTIONS ") = false := by
    rw [c.cstr_request hchars]
    unfold browserLine RequestLine.request
    dsimp only
    cases c.method <;> rfl
  have hnot : ∀ other, requiresAuth other = false → Url.pathText c.url ≠ other := by
    intro other hother heq
    have := c.api
    rw [heq, hother] at this
    exact absurd this (by simp)
  have htoken : hasValidToken env (cstr (c.request token))
      = authValidateToken env.ssl env.auth env.now token := by
    unfold hasValidToken
    rw [c.extractAuthToken_request hchars]
  unfold handleRequest
  rw [if_neg hne]
  dsimp only
  rw [hpath]
  dsimp only
  rw [if_neg (hnot _ (by decide)), if_neg (hnot _ (by decide)), if_neg (by simp [hopt]), c.api, htoken]
  cases authValidateToken env.ssl env.auth env.now token with
  | false => rfl
  | true => rfl

end

/-! ## Only the token check refuses -/

/-- Whatever is answered, it is not a 401. -/
def Outcome.Admits (o : Outcome) : Prop := ∀ r, Effect.respond r ∈ o.effects → r.status ≠ 401

theorem admits_answer {ds : DatasourceList} {r : Response} (h : r.status ≠ 401) :
    (answer ds r).Admits := by
  intro r' hr
  obtain rfl : r' = r := by simpa [answer] using hr
  exact h

theorem admits_forward {env : Env} {ds : DatasourceList} {buffer params : Bytes}
    {relay : LsrpResponse → Response} (h : ∀ resp, (relay resp).status ≠ 401) :
    (forward env ds buffer params relay).Admits := by
  unfold forward
  split
  · exact admits_answer (by simp [datasourceNotFound, Response.status])
  split
  · intro r hr
    obtain rfl : r = .error (str "Failed to communicate with svgd service") := by simpa using hr
    simp [Response.status]
  · intro r hr
    obtain rfl : r = relay _ := by simpa using hr
    exact h _

theorem admits_grafanaForward (env : Env) (ds : DatasourceList) (buffer params : Bytes) :
    (grafanaForward env ds buffer params).Admits := by
  refine admits_forward fun resp => ?_
  split <;> simp [Response.status]

theorem admits_handleGrafana (env : Env) (ds : DatasourceList) (path buffer : Bytes) :
    (handleGrafana env ds path buffer).Admits := by
  unfold handleGrafana
  dsimp only
  split
  · exact admits_answer (by simp [Response.status])
  split
  · exact admits_answer (by simp [Response.status])
  split
  · exact admits_answer (by simp [Response.status])
  split
  · exact admits_grafanaForward _ _ _ _
  split
  · split
    · exact admits_answer (by simp [Response.status])
    split
    · exact admits_answer (by simp [Response.status])
    · exact admits_grafanaForward _ _ _ _
  split <;> exact admits_answer (by simp [Response.status])

/-- What is saved and then answered. -/
theorem admits_saved {ds : DatasourceList} {text : Bytes} {r : Response} (h : r.status ≠ 401) :
    (⟨[.saved text, .respond r], ds⟩ : Outcome).Admits := by
  intro r' hr
  obtain rfl : r' = r := by simpa using hr
  exact h

theorem admits_handlePostDatasource (ds : DatasourceList) (body : Bytes) :
    (handlePostDatasource ds body).Admits := by
  unfold handlePostDatasource
  dsimp only
  split
  · exact admits_answer (by simp [Response.status])
  split
  · exact admits_answer (by simp [Response.status])
  · exact admits_answer (by simp [Response.status])
  · exact admits_answer (by simp [Response.status])
  · exact admits_saved (by simp [Response.status])

theorem admits_routeDatasources (ds : DatasourceList) (path buffer : Bytes) :
    (routeDatasources ds path buffer).Admits := by
  unfold routeDatasources
  split
  · split
    · intro r hr
      obtain rfl : r = .json 200 (listDatasources ds) := by simpa [handleGetDatasources] using hr
      simp [Response.status]
    split
    · split
      · exact admits_handlePostDatasource _ _
      · exact admits_answer (by simp [Response.status])
    split
    · exact admits_answer (by simp [Response.status])
    · intro r hr
      simp at hr
  · dsimp only
    split
    · unfold handleDeleteDatasource
      split
      · exact admits_saved (by simp [Response.status])
      · exact admits_answer (by simp [datasourceNotFound, Response.status])
    split
    · unfold handleSetDefault
      split
      · exact admits_saved (by simp [Response.status])
      · exact admits_answer (by simp [datasourceNotFound, Response.status])
    split <;> exact admits_answer (by simp [Response.status])

/-- **No route answers 401**: a refusal comes from the token check alone. -/
theorem admits_route (env : Env) (ds : DatasourceList) (path buffer : Bytes) :
    (route env ds path buffer).Admits := by
  unfold route
  split
  · exact admits_handleGrafana _ _ _ _
  split
  · exact admits_routeDatasources _ _ _
  split
  · unfold serveStaticFile
    dsimp only
    split
    · intro r hr
      obtain rfl : r = .notFound := by simpa using hr
      simp [Response.status]
    split
    · intro r hr
      obtain rfl : r = .error (str "File too large") := by simpa using hr
      simp [Response.status]
    · intro r hr
      obtain rfl : r = .ok _ _ := by simpa using hr
      simp [Response.status]
  · unfold forwardMetric
    split
    · exact admits_answer (by simp [Response.status])
    · refine admits_forward fun resp => ?_
      split <;> simp [Response.status]

theorem reply_mem {o : Outcome} {r : Response} (h : o.reply = some r) : Effect.respond r ∈ o.effects := by
  obtain ⟨e, he, heq⟩ := List.exists_of_findSome?_eq_some h
  cases e with
  | respond r' =>
      obtain rfl := Option.some.inj heq
      exact he
  | _ => cases heq

/-! ## Logins -/

/-- The password opens the gate: the reader finds one, and it is the stored one. -/
def Opens (auth : AuthConfig) (q : JsString) : Prop :=
  loginPassword (loginBody q) ≠ [] ∧ loginPassword (loginBody q) = auth.password

theorem handleRequest_login (env : Env) (ds : DatasourceList) (l : LoginCall) :
    handleRequest env ds l.text = answer ds (handleLogin env (loginBody l.password)) := by
  obtain ⟨hpath, hpost, hbody⟩ := l.is_login
  have hne : l.text ≠ [] := by
    intro hnil
    rw [hnil] at hpost
    exact absurd hpost (by decide)
  unfold handleRequest
  rw [if_neg hne]
  dsimp only
  rw [hpath]
  dsimp only
  rw [if_pos rfl, routeLogin, if_pos hpost, hbody]

/-- **A login is answered with a token exactly if its password opens the gate**, and the token is
the one created at that moment. -/
theorem handleLogin_token_iff {env : Env} (hssl : env.ssl.Standard) (hload : env.auth.loaded = true)
    {q : JsString} {token : Bytes} :
    (handleLogin env (loginBody q)).token = some token
      ↔ Opens env.auth q ∧ authCreateToken env.ssl env.auth env.now = some token := by
  obtain ⟨created, hcreated⟩ := authCreateToken_isSome hssl.toLawful hload env.now
  have hnone : ∀ m, (Response.unauthorized m).token = none := fun _ => rfl
  -- the answer buffer has room for every token
  have hfit : snprintf (maxTokenSize + 64) (str "\x7b\"token\":\"" ++ created ++ str "\"\x7d")
      = str "\x7b\"token\":\"" ++ created ++ str "\"\x7d" := by
    refine snprintf_of_lt ?_
    have hlen := length_of_authCreateToken hcreated
    have hopen : (str "\x7b\"token\":\"").length = 10 := by decide
    have hclose : (str "\"\x7d").length = 2 := by decide
    rw [List.length_append, List.length_append, hopen, hclose, maxTokenSize]
    omega
  unfold handleLogin Opens
  rw [if_neg (by simp [hload])]
  dsimp only
  by_cases hgiven : loginPassword (loginBody q) = []
  · rw [if_pos hgiven, hnone]
    simp [hgiven]
  rw [if_neg hgiven]
  by_cases hpass : authVerifyPassword env.auth (loginPassword (loginBody q)) = true
  · rw [if_neg (by simp [hpass]), hcreated]
    dsimp only
    rw [hfit, response_token_json (tokenChar_of_created hssl hcreated) (created_ne_nil hcreated)]
    have hsame := (authVerifyPassword_iff hload).mp hpass
    exact ⟨fun h => ⟨⟨hgiven, hsame⟩, h⟩, fun h => h.2⟩
  · rw [if_pos (by simpa using hpass), hnone]
    simp only [reduceCtorEq, false_iff, not_and]
    intro hopens
    exact absurd ((authVerifyPassword_iff hload).mpr hopens.2) hpass

/-! ## The invariant -/

section

variable (ssl : OpenSSL) (auth : AuthConfig)

/-- The token was issued at a time on record. -/
def Issued (ledger : List (Int × JsString)) (token : Bytes) : Prop :=
  ∃ e ∈ ledger, authCreateToken ssl auth e.1 = some token

/-- And so long ago that its lifetime is over. -/
def Expired (clock : Int) (ledger : List (Int × JsString)) (token : Bytes) : Prop :=
  ∃ e ∈ ledger, authCreateToken ssl auth e.1 = some token ∧ e.1 + auth.lifetime < clock

/-- What is known of a flight. -/
def Flight.Sound (clock : Int) (ledger : List (Int × JsString)) : Flight → Prop
  | .login _ => True
  | .call _ token => Issued ssl auth ledger token
  | .loginReply r => ∀ token, r.token = some token → Issued ssl auth ledger token
  | .callReply token r => r.status = 401 → Expired ssl auth clock ledger token

/-- The session invariant. -/
structure SessionInv (w : SessionWorld) : Prop where
  clock : 0 ≤ w.clock ∧ w.clock < lastClock
  ledger : ∀ e ∈ w.ledger, 0 ≤ e.1 ∧ e.1 ≤ w.clock ∧ Opens auth e.2
  stored : ∀ token, w.stored = some token → Issued ssl auth w.ledger token
  flights : ∀ f ∈ w.flights, f.Sound ssl auth w.clock w.ledger

end

section

variable {ssl : OpenSSL} {auth : AuthConfig} {w : SessionWorld}

theorem Issued.mono {ledger ledger' : List (Int × JsString)} {token : Bytes} (hsub : ledger ⊆ ledger')
    (h : Issued ssl auth ledger token) : Issued ssl auth ledger' token := by
  obtain ⟨e, he, hcreated⟩ := h
  exact ⟨e, hsub he, hcreated⟩

theorem Flight.Sound.mono {f : Flight} {clock clock' : Int} {ledger ledger' : List (Int × JsString)}
    (hclock : clock ≤ clock') (hsub : ledger ⊆ ledger') (h : f.Sound ssl auth clock ledger) :
    f.Sound ssl auth clock' ledger' := by
  cases f with
  | login l => trivial
  | call c token => exact Issued.mono hsub h
  | loginReply r => exact fun token ht => Issued.mono hsub (h token ht)
  | callReply token r =>
      intro hr
      obtain ⟨e, he, hcreated, hlt⟩ := h hr
      exact ⟨e, hsub he, hcreated, by omega⟩

/-- A flight of the world behind a request is an old one, or the answer. -/
theorem mem_served_flights {i : Nat} {o : Outcome} {back : Response → Flight} {f : Flight}
    (h : f ∈ (w.served i o back).flights) : f ∈ w.flights ∨ ∃ r, o.reply = some r ∧ f = back r := by
  unfold SessionWorld.served at h
  dsimp only at h
  split at h
  · rename_i r hr
    rcases List.mem_or_eq_of_mem_set h with h | h
    · exact Or.inl h
    · exact Or.inr ⟨r, hr, h⟩
  · exact Or.inl (List.mem_of_mem_eraseIdx h)

theorem answer_reply (ds : DatasourceList) (r : Response) : (answer ds r).reply = some r := rfl

/-- **The verdict on a call**: it is routed until its token expires, and refused from then on. -/
theorem verdict (hssl : ssl.Standard) (hload : auth.loaded = true)
    (hdays : 1 ≤ auth.tokenExpiryDays ∧ auth.tokenExpiryDays ≤ 365) (hinv : SessionInv ssl auth w)
    (c : ApiCall) {e : Int × JsString} (he : e ∈ w.ledger) {token : Bytes}
    (hcreated : authCreateToken ssl auth e.1 = some token) (env : Env) :
    handleRequest (w.env ssl auth env) w.datasources (c.request token)
      = if w.clock ≤ e.1 + auth.lifetime then
          route (w.env ssl auth env) w.datasources (Url.pathText c.url) (cstr (c.request token))
        else answer w.datasources (.unauthorized (str "Missing or invalid token")) := by
  obtain ⟨hT, hT', -⟩ := hinv.ledger e he
  have hvalid := created_valid_iff hssl hload hdays hT (by have := hinv.clock.2; omega) hcreated
    w.clock
  rw [handleRequest_call c _ _ (tokenChar_of_created hssl hcreated)]
  have hcheck : authValidateToken (w.env ssl auth env).ssl (w.env ssl auth env).auth
      (w.env ssl auth env).now token = authValidateToken ssl auth w.clock token := rfl
  rw [hcheck]
  by_cases hle : w.clock ≤ e.1 + auth.lifetime
  · rw [if_pos (hvalid.mpr hle), if_pos hle]
  · rw [if_neg (fun h => hle (hvalid.mp h)), if_neg hle]

/-- **The step.** -/
theorem sessionInv_step (hssl : ssl.Standard) (hload : auth.loaded = true)
    (hdays : 1 ≤ auth.tokenExpiryDays ∧ auth.tokenExpiryDays ≤ 365) (h : SessionInv ssl auth w)
    (a : SessionAct) : SessionInv ssl auth (w.step ssl auth a) := by
  cases a with
  | wait seconds =>
      unfold SessionWorld.step
      dsimp only
      split
      · rename_i hlt
        have hle : w.clock ≤ w.clock + seconds := by omega
        refine ⟨⟨h.clock.1.trans hle, hlt⟩, fun e he => ?_, h.stored,
          fun f hf => (h.flights f hf).mono hle (List.Subset.refl _)⟩
        obtain ⟨h0, h1, h2⟩ := h.ledger e he
        exact ⟨h0, h1.trans hle, h2⟩
      · exact h
  | login l =>
      refine ⟨h.clock, h.ledger, h.stored, fun f hf => ?_⟩
      rcases List.mem_append.mp hf with hf | hf
      · exact h.flights f hf
      · rw [List.mem_singleton] at hf
        subst hf
        trivial
  | call c =>
      unfold SessionWorld.step
      dsimp only
      split
      · rename_i token htoken
        refine ⟨h.clock, h.ledger, h.stored, fun f hf => ?_⟩
        rcases List.mem_append.mp hf with hf | hf
        · exact h.flights f hf
        · rw [List.mem_singleton] at hf
          subst hf
          exact h.stored token htoken
      · exact h
  | logout => exact ⟨h.clock, h.ledger, fun token ht => absurd ht (by simp [SessionWorld.step]), h.flights⟩
  | serve i env =>
      unfold SessionWorld.step
      dsimp only
      split
      · rename_i l hl
        -- a token in the answer is on record with the clock of the login
        rw [handleRequest_login]
        have hnew : ∀ token, (handleLogin (w.env ssl auth env) (loginBody l.password)).token
            = some token → Opens auth l.password ∧ authCreateToken ssl auth w.clock = some token :=
          fun token ht => (handleLogin_token_iff hssl hload).mp ht
        unfold SessionWorld.issued
        rw [answer_reply, Option.bind_some]
        generalize handleLogin (w.env ssl auth env) (loginBody l.password) = r at hnew
        cases ht : r.token with
        | none =>
            refine ⟨h.clock, h.ledger, h.stored, fun f hf => ?_⟩
            rcases mem_served_flights (w := w) hf with hf | ⟨r', hr, rfl⟩
            · exact h.flights f hf
            · obtain rfl := Option.some.inj hr
              intro token ht'
              rw [ht] at ht'
              cases ht'
        | some token =>
            obtain ⟨hopens, hcreated⟩ := hnew token ht
            have hsub : w.ledger ⊆ (w.clock, l.password) :: w.ledger := List.subset_cons_self _ _
            refine ⟨h.clock, fun e he => ?_, fun t hs => (h.stored t hs).mono hsub, fun f hf => ?_⟩
            · rcases List.mem_cons.mp he with rfl | he
              · exact ⟨h.clock.1, le_rfl, hopens⟩
              · exact h.ledger e he
            · have hf : f ∈ (w.served i (answer w.datasources r) .loginReply).flights := hf
              rcases mem_served_flights (w := w) hf with hf | ⟨r', hr, rfl⟩
              · exact (h.flights f hf).mono le_rfl hsub
              · obtain rfl := Option.some.inj hr
                intro token' ht'
                obtain rfl := Option.some.inj (ht.symm.trans ht')
                exact ⟨_, List.mem_cons_self, hcreated⟩
      · rename_i c token hc
        obtain ⟨e, he, hcreated⟩ := h.flights _ (List.mem_of_getElem? hc)
        refine ⟨h.clock, h.ledger, h.stored, fun f hf => ?_⟩
        rcases mem_served_flights (w := w) hf with hf | ⟨r, hr, rfl⟩
        · exact h.flights f hf
        · intro h401
          rw [verdict hssl hload hdays h c he hcreated env] at hr
          by_cases hle : w.clock ≤ e.1 + auth.lifetime
          · rw [if_pos hle] at hr
            exact absurd h401 (admits_route _ _ _ _ r (reply_mem hr))
          · have hlt : e.1 + auth.lifetime < w.clock := by omega
            exact ⟨e, he, hcreated, hlt⟩
      · exact h
  | deliver i =>
      unfold SessionWorld.step
      dsimp only
      split
      · rename_i r hr
        refine ⟨h.clock, h.ledger, fun token ht => ?_, fun f hf => h.flights f (List.mem_of_mem_eraseIdx hf)⟩
        cases hrt : r.token with
        | none =>
            rw [hrt, Option.none_or] at ht
            exact h.stored token ht
        | some t =>
            rw [hrt, Option.some_or] at ht
            obtain rfl := Option.some.inj ht
            exact h.flights _ (List.mem_of_getElem? hr) t hrt
      · refine ⟨h.clock, h.ledger, fun token ht => ?_, fun f hf => h.flights f (List.mem_of_mem_eraseIdx hf)⟩
        dsimp only at ht
        split at ht
        · cases ht
        · exact h.stored token ht
      · exact h
  | lose i =>
      exact ⟨h.clock, h.ledger, h.stored, fun f hf => h.flights f (List.mem_of_mem_eraseIdx hf)⟩

/-- **The run.** -/
theorem sessionInv_run (hssl : ssl.Standard) (hload : auth.loaded = true)
    (hdays : 1 ≤ auth.tokenExpiryDays ∧ auth.tokenExpiryDays ≤ 365) (acts : List SessionAct) :
    ∀ {w : SessionWorld}, SessionInv ssl auth w → SessionInv ssl auth (w.run ssl auth acts) := by
  induction acts with
  | nil => exact fun h => h
  | cons a acts ih => exact fun h => ih (sessionInv_step hssl hload hdays h a)

/-! ## What holds of every run -/

theorem authLoadConfig_some {file : Bytes} (h : authLoadConfig file = some auth) :
    auth.loaded = true ∧ 1 ≤ auth.tokenExpiryDays ∧ auth.tokenExpiryDays ≤ 365 := by
  unfold authLoadConfig at h
  dsimp only at h
  split at h
  · obtain rfl := Option.some.inj h
    refine ⟨rfl, ?_⟩
    dsimp only
    unfold expiryDays
    split
    · omega
    · split <;> omega
  · cases h

theorem sessionInv_start {start : Int} (hstart : 0 ≤ start ∧ start < lastClock) (ds : DatasourceList) :
    SessionInv ssl auth { clock := start, datasources := ds } where
  clock := hstart
  ledger := fun e he => absurd he List.not_mem_nil
  stored := fun token ht => absurd ht (by simp)
  flights := fun f hf => absurd hf List.not_mem_nil

end

section

variable {ssl : OpenSSL} {auth : AuthConfig} {w : SessionWorld}

/-- The clock does not go back, and the ledger keeps its entries. -/
theorem step_grows (a : SessionAct) :
    w.clock ≤ (w.step ssl auth a).clock ∧ w.ledger ⊆ (w.step ssl auth a).ledger := by
  have hsame : w.clock ≤ w.clock ∧ w.ledger ⊆ w.ledger := ⟨le_rfl, List.Subset.refl _⟩
  cases a with
  | wait seconds =>
      unfold SessionWorld.step
      dsimp only
      split
      · exact ⟨by dsimp only; omega, List.Subset.refl _⟩
      · exact hsame
  | login l => exact hsame
  | call c =>
      unfold SessionWorld.step
      dsimp only
      split <;> exact hsame
  | logout => exact hsame
  | serve i env =>
      unfold SessionWorld.step
      dsimp only
      split
      · refine ⟨le_rfl, ?_⟩
        dsimp only
        unfold SessionWorld.issued
        split
        · exact List.subset_cons_self _ _
        · exact List.Subset.refl _
      · exact hsame
      · exact hsame
  | deliver i =>
      unfold SessionWorld.step
      dsimp only
      split <;> exact hsame
  | lose i => exact hsame

theorem run_grows (acts : List SessionAct) : ∀ {w : SessionWorld},
    w.clock ≤ (w.run ssl auth acts).clock ∧ w.ledger ⊆ (w.run ssl auth acts).ledger := by
  induction acts with
  | nil => exact ⟨le_rfl, List.Subset.refl _⟩
  | cons a acts ih =>
      intro w
      obtain ⟨h1, h2⟩ : w.clock ≤ (w.step ssl auth a).clock ∧
          w.ledger ⊆ (w.step ssl auth a).ledger := step_grows a
      obtain ⟨h3, h4⟩ := ih (w := w.step ssl auth a)
      exact ⟨h1.trans h3, List.Subset.trans h2 h4⟩

/-- While every token lives, a step other than a logout leaves the page with a token. -/
theorem stored_step (h : SessionInv ssl auth w) {a : SessionAct} (ha : a ≠ .logout)
    (halive : ∀ e ∈ w.ledger, w.clock ≤ e.1 + auth.lifetime) (hstored : w.stored ≠ none) :
    (w.step ssl auth a).stored ≠ none := by
  cases a with
  | logout => exact absurd rfl ha
  | wait seconds =>
      unfold SessionWorld.step
      dsimp only
      split <;> exact hstored
  | login l => exact hstored
  | call c =>
      unfold SessionWorld.step
      dsimp only
      split <;> exact hstored
  | serve i env =>
      unfold SessionWorld.step
      dsimp only
      split <;> exact hstored
  | deliver i =>
      unfold SessionWorld.step
      dsimp only
      split
      · rename_i r hr
        dsimp only
        cases r.token with
        | none => exact hstored
        | some token => simp
      · rename_i token r hr
        dsimp only
        rw [if_neg]
        · exact hstored
        · -- an answer that refuses a call belongs to a token that has expired
          intro h401
          obtain ⟨e, he, -, hlt⟩ := h.flights _ (List.mem_of_getElem? hr) h401
          have := halive e he
          omega
      · exact hstored
  | lose i => exact hstored

end

/--
**A session lasts.**

A page that has come to hold a token still holds one after any further actions, in whatever
order they take effect, if it does not log out and no token the gate ever issued to it has
outlived its lifetime.
-/
theorem session_lasts (ssl : OpenSSL) (hssl : ssl.Standard) (file : Bytes) (auth : AuthConfig)
    (hauth : authLoadConfig file = some auth) (start : Int) (hstart : 0 ≤ start ∧ start < lastClock)
    (ds : DatasourceList) (acts acts' : List SessionAct) :
    let w := SessionWorld.run ssl auth { clock := start, datasources := ds } acts
    let w' := w.run ssl auth acts'
    w.stored ≠ none → (∀ a ∈ acts', a ≠ .logout) →
    (∀ e ∈ w'.ledger, w'.clock ≤ e.1 + auth.lifetime) → w'.stored ≠ none := by
  intro w w' hstored hlogout halive
  obtain ⟨hload, hdays⟩ := authLoadConfig_some hauth
  have hinv : SessionInv ssl auth w := sessionInv_run hssl hload hdays acts (sessionInv_start hstart ds)
  suffices hgoal : ∀ (as : List SessionAct) (w : SessionWorld), SessionInv ssl auth w →
      w.stored ≠ none → (∀ a ∈ as, a ≠ .logout) →
      (∀ e ∈ (w.run ssl auth as).ledger, (w.run ssl auth as).clock ≤ e.1 + auth.lifetime) →
      (w.run ssl auth as).stored ≠ none from hgoal acts' w hinv hstored hlogout halive
  intro as
  induction as with
  | nil => exact fun _ _ h _ _ => h
  | cons a as ih =>
      intro w hinv hstored hlogout halive
      -- what lives at the end lives now
      obtain ⟨hclock, hledger⟩ : w.clock ≤ (w.run ssl auth (a :: as)).clock ∧
          w.ledger ⊆ (w.run ssl auth (a :: as)).ledger := run_grows (a :: as)
      have hnow : ∀ e ∈ w.ledger, w.clock ≤ e.1 + auth.lifetime :=
        fun e he => hclock.trans (halive e (hledger he))
      exact ih (w.step ssl auth a) (sessionInv_step hssl hload hdays hinv a)
        (stored_step hinv (hlogout a List.mem_cons_self) hnow hstored)
        (fun a' ha' => hlogout a' (List.mem_cons_of_mem a ha')) halive

/-! ## A week -/

/-- The password `p\`. -/
def backslashPassword : JsString where
  chars := [⟨0x70, by decide⟩, ⟨0x5C, by decide⟩]
  paired := by
    refine List.isChain_pair.mpr ?_
    rintro ⟨hhigh, -⟩
    exact absurd hhigh (by decide)

def backslashLogin : LoginCall := ⟨backslashPassword, loginRequest backslashPassword,
  isLogin_loginRequest backslashPassword⟩

/-- `fetchWithAuth('/cpu')`. -/
def cpuCall : ApiCall where
  method := .get
  url := str "/cpu"
  before := str "Host: h\r\n"
  after := str "\r\n"
  api := by decide
  first t := by
    have hbearer : bearer = ch 'A' :: str "uthorization: Bearer " := rfl
    have hfront : ∃ front, (browserLine ApiMethod.get.text (str "/cpu") ApiMethod.get.token).request
        (str "Host: h\r\n" ++ (bearer ++ t)) = front ++ (bearer ++ t) ∧ ch 'A' ∉ front :=
      ⟨str "GET /cpu HTTP/1.1\r\nHost: h\r\n", rfl, by decide⟩
    obtain ⟨front, hfront, hfree⟩ := hfront
    rw [hfront, hbearer, strstr_skip_head hfree]
    exact strstr_head (startsWith_append _ _)
  before_no_nul := by decide

/-- Logging in, and a call that is handled seven days later. -/
def weekActs : List SessionAct × List SessionAct :=
  ([.login backslashLogin, .serve 0 (loginEnv []), .deliver 0],
    [.call cpuCall, .wait 604800, .serve 0 (loginEnv []), .deliver 0])

/-- In the last second of the seventh day it still does. -/
theorem session_lasts_week :
    let auth := (loginEnv (str "p\\\\")).auth
    ((SessionWorld.run .onSample auth { clock := 1700000000 } weekActs.1).run .onSample auth
      weekActs.2).stored ≠ none := by
  intro auth
  have hload : authLoadConfig (sampleDoc.text backslashPassword) = some auth := by decide +kernel
  refine session_lasts .onSample OpenSSL.onSample_standard _ auth hload 1700000000 (by decide) {}
    weekActs.1 weekActs.2 ?_ ?_ ?_
  · have hstored : (SessionWorld.run .onSample auth { clock := 1700000000 } weekActs.1).stored.isSome
        = true := by decide +kernel
    exact fun hnone => absurd hstored (by rw [hnone]; simp)
  · intro a ha
    simp only [weekActs, List.mem_cons, List.not_mem_nil, or_false] at ha
    rcases ha with rfl | rfl | rfl | rfl <;> simp
  · decide +kernel

end Svgd.Gate
