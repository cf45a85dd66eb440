import Svgd.Gate.Server
import Svgd.Lib.FirstPlace
import Svgd.Lib.Json

/-!
# Login compares raw JSON text

The password in `auth.json` and the password in a login body are both JSON strings,
and both readers stop at the first quote character without looking at escapes. So
the gate compares `rawText` of the submitted string, one of 256 or more bytes refused,
with what it has read of the file, cut to 255 bytes.

The reader of the file takes the first string behind the first colon behind the first
place of the quoted word `password`, whatever that is in the file (`FirstPassword`). For
a password without a quote that is read whole there, the gate compares passwords. For
every other password some login goes wrong.
-/

namespace Svgd.Gate

open Lib

/--
An `auth.json` with a hole for the password: its text before the key, the white
space around the colon, and its text after the value.
-/
structure AuthDoc where
  before : Bytes
  gap₁ : Bytes
  gap₂ : Bytes
  after : Bytes
  gap₁_space : gap₁.all isJsonSpace = true
  gap₂_space : gap₂.all isJsonSpace = true
  before_no_nul : (0 : UInt8) ∉ before
  after_no_nul : (0 : UInt8) ∉ after

/-- The file with the password `p` written into it. -/
def AuthDoc.text (doc : AuthDoc) (p : JsString) : Bytes :=
  doc.before ++ (str "\"password\"" ++ (doc.gap₁ ++ ch ':' ::
    (doc.gap₂ ++ ch '"' :: (jsonBody p.chars ++ ch '"' :: doc.after))))

/-- The body `login` of `gate/static/auth.js` sends. -/
def loginBody (q : JsString) : Bytes :=
  str "\x7b\"password\":\"" ++ (jsonBody q.chars ++ str "\"\x7d")

/-- The gate received a `POST /_auth/login` with the password `q`. -/
def IsLogin (received : Bytes) (q : JsString) : Prop :=
  extractPath (cstr received) = some (str "/_auth/login")
    ∧ startsWith (cstr received) (str "POST ") = true
    ∧ extractBody (cstr received) = some (loginBody q)

/-- The gate answered with a token it created. -/
def IssuesToken (env : Env) (o : Outcome) : Prop :=
  ∃ token, authCreateToken env.ssl env.auth env.now = some token
    ∧ Effect.respond (.json 200 (str "\x7b\"token\":\"" ++ token ++ str "\"\x7d")) ∈ o.effects

/-! ## The two readers -/

theorem zero_not_space {gap : Bytes} (h : gap.all isJsonSpace = true) : (0 : UInt8) ∉ gap :=
  fun hm => absurd (List.all_eq_true.mp h _ hm) (by decide)

theorem AuthDoc.text_no_nul (doc : AuthDoc) (p : JsString) : (0 : UInt8) ∉ doc.text p := by
  have hkey : (0 : UInt8) ∉ str "\"password\"" := by decide
  have hcolon : (0 : UInt8) ≠ ch ':' := by decide
  have hquote : (0 : UInt8) ≠ ch '"' := by decide
  simp only [AuthDoc.text, List.mem_append, List.mem_cons, not_or]
  exact ⟨doc.before_no_nul, hkey, zero_not_space doc.gap₁_space, hcolon,
    zero_not_space doc.gap₂_space, hquote, zero_not_mem_jsonBody _, hquote, doc.after_no_nul⟩

/-- `v` is the first string behind the first colon behind the first place of the quoted word
`password`. -/
def FirstPassword (text v : Bytes) : Prop :=
  ∃ k t, Behind (str "\"password\"") text k ∧ Behind [ch ':'] k t ∧ Between (ch '"') t v

/-- What `extract_json_string` returns, said of the text. -/
theorem extractJsonString_eq_some {json key v : Bytes} (hcolon : ch ':' ∉ searchKey key) :
    extractJsonString json key = some v ↔ ∃ k t, Behind (searchKey key) json k
      ∧ Behind [ch ':'] k t ∧ Between (ch '"') t v := by
  constructor
  · intro h
    unfold extractJsonString at h
    split at h
    · cases h
    rename_i keyPos hkey
    obtain ⟨k, rfl, hk⟩ := strstr_eq_some_iff.mp hkey
    rw [strchr_skip hcolon] at h
    split at h
    · cases h
    rename_i colon hcol
    obtain ⟨t, rfl, ht⟩ := strchr_eq_some_iff.mp hcol
    split at h
    · cases h
    rename_i start hstart
    split at h
    · cases h
    rename_i stop hstop
    exact ⟨k, t, hk, ht, between_iff.mpr ⟨start, stop, hstart, hstop, (Option.some.inj h).symm⟩⟩
  · rintro ⟨k, t, hk, ht, hv⟩
    obtain ⟨start, stop, hstart, hstop, rfl⟩ := between_iff.mp hv
    unfold extractJsonString
    rw [strstr_eq_some_iff.mpr ⟨k, rfl, hk⟩]
    dsimp only
    rw [strchr_skip hcolon, strchr_eq_some_iff.mpr ⟨t, rfl, ht⟩]
    dsimp only
    rw [List.drop_succ_cons, List.drop_zero, hstart]
    dsimp only
    rw [hstop]

/-- The file reader takes the first password. -/
theorem extractJsonString_password {text v : Bytes} :
    extractJsonString text (str "password") = some v ↔ FirstPassword text v := by
  have hkey : searchKey (str "password") = str "\"password\"" := by decide
  rw [extractJsonString_eq_some (by decide), hkey]
  rfl

/-- What the gate stores of the file. -/
theorem authLoadConfig_password {doc : AuthDoc} {p : JsString} {cfg : AuthConfig}
    (h : authLoadConfig (doc.text p) = some cfg) :
    cfg.loaded = true ∧ ∃ v, FirstPassword (doc.text p) v ∧ cfg.password = v.take 255 := by
  unfold authLoadConfig at h
  dsimp only at h
  rw [cstr_eq_self (doc.text_no_nul p)] at h
  split at h
  · rename_i password secret hp _
    injection h with h
    exact ⟨by rw [← h], password, extractJsonString_password.mp hp, by rw [← h]; rfl⟩
  · exact absurd h (by simp)

/-- The login reader takes the raw text too, unless it is too long for the buffer. -/
theorem loginPassword_loginBody (q : JsString) :
    loginPassword (loginBody q)
      = if (rawText q.chars).length < 256 then rawText q.chars else [] := by
  have hbody : loginBody q = ch '\x7b' :: (str "\"password\"" ++
      ([ch ':'] ++ ch '"' :: (jsonBody q.chars ++ ch '"' :: [ch '\x7d']))) := by
    have hopen : str "\x7b\"password\":\"" =
        ch '\x7b' :: (str "\"password\"" ++ [ch ':', ch '"']) := by decide
    have hclose : str "\"\x7d" = [ch '"', ch '\x7d'] := by decide
    rw [loginBody, hopen, hclose]
    simp
  have hlen : (str "\"password\"").length = 10 := by decide
  have hno : startsWith (ch '\x7b' :: (str "\"password\"" ++
      ([ch ':'] ++ ch '"' :: (jsonBody q.chars ++ ch '"' :: [ch '\x7d'])))) (str "\"password\"")
      = false := by
    have hcons : ∃ r, str "\"password\"" = ch '"' :: r := ⟨_, rfl⟩
    obtain ⟨r, hr⟩ := hcons
    rw [hr, startsWith_cons_cons]
    simp only [Bool.and_eq_false_imp]
    intro hb
    exact absurd hb (by decide)
  obtain ⟨hq, t, ht⟩ := jsonBody_split q.chars [ch '\x7d']
  unfold loginPassword
  rw [hbody, strstr, if_neg (by rw [hno]; simp), strstr_head (startsWith_append _ _)]
  dsimp only
  rw [← hlen, List.drop_left, strchr_append (by decide)]
  dsimp only
  rw [List.drop_one, List.tail_cons, ht, strchr_append hq]
  dsimp only
  rw [upTo_append]
  rfl

/-! ## The login handler -/

theorem length_of_authCreateToken {ssl : OpenSSL} {cfg : AuthConfig} {now : Int}
    {token : Bytes} (h : authCreateToken ssl cfg now = some token) : token.length ≤ 1023 := by
  unfold authCreateToken at h
  split at h
  · exact absurd h (by simp)
  split at h
  · exact absurd h (by simp)
  dsimp only at h
  split at h
  · exact absurd h (by simp)
  split at h
  · exact absurd h (by simp)
  rename_i hsize
  injection h with h
  have hdot : (str ".").length = 1 := rfl
  rw [← h, List.length_append, List.length_append, hdot]
  rw [maxTokenSize] at hsize
  omega

/-- A login issues exactly when the reader found a password and it is the stored one. -/
theorem issues_iff {env : Env} (hssl : env.ssl.Lawful) (hload : env.auth.loaded = true)
    {ds : DatasourceList} {received : Bytes} {q : JsString} (h : IsLogin received q) :
    IssuesToken env (handleRequest env ds received)
      ↔ loginPassword (loginBody q) ≠ [] ∧ loginPassword (loginBody q) = env.auth.password := by
  obtain ⟨hpath, hpost, hbody⟩ := h
  obtain ⟨token, htoken⟩ := authCreateToken_isSome hssl hload env.now
  have hlen := length_of_authCreateToken htoken
  have hne : received ≠ [] := by
    rintro rfl
    exact absurd hpost (by decide)
  have hrun : (handleRequest env ds received).effects
      = [.respond (handleLogin env (loginBody q))] := by
    unfold handleRequest
    rw [if_neg hne]
    dsimp only
    rw [hpath]
    dsimp only
    rw [if_pos rfl, routeLogin, if_pos hpost, hbody]
    rfl
  -- the answer buffer has room for every token
  have hfit : snprintf (maxTokenSize + 64) (str "\x7b\"token\":\"" ++ token ++ str "\"\x7d")
      = str "\x7b\"token\":\"" ++ token ++ str "\"\x7d" := by
    refine snprintf_of_lt ?_
    have hopen : (str "\x7b\"token\":\"").length = 10 := by decide
    have hclose : (str "\"\x7d").length = 2 := by decide
    rw [List.length_append, List.length_append, hopen, hclose, maxTokenSize]
    omega
  unfold IssuesToken
  rw [hrun]
  simp only [List.mem_singleton, Effect.respond.injEq]
  unfold handleLogin
  rw [if_neg (by simp [hload])]
  dsimp only
  by_cases hempty : loginPassword (loginBody q) = []
  · rw [if_pos hempty]
    simp [hempty]
  · rw [if_neg hempty]
    by_cases hv : authVerifyPassword env.auth (loginPassword (loginBody q)) = true
    · rw [if_neg (by simp [hv]), htoken]
      dsimp only
      rw [hfit]
      rw [authVerifyPassword_iff hload] at hv
      rw [hv] at hempty ⊢
      simp [hempty]
    · rw [if_pos (by simpa using hv)]
      rw [authVerifyPassword_iff hload] at hv
      simp [hv]

/-! ## Exactness -/

/-- No character of the string is a double quote. -/
def NoQuote (p : JsString) : Prop := ∀ c ∈ p.chars, c.val ≠ 0x22

/-- A request that carries `q`. -/
def loginRequest (q : JsString) : Bytes :=
  str "POST " ++ (str "/_auth/login" ++ (str " HTTP/" ++ (str "1.1" ++ (str "\r\n" ++
    (str "Content-Length: " ++ printNat (loginBody q).length ++ (str "\r\n\r\n" ++ loginBody q))))))

theorem loginBody_no_nul (q : JsString) : (0 : UInt8) ∉ loginBody q := by
  simp only [loginBody, List.mem_append, not_or]
  exact ⟨by decide, zero_not_mem_jsonBody _, by decide⟩

/-- Every password can be submitted. -/
theorem isLogin_loginRequest (q : JsString) : IsLogin (loginRequest q) q := by
  have hdigit : ∀ b : UInt8, isDigit b = false → b ∉ printNat (loginBody q).length := by
    intro b hb hm
    rw [isDigit_of_mem_printNat hm] at hb
    exact absurd hb (by simp)
  have hcstr : cstr (loginRequest q) = loginRequest q := by
    refine cstr_eq_self ?_
    simp only [loginRequest, List.mem_append, not_or]
    exact ⟨by decide, by decide, by decide, by decide, by decide, ⟨by decide, hdigit _ (by decide)⟩,
      by decide, loginBody_no_nul q⟩
  unfold IsLogin
  rw [hcstr]
  refine ⟨extractPath_post (by decide) (by decide), startsWith_append _ _, ?_⟩
  have hline : ch '\r' ∉ str "POST " ++ (str "/_auth/login" ++ (str " HTTP/" ++ str "1.1")) := by
    decide
  have hheader : ch '\r' ∉ str "Content-Length: " ++ printNat (loginBody q).length := by
    rw [List.mem_append, not_or]
    exact ⟨by decide, hdigit _ (by decide)⟩
  have hblank : str "\r\n\r\n" = ch '\r' :: [ch '\n', ch '\r', ch '\n'] := rfl
  have hcrlf : str "\r\n" = [ch '\r', ch '\n'] := rfl
  have hbreak : startsWith (ch '\r' :: ch '\n' :: (str "Content-Length: " ++
      printNat (loginBody q).length ++ (str "\r\n\r\n" ++ loginBody q))) (str "\r\n\r\n")
      = false := by
    have hc : ∃ r, str "Content-Length: " = ch 'C' :: r := ⟨_, rfl⟩
    obtain ⟨r, hr⟩ := hc
    rw [hblank, hr]
    simp [ch]
  have hrest : strstr (ch '\n' :: (str "Content-Length: " ++ printNat (loginBody q).length ++
      (str "\r\n\r\n" ++ loginBody q))) (str "\r\n\r\n")
      = some (str "\r\n\r\n" ++ loginBody q) := by
    rw [← List.cons_append, hblank, strstr_skip_head]
    · exact strstr_head (startsWith_append _ _)
    · rw [List.mem_cons, not_or]
      exact ⟨by decide, hheader⟩
  -- the blank line is not found in the request line nor in the header
  have hfind : strstr (loginRequest q) (str "\r\n\r\n")
      = some (str "\r\n\r\n" ++ loginBody q) := by
    have hsplit : loginRequest q = (str "POST " ++ (str "/_auth/login" ++ (str " HTTP/" ++
        str "1.1"))) ++ (ch '\r' :: ch '\n' :: (str "Content-Length: " ++
        printNat (loginBody q).length ++ (str "\r\n\r\n" ++ loginBody q))) := by
      rw [loginRequest, hcrlf]
      simp only [List.append_assoc, List.cons_append, List.nil_append]
    have hpat : ∃ r, str "\r\n\r\n" = ch '\r' :: r := ⟨_, rfl⟩
    obtain ⟨r, hr⟩ := hpat
    rw [hsplit]
    rw [hr] at hbreak hrest ⊢
    rw [strstr_skip_head hline, strstr, if_neg (by rw [hbreak]; simp), hrest]
  unfold extractBody
  rw [hfind]
  rfl

/-- The JSON text of `p` is what is read of the file, up to the 255 bytes of the field. -/
def ReadWhole (text : Bytes) (p : JsString) : Prop :=
  ∃ v, FirstPassword text v ∧ v.take 255 = jsonBody p.chars

/--
**Login is exact for the passwords the two readers take whole, and for no other.**

With `p` written into `auth.json` and loaded, logging in with `q` issues a token
exactly when `p = q`, for every `q` and every request that carries it, if and only if
`p` has no double quote, and its JSON text has at most 255 bytes and is what stands at
the first place where the file is read.
-/
theorem login_exact_iff (doc : AuthDoc) (p : JsString) (hp : p.chars ≠ []) (env : Env)
    (hssl : env.ssl.Lawful) (hload : authLoadConfig (doc.text p) = some env.auth) :
    (∀ ds received (q : JsString), q.chars ≠ [] → IsLogin received q →
        (IssuesToken env (handleRequest env ds received) ↔ p = q))
      ↔ NoQuote p ∧ (jsonBody p.chars).length ≤ 255 ∧ ReadWhole (doc.text p) p := by
  obtain ⟨hloaded, v, hv, hstored⟩ := authLoadConfig_password hload
  have hissue : ∀ ds received (q : JsString), q.chars ≠ [] → IsLogin received q →
      (IssuesToken env (handleRequest env ds received)
        ↔ (rawText q.chars).length < 256 ∧ rawText q.chars = v.take 255) := by
    intro ds received q hq hlogin
    rw [issues_iff hssl hloaded hlogin, loginPassword_loginBody, hstored]
    by_cases hfit : (rawText q.chars).length < 256
    · simp [hfit, rawText_ne_nil hq]
    · simp [hfit]
  constructor
  · intro hexact
    obtain ⟨hfit, hself⟩ := (hissue {} _ p hp (isLogin_loginRequest p)).mp
      ((hexact {} _ p hp (isLogin_loginRequest p)).mpr rfl)
    have hnoquote : NoQuote p := by
      intro c hc hquote
      -- a longer string has the same raw text, so it logs in as well
      have hsame : rawText p.pushA.chars = rawText p.chars :=
        rawText_append_of_quote ⟨c, hc, hquote⟩ [0x61]
      have hne : p.pushA.chars ≠ [] := by simp [JsString.pushA]
      have hpq : p = p.pushA := by
        refine (hexact {} _ p.pushA hne (isLogin_loginRequest _)).mp ?_
        rw [hissue {} _ p.pushA hne (isLogin_loginRequest _), hsame]
        exact ⟨hfit, hself⟩
      have hlen := congrArg (fun s : JsString => s.chars.length) hpq
      simp [JsString.pushA] at hlen
    have hraw := rawText_of_no_quote hnoquote
    rw [hraw] at hfit hself
    exact ⟨hnoquote, by omega, v, hv, hself.symm⟩
  · rintro ⟨hnoquote, hlen, v', hv', hwhole⟩ ds received q hq hlogin
    -- there is only one text at the first place
    have hsame : v' = v := Option.some.inj
      ((extractJsonString_password.mpr hv').symm.trans (extractJsonString_password.mpr hv))
    have hraw := rawText_of_no_quote hnoquote
    rw [hissue ds received q hq hlogin, ← hsame, hwhole]
    constructor
    · rintro ⟨-, heq⟩
      exact JsString.ext (eq_of_rawText_eq_jsonBody heq).symm
    · rintro rfl
      exact ⟨by rw [hraw]; omega, hraw⟩

/-- `auth.example.json` with another secret. -/
def sampleDoc : AuthDoc where
  before := str "\x7b\n  "
  gap₁ := []
  gap₂ := str " "
  after := str ",\n  \"jwt_secret\": \"s3cret\",\n  \"token_expiry_days\": 7\n\x7d"
  gap₁_space := by decide
  gap₂_space := by decide
  before_no_nul := by decide
  after_no_nul := by decide

/-- A gate that loaded the password with raw text `password`. -/
def loginEnv (password : Bytes) : Env where
  auth := { password, jwtSecret := str "s3cret", tokenExpiryDays := 7, loaded := true }
  ssl := .onSample
  now := 1700000000
  maxParamsLen := 4096
  lsrpClientSend := fun _ _ _ => none
  readFile := fun _ => none

/-- The password `p\`, whose JSON text has an escape, is fine. -/
theorem login_exact_backslash :
    let p : JsString := ⟨[0x70, 0x5C], by decide⟩
    let env := loginEnv (str "p\\\\")
    authLoadConfig (sampleDoc.text p) = some env.auth
      ∧ ∀ ds received (q : JsString), q.chars ≠ [] → IsLogin received q →
        (IssuesToken env (handleRequest env ds received) ↔ p = q) := by
  intro p env
  have hload : authLoadConfig (sampleDoc.text p) = some env.auth := by decide +kernel
  have hquote : NoQuote p := by
    simp only [NoQuote, p, List.mem_cons, List.not_mem_nil, or_false, forall_eq_or_imp, forall_eq]
    decide
  have hread : extractJsonString (sampleDoc.text p) (str "password") = some (str "p\\\\") := by
    decide +kernel
  exact ⟨hload, (login_exact_iff sampleDoc p (by decide) env OpenSSL.onSample_lawful hload).mpr
    ⟨hquote, by decide, _, extractJsonString_password.mp hread, by decide⟩⟩

/-- With the password `a"b` the password `a"c` logs in. -/
theorem login_quote_accepts_other :
    let p : JsString := ⟨[0x61, 0x22, 0x62], by decide⟩
    let q : JsString := ⟨[0x61, 0x22, 0x63], by decide⟩
    let env := loginEnv (str "a\\")
    authLoadConfig (sampleDoc.text p) = some env.auth
      ∧ IsLogin (loginRequest q) q
      ∧ IssuesToken env (handleRequest env {} (loginRequest q))
      ∧ p ≠ q := by
  intro p q env
  have hload : authLoadConfig (sampleDoc.text p) = some env.auth := by decide +kernel
  refine ⟨hload, isLogin_loginRequest q, ?_, ?_⟩
  · rw [issues_iff OpenSSL.onSample_lawful rfl (isLogin_loginRequest q)]
    decide
  · intro hpq
    exact absurd (congrArg JsString.chars hpq) (by decide)

end Svgd.Gate
