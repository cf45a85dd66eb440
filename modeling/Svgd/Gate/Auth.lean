import Svgd.Lib.Decimal
import Svgd.Lib.Base64

/-!
# The auth module

`gate/auth/auth.c`: reading `auth.json`, checking a password, issuing a token and
validating one. OpenSSL is not part of the repository, so what the module calls
of it is a parameter; `OpenSSL.Lawful` collects what its documentation promises
and this code relies on.

Allocations are taken to succeed, so the functions return `none` exactly where
the source returns `NULL` for another reason.
-/

namespace Svgd.Gate

open Lib

/-- `MAX_PASSWORD_LEN`. -/
def maxPasswordLen : Nat := 256

/-- `MAX_JWT_SECRET_LEN`. -/
def maxJwtSecretLen : Nat := 256

/-- `MAX_TOKEN_SIZE`. -/
def maxTokenSize : Nat := 1024

/-- `auth_config_t`. -/
structure AuthConfig where
  password : Bytes := []
  jwtSecret : Bytes := []
  tokenExpiryDays : Int := 0
  loaded : Bool := false
deriving DecidableEq, Repr

/-- The parts of OpenSSL the module calls. -/
structure OpenSSL where
  /-- `BIO_write` through `BIO_f_base64` with `BIO_FLAGS_BASE64_NO_NL`. -/
  base64 : Bytes → Bytes
  /-- `BIO_read` through the same filter; empty when nothing could be decoded. -/
  unbase64 : Bytes → Bytes
  /-- `HMAC` with `EVP_sha256`, key first. -/
  hmacSha256 : Bytes → Bytes → Bytes

/-- What OpenSSL documents about these functions. -/
structure OpenSSL.Lawful (ssl : OpenSSL) : Prop where
  /-- Three bytes become four characters. -/
  base64_length : ∀ b, (ssl.base64 b).length = (b.length + 2) / 3 * 4
  /-- A SHA-256 digest has 32 bytes. -/
  hmac_length : ∀ key data, (ssl.hmacSha256 key data).length = 32

/--
OpenSSL on one key and one payload: base64 as it is, and the HMAC of the payload
issued at second 1700000000 for seven days under the secret `s3cret`. Other digests
are all zeros.
-/
def OpenSSL.onSample : OpenSSL where
  base64 := base64Text
  unbase64 b := (base64Bytes b).getD []
  hmacSha256 key data :=
    if key = str "s3cret" ∧ data = str "eyJleHAiOjE3MDA2MDQ4MDAsImlhdCI6MTcwMDAwMDAwMH0" then
      [67, 119, 161, 219, 189, 187, 105, 125, 128, 252, 57, 168, 154, 113, 142, 94,
        188, 19, 9, 43, 22, 253, 226, 104, 69, 40, 113, 187, 187, 26, 71, 109]
    else List.replicate 32 0

theorem OpenSSL.onSample_lawful : OpenSSL.onSample.Lawful where
  base64_length := length_base64Text
  hmac_length key data := by
    unfold OpenSSL.onSample
    dsimp only
    split <;> simp

/-! ## JSON extraction -/

/-- The quoted key that both extractors search for. -/
def searchKey (key : Bytes) : Bytes := snprintf 256 (str "\"" ++ key ++ str "\"")

/-- `extract_json_string`. -/
def extractJsonString (json key : Bytes) : Option Bytes :=
  match strstr json (searchKey key) with
  | none => none
  | some keyPos =>
      match strchr keyPos (ch ':') with
      | none => none
      | some colon =>
          match strchr (colon.drop 1) (ch '"') with
          | none => none
          | some start =>
              -- the next quote ends the string, escaped or not
              match strchr (start.drop 1) (ch '"') with
              | none => none
              | some stop => some (upTo (start.drop 1) stop)

/-- `extract_json_int`. -/
def extractJsonInt (json key : Bytes) : Option Int :=
  match strstr json (searchKey key) with
  | none => none
  | some keyPos =>
      match strchr keyPos (ch ':') with
      | none => none
      | some colon => strtoll (colon.drop 1)

/-! ## Configuration -/

/-- The token lifetime: seven days unless the file names one between 1 and 365. -/
def expiryDays (content : Bytes) : Int :=
  match extractJsonInt content (str "token_expiry_days") with
  | none => 7
  | some days => if days < 1 ∨ 365 < days then 7 else days

/-- `auth_load_config` on the contents of the file. -/
def authLoadConfig (file : Bytes) : Option AuthConfig :=
  let content := cstr file
  match extractJsonString content (str "password"),
      extractJsonString content (str "jwt_secret") with
  | some password, some secret =>
      -- a value that does not fit its field is cut, not refused
      some {
        password := password.take (maxPasswordLen - 1)
        jwtSecret := secret.take (maxJwtSecretLen - 1)
        tokenExpiryDays := expiryDays content
        loaded := true }
  | _, _ => none

/-! ## Passwords -/

/-- The accumulated difference of two strings of one length, as the comparison loops compute it. -/
def xorDiff (a b : Bytes) : UInt8 := (List.zipWith (· ^^^ ·) a b).foldl (· ||| ·) 0

/-- `auth_verify_password`. -/
def authVerifyPassword (cfg : AuthConfig) (password : Bytes) : Bool :=
  if cfg.loaded = false then false
  else if password.length ≠ cfg.password.length then false
  else xorDiff password cfg.password == 0

/-! ## Tokens -/

/-- `base64_encode`; writing nothing is an error. -/
def base64Encode (ssl : OpenSSL) (input : Bytes) : Option Bytes :=
  if input = [] then none else some (ssl.base64 input)

/-- `base64_decode`: the input is padded to a multiple of four first. -/
def base64Decode (ssl : OpenSSL) (input : Bytes) : Option Bytes :=
  let paddedLen := (input.length + 3) / 4 * 4
  let decoded := ssl.unbase64 (input ++ List.replicate (paddedLen - input.length) (ch '='))
  if decoded = [] then none else some decoded

/-- Drop trailing `=` padding. -/
def stripPadding (b : Bytes) : Bytes := (b.reverse.dropWhile (· == ch '=')).reverse

/-- The expiry of a token issued at `now`: the sum is a 64-bit `time_t`. -/
def tokenExpiry (cfg : AuthConfig) (now : Int) : Int :=
  toInt64 (now + cfg.tokenExpiryDays * 24 * 60 * 60)

/-- The payload of a token issued at `now`. -/
def tokenPayload (cfg : AuthConfig) (now : Int) : Bytes :=
  snprintf 256 (str "\x7b\"exp\":" ++ printInt (tokenExpiry cfg now)
    ++ str ",\"iat\":" ++ printInt now ++ str "\x7d")

/-- `auth_create_token`. -/
def authCreateToken (ssl : OpenSSL) (cfg : AuthConfig) (now : Int) : Option Bytes :=
  if cfg.loaded = false then none
  else
    match base64Encode ssl (tokenPayload cfg now) with
    | none => none
    | some encoded =>
        let payload := stripPadding encoded
        match base64Encode ssl (ssl.hmacSha256 cfg.jwtSecret payload) with
        | none => none
        | some sig =>
            if maxTokenSize < payload.length + sig.length + 2 then none
            else some (payload ++ str "." ++ sig)

/-- `auth_validate_token` returned 0. -/
def authValidateToken (ssl : OpenSSL) (cfg : AuthConfig) (now : Int) (token : Bytes) : Bool :=
  if cfg.loaded = false then false
  else
    match strchr token (ch '.') with
    | none => false
    | some dot =>
        let payload := upTo token dot
        -- everything behind the first dot is the signature
        match base64Decode ssl (dot.drop 1) with
        | none => false
        | some sig =>
            let expected := ssl.hmacSha256 cfg.jwtSecret payload
            if sig.length ≠ expected.length then false
            else if xorDiff sig expected ≠ 0 then false
            else
              match base64Decode ssl payload with
              | none => false
              | some decoded =>
                  match extractJsonInt (cstr decoded) (str "exp") with
                  | none => false
                  | some exp => decide (now ≤ exp)

/-- Without a configuration no token is valid. -/
theorem authValidateToken_unloaded {ssl : OpenSSL} {cfg : AuthConfig} {now : Int}
    {token : Bytes} (h : cfg.loaded = false) : authValidateToken ssl cfg now token = false := by
  rw [authValidateToken, if_pos h]

/-! ## The comparison loops -/

theorem or_foldl_eq_zero {l : Bytes} : ∀ {a : UInt8},
    l.foldl (· ||| ·) a = 0 ↔ a = 0 ∧ ∀ x ∈ l, x = 0 := by
  induction l with
  | nil => intro a; simp
  | cons b l ih =>
      intro a
      rw [List.foldl_cons, ih]
      have hor : a ||| b = 0 ↔ a = 0 ∧ b = 0 := by
        rw [← UInt8.toBitVec_inj, ← UInt8.toBitVec_inj, ← UInt8.toBitVec_inj]
        exact BitVec.or_eq_zero_iff
      rw [hor]
      simp only [List.mem_cons, forall_eq_or_imp, and_assoc]

/-- The loop accepts exactly equal strings. -/
theorem xorDiff_eq_zero : ∀ {a b : Bytes}, a.length = b.length → (xorDiff a b = 0 ↔ a = b)
  | [], [], _ => by simp [xorDiff]
  | [], _ :: _, h => by simp at h
  | _ :: _, [], h => by simp at h
  | x :: a, y :: b, h => by
      have ih := xorDiff_eq_zero (a := a) (b := b) (by simpa using h)
      unfold xorDiff at ih ⊢
      rw [List.zipWith_cons_cons, or_foldl_eq_zero]
      rw [or_foldl_eq_zero] at ih
      simp only [true_and, List.mem_cons, forall_eq_or_imp, UInt8.xor_eq_zero_iff,
        List.cons.injEq] at ih ⊢
      rw [ih]

/-- **Password comparison is equality with the stored password.** -/
theorem authVerifyPassword_iff {cfg : AuthConfig} {password : Bytes} (h : cfg.loaded = true) :
    authVerifyPassword cfg password = true ↔ password = cfg.password := by
  unfold authVerifyPassword
  rw [if_neg (by simp [h])]
  split
  · rename_i hne
    simp only [Bool.false_eq_true, false_iff]
    intro he
    exact hne (by rw [he])
  · rename_i heq
    simp only [beq_iff_eq]
    exact xorDiff_eq_zero (by simpa using heq)

/-! ## Issuing always succeeds -/

theorem length_stripPadding_le (b : Bytes) : (stripPadding b).length ≤ b.length := by
  unfold stripPadding
  rw [List.length_reverse]
  calc (b.reverse.dropWhile (· == ch '=')).length
      ≤ b.reverse.length := List.length_dropWhile_le _ _
    _ = b.length := List.length_reverse

theorem tokenPayload_ne_nil (cfg : AuthConfig) (now : Int) : tokenPayload cfg now ≠ [] := by
  have hhead : ∃ t, str "\x7b\"exp\":" = ch '\x7b' :: t := ⟨_, rfl⟩
  obtain ⟨t, ht⟩ := hhead
  unfold tokenPayload snprintf
  rw [ht]
  simp

/-- **A loaded configuration always issues.** The payload buffer bounds the token well below
the size limit, so none of the failure branches is taken. -/
theorem authCreateToken_isSome {ssl : OpenSSL} (hssl : ssl.Lawful) {cfg : AuthConfig}
    (h : cfg.loaded = true) (now : Int) : ∃ token, authCreateToken ssl cfg now = some token := by
  -- 255 bytes of payload become at most 340 characters, the signature has 44
  have hpay : (tokenPayload cfg now).length ≤ 255 := length_snprintf_le 256 _
  have henc : (ssl.base64 (tokenPayload cfg now)).length ≤ 340 := by
    rw [hssl.base64_length]; omega
  have hstrip := length_stripPadding_le (ssl.base64 (tokenPayload cfg now))
  have hsig : (ssl.hmacSha256 cfg.jwtSecret
      (stripPadding (ssl.base64 (tokenPayload cfg now)))) ≠ [] := by
    intro he
    have := hssl.hmac_length cfg.jwtSecret (stripPadding (ssl.base64 (tokenPayload cfg now)))
    rw [he] at this
    simp at this
  unfold authCreateToken base64Encode
  rw [if_neg (by simp [h]), if_neg (tokenPayload_ne_nil cfg now)]
  dsimp only
  rw [if_neg hsig]
  dsimp only
  rw [if_neg]
  · exact ⟨_, rfl⟩
  · rw [hssl.base64_length, hssl.hmac_length, maxTokenSize]
    omega

end Svgd.Gate
