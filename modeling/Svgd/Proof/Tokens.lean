import Svgd.Gate.Auth

/-!
# Tokens round-trip

A token is signed over its encoded payload, without the padding, and the validator
pads it again before it decodes. The argument follows the text through both: the
padding is stripped and restored, the dot is the first one because the alphabet has
none, and the number that `extract_json_int` reads is the one `%ld` wrote.

The converse needs nothing of OpenSSL: what is accepted has a signature and an expiry
because the validator looked at both.
-/

namespace Svgd.Gate

open Lib

/-- What OpenSSL documents about reading back what it wrote. -/
structure OpenSSL.RoundTrips (ssl : OpenSSL) : Prop extends ssl.Lawful where
  /-- The alphabet has no dot, and the padding is at most two `=` at the end. -/
  base64_shape : ∀ b, ∃ body k, ssl.base64 b = body ++ List.replicate k (ch '=') ∧ k ≤ 2
    ∧ ch '=' ∉ body ∧ ch '.' ∉ body
  /-- Decoding inverts encoding. -/
  unbase64_base64 : ∀ b, ssl.unbase64 (ssl.base64 b) = b

theorem OpenSSL.onSample_roundTrips : OpenSSL.onSample.RoundTrips where
  toLawful := OpenSSL.onSample_lawful
  base64_shape b := by
    obtain ⟨body, k, heq, hk, hbody⟩ := base64Text_shape b
    rw [List.all_eq_true] at hbody
    exact ⟨body, k, heq, hk, fun hm => absurd (hbody _ hm) (by decide),
      fun hm => absurd (hbody _ hm) (by decide)⟩
  unbase64_base64 b := by
    show (base64Bytes (base64Text b)).getD [] = b
    rw [base64Bytes_base64Text, Option.getD_some]

/-! ## Padding -/

theorem stripPadding_append {body : Bytes} (h : ch '=' ∉ body) (k : Nat) :
    stripPadding (body ++ List.replicate k (ch '=')) = body := by
  unfold stripPadding
  rw [List.reverse_append, List.reverse_replicate, List.dropWhile_append_of_pos (by simp)]
  have hdrop : body.reverse.dropWhile (· == ch '=') = body.reverse := by
    cases hr : body.reverse with
    | nil => rfl
    | cons b t =>
        have hb : b ≠ ch '=' := by
          rintro rfl
          exact h (List.mem_reverse.mp (by rw [hr]; simp))
        exact List.dropWhile_cons_of_neg (by simpa using hb)
  rw [hdrop, List.reverse_reverse]

/-- **The validator restores the padding the issuer stripped.** -/
theorem base64Decode_body {ssl : OpenSSL} (hssl : ssl.RoundTrips) {b body : Bytes} {k : Nat}
    (hb : b ≠ []) (heq : ssl.base64 b = body ++ List.replicate k (ch '=')) (hk : k ≤ 2) :
    base64Decode ssl body = some b := by
  have hlen := hssl.base64_length b
  rw [heq, List.length_append, List.length_replicate] at hlen
  have hpad : (body.length + 3) / 4 * 4 - body.length = k := by omega
  unfold base64Decode
  dsimp only
  rw [hpad, ← heq, hssl.unbase64_base64, if_neg hb]

/-- A text with its padding decodes as it is. -/
theorem base64Decode_base64 {ssl : OpenSSL} (hssl : ssl.RoundTrips) {b : Bytes} (hb : b ≠ []) :
    base64Decode ssl (ssl.base64 b) = some b := by
  have hlen := hssl.base64_length b
  refine base64Decode_body hssl (k := 0) hb (by simp) (by omega)

/-! ## The expiry -/

/-- The payload as it is printed, before the buffer of 256 bytes cuts it. -/
def payloadText (expiry now : Int) : Bytes :=
  str "\x7b\"exp\":" ++ printInt expiry ++ str ",\"iat\":" ++ printInt now ++ str "\x7d"

/-- Clock values never fill the buffer. -/
theorem tokenPayload_eq {cfg : AuthConfig} {now : Int} (hnow : now.natAbs < 10 ^ 20) :
    tokenPayload cfg now = payloadText (tokenExpiry cfg now) now := by
  have hexp : (tokenExpiry cfg now).natAbs < 10 ^ 20 := by
    unfold tokenExpiry toInt64
    omega
  have h1 := length_printInt_le hnow
  have h2 := length_printInt_le hexp
  unfold tokenPayload
  refine snprintf_of_lt ?_
  simp only [List.length_append, str, List.length_map, String.length_toList]
  have e1 : "\x7b\"exp\":".length = 7 := by decide
  have e2 : ",\"iat\":".length = 7 := by decide
  have e3 : "\x7d".length = 1 := by decide
  omega

/-- The number is read back as it was printed. -/
theorem saturate64_tokenExpiry (cfg : AuthConfig) (now : Int) :
    saturate64 (tokenExpiry cfg now) = tokenExpiry cfg now := by
  unfold saturate64 tokenExpiry toInt64
  omega

/-- An expiry that is a `time_t` is the end of the lifetime. -/
theorem tokenExpiry_eq {cfg : AuthConfig} {now : Int} (hdays : 0 ≤ cfg.tokenExpiryDays) (hnow : 0 ≤ now)
    (hlast : now + cfg.tokenExpiryDays * 86400 < 2 ^ 63) :
    tokenExpiry cfg now = now + cfg.tokenExpiryDays * 86400 := by
  unfold tokenExpiry toInt64
  omega

theorem cstr_payloadText (expiry now : Int) : cstr (payloadText expiry now) = payloadText expiry now := by
  refine cstr_eq_self ?_
  simp only [payloadText, List.mem_append, not_or]
  exact ⟨⟨⟨⟨by decide, zero_not_mem_printInt _⟩, by decide⟩, zero_not_mem_printInt _⟩, by decide⟩

/-- The scanner finds the expiry, because nothing before it is a quoted `exp` or a colon. -/
theorem extractJsonInt_payloadText (expiry now : Int) :
    extractJsonInt (payloadText expiry now) (str "exp") = some (saturate64 expiry) := by
  have hkey : searchKey (str "exp") = ch '"' :: str "exp\"" := by decide
  have hsplit : payloadText expiry now
      = [ch '\x7b'] ++ (str "\"exp\"" ++ (ch ':' ::
          (printInt expiry ++ (str ",\"iat\":" ++ printInt now ++ str "\x7d")))) := by
    have h1 : str "\x7b\"exp\":" = [ch '\x7b'] ++ (str "\"exp\"" ++ [ch ':']) := rfl
    rw [payloadText, h1]
    simp only [List.append_assoc, List.cons_append, List.nil_append]
  have hfind : strstr (payloadText expiry now) (searchKey (str "exp"))
      = some (str "\"exp\"" ++ (ch ':' ::
          (printInt expiry ++ (str ",\"iat\":" ++ printInt now ++ str "\x7d")))) := by
    rw [hkey, hsplit, strstr_skip_head (by decide)]
    exact strstr_head (startsWith_append (str "\"exp\"") _)
  unfold extractJsonInt
  rw [hfind]
  dsimp only
  rw [strchr_append (by decide)]
  dsimp only
  rw [List.drop_succ_cons, List.drop_zero]
  exact strtoll_printInt expiry (by rintro b ⟨rfl⟩; decide)

/-! ## Issuing and validating -/

/-- A token is the stripped payload, a dot and the signature. -/
theorem authCreateToken_some {ssl : OpenSSL} {cfg : AuthConfig} {now : Int} {token : Bytes}
    (h : authCreateToken ssl cfg now = some token) :
    token = stripPadding (ssl.base64 (tokenPayload cfg now)) ++ ch '.' ::
      ssl.base64 (ssl.hmacSha256 cfg.jwtSecret (stripPadding (ssl.base64 (tokenPayload cfg now)))) := by
  unfold authCreateToken base64Encode at h
  rw [if_neg (tokenPayload_ne_nil cfg now)] at h
  dsimp only at h
  split at h
  · exact absurd h (by simp)
  split at h
  · exact absurd h (by simp)
  rename_i sig hsig
  split at hsig
  · exact absurd hsig (by simp)
  injection hsig with hsig
  split at h
  · exact absurd h (by simp)
  injection h with h
  rw [← h, ← hsig, List.append_assoc]
  rfl

/-- What the validator checks, on a token in its two parts. -/
theorem authValidateToken_iff {ssl : OpenSSL} {cfg : AuthConfig} {now : Int} {p g : Bytes}
    (hload : cfg.loaded = true) (hdot : ch '.' ∉ p) :
    authValidateToken ssl cfg now (p ++ ch '.' :: g) = true
      ↔ base64Decode ssl g = some (ssl.hmacSha256 cfg.jwtSecret p)
        ∧ ∃ text expiry, base64Decode ssl p = some text
          ∧ extractJsonInt (cstr text) (str "exp") = some expiry ∧ now ≤ expiry := by
  unfold authValidateToken
  rw [if_neg (by simp [hload]), strchr_append hdot]
  dsimp only
  rw [List.drop_succ_cons, List.drop_zero, upTo_append]
  cases hg : base64Decode ssl g with
  | none => simp
  | some sig =>
      dsimp only
      by_cases hlen : sig.length = (ssl.hmacSha256 cfg.jwtSecret p).length
      · rw [if_neg (by simpa using hlen)]
        by_cases heq : sig = ssl.hmacSha256 cfg.jwtSecret p
        · rw [if_neg (by simpa using (xorDiff_eq_zero hlen).mpr heq)]
          cases hp : base64Decode ssl p with
          | none => simp
          | some text =>
              dsimp only
              cases hi : extractJsonInt (cstr text) (str "exp") with
              | none => simp [heq, hi]
              | some expiry => simp [heq, hi]
        · rw [if_pos (by simpa using fun h => heq ((xorDiff_eq_zero hlen).mp h))]
          simp [heq]
      · have hne : sig ≠ ssl.hmacSha256 cfg.jwtSecret p := fun he => hlen (by rw [he])
        rw [if_pos hlen]
        simp [hne]

/-- **A token is accepted until its expiry**, by every configuration with its secret. -/
theorem created_accepted_iff {ssl : OpenSSL} (hssl : ssl.RoundTrips) {cfg cfg' : AuthConfig}
    (hload : cfg'.loaded = true) (hsecret : cfg'.jwtSecret = cfg.jwtSecret) {T : Int} (hT : 0 ≤ T)
    (hT' : T < 2 ^ 63) {token : Bytes} (htoken : authCreateToken ssl cfg T = some token) (t : Int) :
    authValidateToken ssl cfg' t token = true ↔ t ≤ tokenExpiry cfg T := by
  have hpow : (2 : Int) ^ 63 = 9223372036854775808 := by norm_num
  -- both numbers have at most 20 digits, so the payload is printed whole
  have hpay : tokenPayload cfg T = payloadText (tokenExpiry cfg T) T := tokenPayload_eq (by omega)
  obtain ⟨body, k, hbase, hk, heq, hdot⟩ := hssl.base64_shape (tokenPayload cfg T)
  have hbody : stripPadding (ssl.base64 (tokenPayload cfg T)) = body := by
    rw [hbase, stripPadding_append heq]
  have hhmac : ssl.hmacSha256 cfg.jwtSecret body ≠ [] := by
    intro he
    have := hssl.hmac_length cfg.jwtSecret body
    rw [he] at this
    simp at this
  have hdecode : base64Decode ssl body = some (tokenPayload cfg T) :=
    base64Decode_body hssl (tokenPayload_ne_nil cfg T) hbase hk
  have hread : extractJsonInt (cstr (tokenPayload cfg T)) (str "exp") = some (tokenExpiry cfg T) := by
    rw [hpay, cstr_payloadText, extractJsonInt_payloadText, saturate64_tokenExpiry]
  rw [authCreateToken_some htoken, hbody, authValidateToken_iff hload hdot, hsecret,
    base64Decode_base64 hssl hhmac, hdecode]
  constructor
  · rintro ⟨-, text, expiry, h1, h2, h3⟩
    rw [← Option.some.inj h1, hread] at h2
    rw [Option.some.inj h2]
    exact h3
  · exact fun hle => ⟨rfl, _, _, rfl, hread, hle⟩

/--
**Tokens round-trip and are sound.**

The clock values are those of a 64-bit `time_t`. A token issued at `T` is accepted at
a later `t`, by any configuration with the same secret, exactly until the expiry that was
computed for it; that is the end of its lifetime, the last second included, wherever the
sum is a `time_t` too. And whatever is accepted was signed with the secret and has not
expired.
-/
theorem token_round_trip (ssl : OpenSSL) (hssl : ssl.RoundTrips) :
    (∀ cfg : AuthConfig, cfg.loaded = true → 1 ≤ cfg.tokenExpiryDays →
      cfg.tokenExpiryDays ≤ 365 → ∀ T : Int, 0 ≤ T → T < 2 ^ 63 →
      ∃ token, authCreateToken ssl cfg T = some token
        ∧ ∀ cfg' : AuthConfig, cfg'.loaded = true → cfg'.jwtSecret = cfg.jwtSecret →
          ∀ t : Int, T ≤ t → t < 2 ^ 63 →
          (authValidateToken ssl cfg' t token = true ↔ t ≤ tokenExpiry cfg T)
            ∧ (T + cfg.tokenExpiryDays * 86400 < 2 ^ 63 →
              (authValidateToken ssl cfg' t token = true
                ↔ t ≤ T + cfg.tokenExpiryDays * 86400)))
    ∧ ∀ (cfg : AuthConfig) (t : Int) (token : Bytes), authValidateToken ssl cfg t token = true →
      ∃ p g, token = p ++ ch '.' :: g ∧ ch '.' ∉ p
        ∧ base64Decode ssl g = some (ssl.hmacSha256 cfg.jwtSecret p)
        ∧ ∃ text expiry, base64Decode ssl p = some text
          ∧ extractJsonInt (cstr text) (str "exp") = some expiry ∧ t ≤ expiry := by
  constructor
  · intro cfg hload hmin hmax T hT hT'
    obtain ⟨token, htoken⟩ := authCreateToken_isSome hssl.toLawful hload T
    refine ⟨token, htoken, fun cfg' hload' hsecret t htT ht => ?_⟩
    have haccepted := created_accepted_iff hssl hload' hsecret hT hT' htoken t
    refine ⟨haccepted, fun hlast => ?_⟩
    rw [haccepted, tokenExpiry_eq (by omega) hT hlast]
  · intro cfg t token h
    have hload : cfg.loaded = true := by
      by_contra hno
      rw [authValidateToken_unloaded (by simpa using hno)] at h
      exact absurd h (by simp)
    cases hs : strchr token (ch '.') with
    | none =>
        unfold authValidateToken at h
        rw [if_neg (by simp [hload]), hs] at h
        exact absurd h (by simp)
    | some dot =>
        obtain ⟨p, g, htoken, hdot, hp⟩ := strchr_some hs
        subst hdot
        rw [htoken] at h
        exact ⟨p, g, htoken, hp, (authValidateToken_iff hload hp).mp h⟩

/-- A token issued at second 1700000000 for seven days is valid in its last second and not
one second later. -/
theorem token_round_trip_week :
    ∃ token, authCreateToken .onSample
        { jwtSecret := str "s3cret", tokenExpiryDays := 7, loaded := true } 1700000000 = some token
      ∧ authValidateToken .onSample { jwtSecret := str "s3cret", loaded := true } 1700604800 token
        = true
      ∧ authValidateToken .onSample { jwtSecret := str "s3cret", loaded := true } 1700604801 token
        = false := by
  obtain ⟨token, htoken, hvalid⟩ := (token_round_trip .onSample OpenSSL.onSample_roundTrips).1
    { jwtSecret := str "s3cret", tokenExpiryDays := 7, loaded := true } rfl (by decide) (by decide)
    1700000000 (by decide) (by decide)
  refine ⟨token, htoken,
    ((hvalid _ rfl rfl _ (by decide) (by decide)).2 (by decide)).mpr (by decide), ?_⟩
  rw [Bool.eq_false_iff]
  exact fun h => absurd (((hvalid _ rfl rfl _ (by decide) (by decide)).2 (by decide)).mp h)
    (by decide)

end Svgd.Gate
