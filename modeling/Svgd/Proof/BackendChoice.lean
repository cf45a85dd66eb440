import Svgd.Proof.DatasourceStore

/-!
# Which text chooses the backend

Target selection looks for `datasource=` behind the first question mark of the whole
buffer. When the request line has both, its own space ends the value and nothing
behind the line is read. Otherwise the search runs on into the headers and the body,
and what they offer there is taken for the parameter.

So for two requests with the same line the choice is the same, whatever is stored,
exactly when the line names a datasource or both rests offer the same name.
-/

namespace Svgd.Gate

open Lib

/-- A request line: a method token, a target without spaces, and the digits of the version. -/
structure RequestLine where
  method : Bytes
  target : Bytes
  major : UInt8
  minor : UInt8
  /-- `?` and NUL are no token characters. -/
  method_token : ch '?' ∉ method ∧ (0 : UInt8) ∉ method
  target_text : ch ' ' ∉ target ∧ (0 : UInt8) ∉ target
  version_digits : isDigit major = true ∧ isDigit minor = true

/-- What stands between the target and the header lines. -/
def RequestLine.versionText (line : RequestLine) : Bytes :=
  str " HTTP/" ++ (line.major :: ch '.' :: line.minor :: str "\r\n")

/-- A request with this line, and with `rest` for its headers and body. -/
def RequestLine.request (line : RequestLine) (rest : Bytes) : Bytes :=
  line.method ++ (ch ' ' :: (line.target ++ (line.versionText ++ rest)))

/-- The target has a question mark and `datasource=` behind it. -/
def RequestLine.NamesDatasource (line : RequestLine) : Prop :=
  ∃ query ∈ strchr line.target (ch '?'), (strstr query (str "datasource=")).isSome = true

/-- The name that headers and body offer: behind a question mark of their own, unless the
target has one. -/
def RequestLine.offered (line : RequestLine) (rest : Bytes) : Option Bytes :=
  if ch '?' ∈ line.target then extractDatasourceParam (cstr rest)
  else requestedDatasource (cstr rest)

/-! ## The buffer -/

/-- A byte that is no digit and stands in none of the fixed texts is not in the version. -/
theorem not_mem_versionText (line : RequestLine) {c : UInt8} (hdigit : isDigit c = false)
    (hfixed : c ∉ str " HTTP/.\r\n") : c ∉ line.versionText := by
  have hne : ∀ d, isDigit d = true → c ≠ d := by
    rintro d hd rfl
    rw [hdigit] at hd
    exact absurd hd (by simp)
  have hparts : c ∉ str " HTTP/" ∧ c ≠ ch '.' ∧ c ∉ str "\r\n" := by
    have hsplit : str " HTTP/.\r\n" = str " HTTP/" ++ ch '.' :: str "\r\n" := rfl
    rw [hsplit, List.mem_append, List.mem_cons, not_or, not_or] at hfixed
    exact hfixed
  simp only [RequestLine.versionText, List.mem_append, List.mem_cons, not_or]
  exact ⟨hparts.1, hne _ line.version_digits.1, hparts.2.1, hne _ line.version_digits.2, hparts.2.2⟩

/-- The line is in the buffer whole; a NUL can only cut what follows it. -/
theorem cstr_request (line : RequestLine) (rest : Bytes) :
    cstr (line.request rest) = line.request (cstr rest) := by
  have hspace : (0 : UInt8) ∉ [ch ' '] := by decide
  have h0 : (0 : UInt8) ∉ line.versionText := not_mem_versionText line (by decide) (by decide)
  unfold RequestLine.request
  rw [cstr_append line.method_token.2, ← List.singleton_append, cstr_append hspace,
    cstr_append line.target_text.2, cstr_append h0, List.singleton_append]

/-! ## What is extracted -/

/-- A value in the line ends in the line. -/
theorem value_ends {v : Bytes} (hv : ch ' ' ∉ v) (s : Bytes) :
    untilOr (v ++ ch ' ' :: s)
      (firstStop (strchr (v ++ ch ' ' :: s) (ch '&')) (strchr (v ++ ch ' ' :: s) (ch ' ')))
        = v.takeWhile (· ≠ ch '&') := by
  rw [← untilOr_strchr]
  cases hamp : strchr v (ch '&') with
  | some t =>
      obtain ⟨a, b, rfl, rfl, ha⟩ := strchr_some hamp
      rw [strchr_append hv, List.append_assoc, List.cons_append, strchr_append ha, firstStop,
        if_neg (by simp only [List.length_cons, List.length_append]; omega), untilOr, upTo_append,
        untilOr, upTo_append]
  | none =>
      have hspace : ch '&' ≠ ch ' ' := by decide
      rw [strchr_append hv, strchr_skip (strchr_eq_none.mp hamp), strchr, if_neg hspace.symm, untilOr]
      cases hs : strchr s (ch '&') with
      | none => rw [firstStop, untilOr, upTo_append]
      | some t =>
          obtain ⟨p, _, rfl, _, _⟩ := strchr_some hs
          rw [firstStop, if_pos (by simp only [List.length_cons, List.length_append]; omega),
            untilOr, upTo_append]

/-- A name found in the line is what stands behind it, up to the next `&`. -/
theorem requested_of_found {line : RequestLine} {query t : Bytes}
    (hquery : strchr line.target (ch '?') = some query)
    (ht : strstr query (str "datasource=") = some t) (rest : Bytes) :
    requestedDatasource (line.request rest) = some ((t.drop 11).takeWhile (· ≠ ch '&')) := by
  obtain ⟨a, b, htarget, rfl, ha⟩ := strchr_some hquery
  obtain ⟨u, hu, hst⟩ := strstr_some ht
  have hvalue : ch ' ' ∉ t.drop 11 := by
    intro hm
    refine line.target_text.1 ?_
    rw [htarget, hu]
    exact List.mem_append_right _ (List.mem_append_right _ (List.mem_of_mem_drop hm))
  have hlen : 11 ≤ t.length := by
    obtain ⟨r, hr⟩ := startsWith_iff.mp hst
    have h11 : (str "datasource=").length = 11 := rfl
    rw [hr, List.length_append]
    omega
  have hsplit : line.request rest = (line.method ++ (ch ' ' :: a)) ++ ch '?' ::
      (b ++ (line.versionText ++ rest)) := by
    rw [RequestLine.request, htarget]
    simp only [List.append_assoc, List.cons_append]
  have hfirst : ch '?' ∉ line.method ++ (ch ' ' :: a) := by
    rw [List.mem_append, List.mem_cons, not_or, not_or]
    exact ⟨line.method_token.1, by decide, ha⟩
  have hversion : line.versionText ++ rest
      = ch ' ' :: (str "HTTP/" ++ (line.major :: ch '.' :: line.minor :: str "\r\n") ++ rest) := rfl
  unfold requestedDatasource
  rw [hsplit, strchr_append hfirst]
  dsimp only
  unfold extractDatasourceParam
  rw [← List.cons_append, strstr_append_of_some ht]
  dsimp only
  rw [List.drop_append_of_le_length hlen, hversion, value_ends hvalue]

/-- A line that names a datasource decides alone. -/
theorem requested_of_named {line : RequestLine} (h : line.NamesDatasource) :
    ∃ name, ∀ rest, requestedDatasource (line.request rest) = some name := by
  obtain ⟨query, hquery, hfound⟩ := h
  obtain ⟨t, ht⟩ := Option.isSome_iff_exists.mp hfound
  exact ⟨_, requested_of_found hquery ht⟩

/-- Otherwise the rest of the buffer decides. -/
theorem requested_of_not_named {line : RequestLine} (h : ¬ line.NamesDatasource) (rest : Bytes) :
    requestedDatasource (cstr (line.request rest)) = line.offered rest := by
  have hd : ch 'd' ∉ line.versionText := not_mem_versionText line (by decide) (by decide)
  rw [cstr_request]
  generalize hcs : cstr rest = tail
  unfold RequestLine.offered
  rw [hcs]
  split
  · rename_i hmark
    obtain ⟨query, hquery⟩ : ∃ query, strchr line.target (ch '?') = some query := by
      cases hs : strchr line.target (ch '?') with
      | none => exact absurd hmark (strchr_eq_none.mp hs)
      | some query => exact ⟨query, rfl⟩
    obtain ⟨a, b, htarget, rfl, ha⟩ := strchr_some hquery
    have hnone : strstr (ch '?' :: b) (str "datasource=") = none := by
      cases hs : strstr (ch '?' :: b) (str "datasource=") with
      | none => rfl
      | some t => exact absurd ⟨_, hquery, by rw [hs]; rfl⟩ h
    have hsplit : line.request tail = (line.method ++ (ch ' ' :: a)) ++ ch '?' ::
        (b ++ (line.versionText ++ tail)) := by
      rw [RequestLine.request, htarget]
      simp only [List.append_assoc, List.cons_append]
    have hfirst : ch '?' ∉ line.method ++ (ch ' ' :: a) := by
      rw [List.mem_append, List.mem_cons, not_or, not_or]
      exact ⟨line.method_token.1, by decide, ha⟩
    -- the pattern has no space, so it does not start in the query; nor in the version
    have hsearch : strstr (ch '?' :: (b ++ (line.versionText ++ tail))) (str "datasource=")
        = strstr tail (str "datasource=") := by
      have hstop := strstr_append_of_none hnone (by decide : ch ' ' ∉ str "datasource=")
        (str "HTTP/" ++ (line.major :: ch '.' :: line.minor :: str "\r\n") ++ tail)
      exact hstop.trans (strstr_skip_head (u := line.versionText) (p := str "atasource=") hd)
    unfold requestedDatasource
    rw [hsplit, strchr_append hfirst]
    dsimp only
    unfold extractDatasourceParam
    rw [hsearch]
  · rename_i hmark
    have hno : ch '?' ∉ line.method ++ (ch ' ' :: (line.target ++ line.versionText)) := by
      simp only [List.mem_append, List.mem_cons, not_or]
      exact ⟨line.method_token.1, by decide, hmark,
        not_mem_versionText line (by decide) (by decide)⟩
    have hsplit : line.request tail
        = (line.method ++ (ch ' ' :: (line.target ++ line.versionText))) ++ tail := by
      rw [RequestLine.request]
      simp only [List.append_assoc, List.cons_append]
    unfold requestedDatasource
    rw [hsplit, strchr_skip hno]

/-! ## The choice -/

/-- Two buffers choose alike for every list exactly when the same name is extracted. -/
theorem targetBackend_agree {b₁ b₂ : Bytes} :
    (∀ (config : Config) (ds : DatasourceList), targetBackend config ds b₁ = targetBackend config ds b₂)
      ↔ requestedDatasource b₁ = requestedDatasource b₂ := by
  constructor
  · intro h
    -- a list that holds the name of one buffer and no other tells the two apart
    have htell : ∀ {a c : Bytes} {n : Option Bytes}, requestedDatasource a = n →
        ∀ name, requestedDatasource c = some name → n ≠ some name →
        targetBackend {} ⟨[], []⟩ a = targetBackend {} ⟨[], []⟩ c →
        targetBackend {} ⟨[⟨name, [], 1⟩], []⟩ a ≠ targetBackend {} ⟨[⟨name, [], 1⟩], []⟩ c := by
      intro a c n hn name hname hne hempty
      rw [targetBackend_eq, targetBackend_eq, hn, hname] at hempty ⊢
      cases n with
      | none => exact absurd hempty (by simp [findDatasource])
      | some m =>
          have hm : m ≠ name := fun he => hne (by rw [he])
          simp [findDatasource, hm.symm]
    cases h1 : requestedDatasource b₁ with
    | none =>
        cases h2 : requestedDatasource b₂ with
        | none => rfl
        | some name => exact absurd (h _ _) (htell h1 name h2 (by simp) (h _ _))
    | some m =>
        by_contra hne
        exact absurd (h _ _).symm (htell rfl m h1 (Ne.symm hne) (h _ _).symm)
  · intro h config ds
    rw [targetBackend_eq, targetBackend_eq, h]

/--
**When the request line alone chooses the backend.**

For two requests with the same line, the backend (or the name that is not found) is
the same for every configuration and every list of datasources exactly when the line
names a datasource, or the two rests offer the same name, or none. And every message
the gate sends for a request goes to the backend chosen here.
-/
theorem backend_choice_iff (line : RequestLine) (rest₁ rest₂ : Bytes) :
    ((∀ (config : Config) (ds : DatasourceList),
        targetBackend config ds (cstr (line.request rest₁))
          = targetBackend config ds (cstr (line.request rest₂)))
      ↔ line.NamesDatasource ∨ line.offered rest₁ = line.offered rest₂)
    ∧ ∀ (env : Env) (ds : DatasourceList) (host params : Bytes) (port : Int),
        Effect.lsrpSend host port params ∈ (handleRequest env ds (line.request rest₁)).effects →
        targetBackend env.config ds (cstr (line.request rest₁)) = .ok (host, port) := by
  refine ⟨?_, fun env ds host params port => lsrpSend_targetBackend⟩
  rw [targetBackend_agree]
  by_cases hnamed : line.NamesDatasource
  · obtain ⟨name, hname⟩ := requested_of_named hnamed
    rw [cstr_request, cstr_request, hname, hname]
    simp [hnamed]
  · rw [requested_of_not_named hnamed, requested_of_not_named hnamed]
    simp [hnamed]

/-- The line of a metric request with this target. -/
def metricLine (target : Bytes) (h : ch ' ' ∉ target ∧ (0 : UInt8) ∉ target) : RequestLine where
  method := str "GET"
  target := target
  major := ch '1'
  minor := ch '1'
  method_token := by decide
  target_text := h
  version_digits := by decide

/-- A line that names its datasource is not redirected by a header that names another. -/
theorem backend_choice_named :
    let line := metricLine (str "/cpu?datasource=b1") (by decide)
    let ds : DatasourceList :=
      ⟨[⟨str "b1", str "10.0.0.1", 9000⟩, ⟨str "b2", str "10.0.0.2", 9000⟩], str "b2"⟩
    targetBackend {} ds (cstr (line.request (str "\r\n"))) = .ok (str "10.0.0.1", 9000)
      ∧ targetBackend {} ds (cstr (line.request (str "\r\n")))
        = targetBackend {} ds
          (cstr (line.request (str "Referer: http://d/?datasource=b2&x\r\n\r\n"))) := by
  intro line ds
  refine ⟨by decide, (backend_choice_iff line _ _).1.mpr ?_ {} ds⟩
  exact Or.inl ⟨str "?datasource=b1", by decide, by decide⟩

/-- The same metric request, once with a `Referer` that has a query of its own: the first goes
to the default datasource, the second to the one the header names. -/
theorem referer_redirects :
    let line := metricLine (str "/cpu") (by decide)
    let ds : DatasourceList :=
      ⟨[⟨str "b1", str "10.0.0.1", 9000⟩, ⟨str "b2", str "10.0.0.2", 9000⟩], str "b1"⟩
    let plain := sampleAuthorization ++ str "\r\n"
    let referer := sampleAuthorization ++ str "Referer: http://d/?datasource=b2&x\r\n\r\n"
    Effect.lsrpSend (str "10.0.0.1") 9000 (str "endpoint=cpu")
        ∈ (handleRequest sampleEnv ds (line.request plain)).effects
      ∧ Effect.lsrpSend (str "10.0.0.2") 9000 (str "endpoint=cpu")
        ∈ (handleRequest sampleEnv ds (line.request referer)).effects := by
  decide +kernel

end Svgd.Gate
