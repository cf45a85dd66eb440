import Svgd.Proof.TransportParity

/-!
# Path and query in one text

The gate writes the path and the query of a `GET` one behind the other, and neither is
escaped. The backend takes the text apart again: the endpoint ends at the first `&`, and a
parameter is wherever its name stands first. So an `&` cuts the path, and a parameter named
in the path is read from there.
-/

namespace Svgd.Backend

open Lib

/-- The parameters a chart is drawn by. -/
def chartKeys : List Bytes := [str "period", str "width", str "height", str "theme"]

/-- The query of a target, from its `?` to the version. -/
def targetQuery (start pathEnd : Bytes) : Bytes :=
  match Gate.queryStart start pathEnd with
  | none => []
  | some q => upTo (q.drop 1) pathEnd

/-- The query of a `GET`. -/
def requestQuery (request : Bytes) : Bytes :=
  match strstr (request.drop 4) (str " HTTP/") with
  | none => []
  | some pathEnd => targetQuery (request.drop 4) pathEnd

/-- A parameter is named somewhere in the text. -/
def Names (text key : Bytes) : Prop := key ++ str "=" <:+: text

/-- The backend reads the endpoint of the path and the values of the query. -/
structure Transits (params p q : Bytes) : Prop where
  endpoint : handlerGetParam params (str "endpoint") = some p
  values : ∀ key ∈ chartKeys, handlerGetParam params key = handlerGetParam q key

/-- The first place that names the parameter gives it the value `v`. -/
def Gives (text key v : Bytes) : Prop :=
  ∃ rest, strstr text (key ++ str "=") = some (key ++ str "=" ++ (v ++ rest))
    ∧ ch '&' ∉ v ∧ (rest = [] ∨ rest.head? = some (ch '&'))

/-- A path that says nothing about the parameters but what the query says. -/
structure Harmless (p q : Bytes) : Prop where
  noAmp : ch '&' ∉ p
  /-- A query that does not fit the gate's buffer is not sent at all. -/
  keys : ∀ key ∈ chartKeys,
    (¬Names p key ∧ (q.length < Gate.apiBufferSize ∨ ¬Names q key))
      ∨ ∃ v, Gives p key v ∧ Gives q key v

/-! ## One value -/

section

variable {key : Bytes} (hshort : key.length < 255)

include hshort

theorem searchKey_eq : snprintf 256 (key ++ str "=") = key ++ str "=" := by
  refine snprintf_of_lt ?_
  have hlen : (str "=").length = 1 := rfl
  rw [List.length_append, hlen]
  omega

/-- A value is found where its name is. -/
theorem handlerGetParam_eq_none_iff {text : Bytes} :
    handlerGetParam text key = none ↔ ¬Names text key := by
  unfold handlerGetParam
  dsimp only
  rw [searchKey_eq hshort]
  constructor
  · intro h hnames
    obtain ⟨u, v, rfl⟩ := hnames
    obtain ⟨a, b, hfind, -⟩ := strstr_isSome u (key ++ str "=") v
    rw [List.append_assoc, hfind] at h
    exact absurd h (by simp)
  · intro h
    cases hfind : strstr text (key ++ str "=") with
    | none => rfl
    | some t =>
        obtain ⟨u, hu, ht⟩ := strstr_some hfind
        obtain ⟨v, rfl⟩ := startsWith_iff.mp ht
        exact absurd ⟨u, v, by rw [hu, List.append_assoc]⟩ h

theorem handlerGetParam_nil : handlerGetParam [] key = none := by
  rw [handlerGetParam_eq_none_iff hshort]
  intro h
  simpa [str] using List.infix_nil.mp h

/-- The value is what its name gives it. -/
theorem handlerGetParam_eq_some_iff {text v : Bytes} :
    handlerGetParam text key = some v ↔ Gives text key v := by
  unfold handlerGetParam Gives
  dsimp only
  rw [searchKey_eq hshort]
  cases hfind : strstr text (key ++ str "=") with
  | none => simp
  | some t =>
      obtain ⟨u, hu, ht⟩ := strstr_some hfind
      obtain ⟨s, rfl⟩ := startsWith_iff.mp ht
      dsimp only
      rw [List.drop_left]
      constructor
      · intro h
        by_cases hs : ch '&' ∈ s
        · obtain ⟨a, b, rfl, ha⟩ := List.eq_append_cons_of_mem hs
          rw [untilOr_stop ha] at h
          obtain rfl := Option.some.inj h
          exact ⟨_, rfl, ha, Or.inr rfl⟩
        · rw [untilOr_end hs] at h
          obtain rfl := Option.some.inj h
          exact ⟨[], by rw [List.append_nil], hs, Or.inl rfl⟩
      · rintro ⟨rest, hs, hv, hrest⟩
        obtain rfl := List.append_cancel_left (Option.some.inj hs)
        rcases hrest with rfl | hrest
        · rw [List.append_nil, untilOr_end hv]
        · obtain ⟨b, rfl⟩ : ∃ b, rest = ch '&' :: b := by
            cases rest with
            | nil => simp at hrest
            | cons c b => exact ⟨b, by simpa using hrest⟩
          rw [untilOr_stop hv]

/-- Two texts are read alike if both name the parameter alike, or neither does. -/
theorem handlerGetParam_eq_iff {s t : Bytes} :
    handlerGetParam s key = handlerGetParam t key
      ↔ (¬Names s key ∧ ¬Names t key) ∨ ∃ v, Gives s key v ∧ Gives t key v := by
  simp only [← handlerGetParam_eq_none_iff hshort, ← handlerGetParam_eq_some_iff hshort]
  cases handlerGetParam s key with
  | none => cases handlerGetParam t key <;> simp
  | some v =>
      constructor
      · intro h
        exact Or.inr ⟨v, rfl, h.symm⟩
      · rintro (⟨h, -⟩ | ⟨w, hs, ht⟩)
        · exact absurd h (by simp)
        · rw [hs, ht]

variable (heq : ch '=' ∉ key) (hamp : ch '&' ∉ key) (hend : ¬ key <:+ str "endpoint")

include heq hamp hend

/-- The path is searched before the query. -/
theorem handlerGetParam_apiParams_or {p : Bytes} (hp : ch '&' ∉ p) (q : Bytes) :
    handlerGetParam (Gate.apiParams p q) key
      = (handlerGetParam p key).or (handlerGetParam q key) := by
  have hsep : str "&" = [ch '&'] := rfl
  have hkey : key ++ str "=" = key ++ [ch '='] := rfl
  have hskip : ∀ s : Bytes, strstr (str "endpoint=" ++ s) (key ++ str "=")
      = strstr s (key ++ str "=") := fun s => strstr_skip_mark (by decide) heq hend s
  have hplain : ∀ s : Bytes, handlerGetParam (str "endpoint=" ++ s) key = handlerGetParam s key := by
    intro s
    unfold handlerGetParam
    dsimp only
    rw [searchKey_eq hshort, hskip]
  unfold Gate.apiParams
  by_cases hq : 0 < q.length
  · rw [if_pos hq, List.append_assoc, List.append_assoc, hplain, hsep, List.singleton_append]
    have hno : ch '&' ∉ key ++ str "=" := by
      simp only [List.mem_append, not_or]
      exact ⟨hamp, by decide⟩
    unfold handlerGetParam
    dsimp only
    rw [searchKey_eq hshort]
    cases hfind : strstr p (key ++ str "=") with
    | some t =>
        -- the value found in the path ends with the path
        obtain ⟨u, hu, ht⟩ := strstr_some hfind
        obtain ⟨v, rfl⟩ := startsWith_iff.mp ht
        have hv : ch '&' ∉ v := by
          intro hm
          exact hp (by rw [hu]; simp [hm])
        rw [strstr_append_of_some hfind]
        dsimp only
        rw [List.append_assoc, List.drop_left, List.drop_left, untilOr_stop hv, untilOr_end hv]
        rfl
    | none =>
        have hfirst : startsWith (ch '&' :: q) (key ++ str "=") = false := by
          rw [Bool.eq_false_iff]
          intro hstart
          obtain ⟨r, hr⟩ := startsWith_iff.mp hstart
          obtain ⟨c, w, hw⟩ : ∃ c w, key ++ str "=" = c :: w :=
            List.exists_cons_of_ne_nil (by simp [str])
          rw [hw, List.cons_append, List.cons.injEq] at hr
          exact hno (by rw [hw, ← hr.1]; exact List.mem_cons_self)
        rw [strstr_append_of_none hfind hno, strstr, if_neg (by rw [hfirst]; decide)]
        rfl
  · have hempty : q = [] := List.length_eq_zero_iff.mp (by omega)
    rw [if_neg hq, hplain, hempty, handlerGetParam_nil hshort, Option.or_none]

end

/-! ## The endpoint -/

/-- The endpoint is the path exactly if no `&` cuts it. -/
theorem handlerGetParam_endpoint_iff {p q : Bytes} :
    handlerGetParam (Gate.apiParams p q) (str "endpoint") = some p ↔ ch '&' ∉ p := by
  constructor
  · intro h hm
    obtain ⟨a, b, rfl, ha⟩ := List.eq_append_cons_of_mem hm
    obtain ⟨r, hr⟩ : ∃ r, Gate.apiParams (a ++ ch '&' :: b) q
        = str "endpoint=" ++ (a ++ ch '&' :: r) := by
      unfold Gate.apiParams
      split
      · exact ⟨b ++ str "&" ++ q, by simp⟩
      · exact ⟨b, rfl⟩
    have hcut : handlerGetParam (str "endpoint=" ++ (a ++ ch '&' :: r)) (str "endpoint") = some a := by
      have hkey : str "endpoint" ++ str "=" = str "endpoint=" := rfl
      unfold handlerGetParam
      dsimp only
      rw [searchKey_eq (by decide), hkey, strstr_head (startsWith_append _ _)]
      dsimp only
      rw [List.drop_left, untilOr_stop ha]
    rw [hr, hcut] at h
    have hlen := congrArg List.length (Option.some.inj h)
    rw [List.length_append, List.length_cons] at hlen
    omega
  · exact fun h => handlerGetParam_endpoint h q

/-! ## One request -/

/-- The gate keeps a query that fits its buffer. -/
theorem apiQuery_eq (start pathEnd : Bytes) :
    Gate.apiQuery start pathEnd
      = if (targetQuery start pathEnd).length < Gate.apiBufferSize then targetQuery start pathEnd
        else [] := by
  rcases Option.eq_none_or_eq_some (Gate.queryStart start pathEnd) with hquery | ⟨q, hquery⟩
  · simp only [Gate.apiQuery, targetQuery, hquery]
    rfl
  · simp only [Gate.apiQuery, targetQuery, hquery]
    by_cases hnil : upTo (q.drop 1) pathEnd = []
    · rw [hnil]
      rfl
    · have hpos := List.length_pos_iff.mpr hnil
      simp only [hpos, true_and]

/-- What the gate sends for a request it forwards. -/
theorem params_of_forwarded {maxParamsLen : Nat} {request params p : Bytes}
    (hforward : Gate.parseApiRequest maxParamsLen request = some params)
    (hpath : Gate.extractPath request = some (ch '/' :: p)) :
    params = Gate.apiParams p
      (if (requestQuery request).length < Gate.apiBufferSize then requestQuery request else []) := by
  unfold Gate.parseApiRequest at hforward
  split at hforward
  case isFalse => exact absurd hforward (by simp)
  rename_i hget
  dsimp only at hforward
  unfold Gate.extractPath Gate.targetStart at hpath
  rw [if_pos hget] at hpath
  dsimp only at hpath
  unfold requestQuery
  generalize request.drop 4 = start at *
  cases hend : strstr start (str " HTTP/") with
  | none =>
      rw [hend] at hforward
      exact absurd hforward (by simp)
  | some pathEnd =>
      rw [hend] at hforward hpath
      dsimp only at hforward hpath ⊢
      have hup : upTo start ((Gate.queryStart start pathEnd).getD pathEnd) = ch '/' :: p :=
        Option.some.inj hpath
      have hskip : (start.drop 1).take p.length = p := by
        obtain ⟨r, hr⟩ : ch '/' :: p <+: start := hup ▸ List.take_prefix ..
        rw [← hr, List.cons_append, List.drop_succ_cons, List.drop_zero, List.take_left]
      rw [hup, List.length_cons, Nat.add_sub_cancel, hskip] at hforward
      split at hforward
      · exact absurd hforward (by simp)
      split at hforward
      · exact absurd hforward (by simp)
      split at hforward
      · exact absurd hforward (by simp)
      rw [← Option.some.inj hforward, apiQuery_eq]

/-- What is read of the text the gate sends, by parameter. -/
theorem transits_iff {p q sent : Bytes}
    (hsent : sent = if q.length < Gate.apiBufferSize then q else []) :
    Transits (Gate.apiParams p sent) p q ↔ Harmless p q := by
  -- every one of the four keys is a plain name that the word `endpoint` does not end in
  have hplain : ∀ key ∈ chartKeys, key.length < 255 ∧ ch '=' ∉ key ∧ ch '&' ∉ key
      ∧ ¬ key <:+ str "endpoint" := by
    have hall : chartKeys.all (fun key => decide (key.length < 255 ∧ ch '=' ∉ key ∧ ch '&' ∉ key
        ∧ ¬ key <:+ str "endpoint")) = true := by decide
    intro key hkey
    exact of_decide_eq_true (List.all_eq_true.mp hall key hkey)
  have hkeys : ch '&' ∉ p → ∀ key ∈ chartKeys,
      (handlerGetParam (Gate.apiParams p sent) key = handlerGetParam q key
        ↔ (¬Names p key ∧ (q.length < Gate.apiBufferSize ∨ ¬Names q key))
          ∨ ∃ v, Gives p key v ∧ Gives q key v) := by
    intro hp key hkey
    obtain ⟨hshort, heq, hamp, hend⟩ := hplain key hkey
    have halike := handlerGetParam_eq_iff hshort (s := p) (t := q)
    rw [handlerGetParam_apiParams_or hshort heq hamp hend hp]
    by_cases hnames : Names p key
    · obtain ⟨v, hv⟩ := Option.ne_none_iff_exists'.mp fun h =>
        (handlerGetParam_eq_none_iff hshort).mp h hnames
      rw [hv] at halike ⊢
      rw [Option.some_or, halike]
      simp [hnames]
    · have hv := (handlerGetParam_eq_none_iff hshort).mpr hnames
      have hno : ∀ v, ¬Gives p key v := by
        intro v hgives
        rw [(handlerGetParam_eq_some_iff hshort).mpr hgives] at hv
        exact absurd hv (by simp)
      rw [hv, Option.none_or, hsent]
      by_cases hlen : q.length < Gate.apiBufferSize
      · rw [if_pos hlen]
        simp [hlen, hnames]
      · rw [if_neg hlen, handlerGetParam_nil hshort, eq_comm, handlerGetParam_eq_none_iff hshort]
        simp [hlen, hnames, hno]
  constructor
  · intro h
    have hp := handlerGetParam_endpoint_iff.mp h.endpoint
    exact ⟨hp, fun key hkey => (hkeys hp key hkey).mp (h.values key hkey)⟩
  · intro h
    exact ⟨handlerGetParam_endpoint_iff.mpr h.noAmp,
      fun key hkey => (hkeys h.noAmp key hkey).mpr (h.keys key hkey)⟩

/--
**When path and query arrive as they were sent.**

For every request the gate forwards, the backend reads the path as the endpoint and the
query's values exactly if the path is harmless.
-/
theorem endpoint_transit_iff {maxParamsLen : Nat} {request params p : Bytes}
    (hforward : Gate.parseApiRequest maxParamsLen request = some params)
    (hpath : Gate.extractPath request = some (ch '/' :: p)) :
    Transits params p (requestQuery request) ↔ Harmless p (requestQuery request) := by
  rw [params_of_forwarded hforward hpath]
  exact transits_iff rfl

/-- A plain path arrives. -/
theorem endpoint_transit_cpu :
    Transits (str "endpoint=cpu/0&period=60&width=500") (str "cpu/0") (str "period=60&width=500") := by
  have hquery : requestQuery (getRequest (str "cpu/0") (str "period=60&width=500") [])
      = str "period=60&width=500" := by decide +kernel
  have hnames : ∀ key ∈ chartKeys, ¬Names (str "cpu/0") key := by
    intro key _ h
    exact absurd (h.subset (by simp [str])) (show ch '=' ∉ str "cpu/0" by decide)
  rw [← hquery]
  refine (endpoint_transit_iff
    (show Gate.parseApiRequest 4096 (getRequest (str "cpu/0") (str "period=60&width=500") [])
      = some (str "endpoint=cpu/0&period=60&width=500") by decide +kernel)
    (show Gate.extractPath (getRequest (str "cpu/0") (str "period=60&width=500") [])
      = some (ch '/' :: str "cpu/0") by decide +kernel)).mpr ⟨by decide, ?_⟩
  intro key hkey
  exact Or.inl ⟨hnames key hkey, Or.inl (by rw [hquery]; decide)⟩

/-- An `&` in the path cuts the endpoint, and what follows it is read before the query. -/
theorem endpoint_altered_ampersand :
    let request := getRequest (str "cpu&period=5") (str "period=60") (str "
")
    let params := str "endpoint=cpu&period=5&period=60"
    Gate.parseApiRequest 4096 request = some params
      ∧ Gate.extractPath request = some (ch '/' :: str "cpu&period=5")
      ∧ requestQuery request = str "period=60"
      ∧ handlerGetParam params (str "endpoint") = some (str "cpu")
      ∧ handlerGetParam params (str "period") = some (str "5")
      ∧ ¬Transits params (str "cpu&period=5") (str "period=60") := by
  intro request params
  have hcut : handlerGetParam params (str "endpoint") = some (str "cpu") := by decide +kernel
  refine ⟨by decide +kernel, by decide +kernel, by decide +kernel, hcut, by decide +kernel, ?_⟩
  intro h
  exact absurd (hcut.symm.trans h.endpoint) (by decide)

end Svgd.Backend
