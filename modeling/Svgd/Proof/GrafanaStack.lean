import Svgd.Backend.Grafana

/-!
# The Grafana query and the Duktape stack

`grafana_query` protects only the decoding of its body. Reading a property is not
protected, so a body that decodes to `null`, or whose `targets` array holds a `null`,
ends the process. On every other body, whatever its shape, the handler returns and
leaves the stack as it found it.

Each reader has a run lemma: the stack it leaves is the stack it was started on, or it
aborts, and which of the two happens is decided by the value it reads from.
-/

namespace Svgd.Backend

open Lib Stacked

/-! ## Properties -/

theorem pushProp_run (p : Option Json) (st : List DukVal) :
    ∃ v, Duk.pushProp p st = some (p.isSome, v :: st) ∧ (∀ j, p = some j → v = .json j) := by
  cases p with
  | none => exact ⟨.undefined, rfl, by simp⟩
  | some j => exact ⟨.json j, rfl, by simp⟩

/-- On a value other than `null` a property read pushes one value. -/
theorem getPropString_run {j : Json} (hj : j ≠ .null) (key : Bytes) (st : List DukVal) :
    ∃ found v, Duk.getPropString key (.json j :: st) = some (found, v :: .json j :: st)
      ∧ (∀ members, j = .obj members → found = (Json.member members key).isSome
          ∧ ∀ k, Json.member members key = some k → v = .json k)
      ∧ ((∀ members, j ≠ .obj members) → found = false) := by
  cases j with
  | null => exact absurd rfl hj
  | obj members =>
      obtain ⟨v, hv, hk⟩ := pushProp_run (Json.member members key) (.json (.obj members) :: st)
      refine ⟨_, v, hv, ?_, ?_⟩
      · intro ms hms
        rw [← Json.obj.inj hms]
        exact ⟨rfl, hk⟩
      · intro h
        exact absurd rfl (h members)
  | bool b => exact ⟨false, .undefined, rfl, by simp, by simp⟩
  | num q => exact ⟨false, .undefined, rfl, by simp, by simp⟩
  | str s => exact ⟨false, .undefined, rfl, by simp, by simp⟩
  | arr items => exact ⟨false, .undefined, rfl, by simp, by simp⟩

theorem getPropString_null (key : Bytes) (st : List DukVal) :
    Duk.getPropString key (.json .null :: st) = none := rfl

theorem getString_run (v : DukVal) (st : List DukVal) :
    ∃ s, Duk.getString (v :: st) = some (s, v :: st) := by
  cases v with
  | undefined => exact ⟨none, rfl⟩
  | error => exact ⟨none, rfl⟩
  | json j => cases j <;> exact ⟨_, rfl⟩

/-! ## The range -/

theorem rangeTime_run {j : Json} (hj : j ≠ .null) (key : Bytes) (st : List DukVal) :
    ∃ t, rangeTime key (.json j :: st) = some (t, .json j :: st) := by
  obtain ⟨found, v, hget, -⟩ := getPropString_run hj key st
  obtain ⟨s, hs⟩ := getString_run v (.json j :: st)
  refine ⟨(s.map parseIso8601).getD 0, ?_⟩
  unfold rangeTime
  rw [bind_run hget, bind_run hs, bind_run (pop_run _ _), pure_run]

theorem isObject_run (v : DukVal) (st : List DukVal) :
    ∃ b, Duk.isObject (v :: st) = some (b, v :: st) ∧ (b = true → ∃ j, v = .json j ∧ j ≠ .null) := by
  cases v with
  | undefined => exact ⟨false, rfl, by simp⟩
  | error => exact ⟨false, rfl, by simp⟩
  | json j =>
      cases j with
      | obj members => exact ⟨true, rfl, fun _ => ⟨_, rfl, by simp⟩⟩
      | arr items => exact ⟨true, rfl, fun _ => ⟨_, rfl, by simp⟩⟩
      | null => exact ⟨false, rfl, by simp⟩
      | bool b => exact ⟨false, rfl, by simp⟩
      | num q => exact ⟨false, rfl, by simp⟩
      | str s => exact ⟨false, rfl, by simp⟩

theorem rangeTimes_run (v : DukVal) (st : List DukVal) :
    ∃ times, rangeTimes (v :: st) = some (times, v :: st) := by
  obtain ⟨b, hobj, hb⟩ := isObject_run v st
  unfold rangeTimes
  rw [bind_run hobj]
  cases b with
  | false => exact ⟨(0, 0), rfl⟩
  | true =>
      obtain ⟨j, rfl, hj⟩ := hb rfl
      obtain ⟨start, hstart⟩ := rangeTime_run hj (str "from") st
      obtain ⟨stop, hstop⟩ := rangeTime_run hj (str "to") st
      refine ⟨(start, stop), ?_⟩
      rw [if_pos rfl, bind_run hstart, bind_run hstop, pure_run]

theorem readRange_run {j : Json} (hj : j ≠ .null) (st : List DukVal) :
    ∃ times, readRange (.json j :: st) = some (times, .json j :: st) := by
  obtain ⟨found, v, hget, -⟩ := getPropString_run hj (str "range") st
  obtain ⟨times, htimes⟩ := rangeTimes_run v (.json j :: st)
  refine ⟨times, ?_⟩
  unfold readRange
  rw [bind_run hget, bind_run htimes, bind_run (pop_run _ _), pure_run]

theorem readRange_null (st : List DukVal) : readRange (.json .null :: st) = none :=
  bind_abort (getPropString_null _ _)

/-! ## The targets -/

theorem addTarget_run {j : Json} (hj : j ≠ .null) (targets : List Bytes) (st : List DukVal) :
    ∃ targets' v, addTarget targets (.json j :: st) = some (targets', v :: .json j :: st) := by
  obtain ⟨found, v, hget, -⟩ := getPropString_run hj (str "target") st
  obtain ⟨s, hs⟩ := getString_run v (.json j :: st)
  unfold addTarget
  rw [bind_run hget]
  cases found with
  | false => exact ⟨targets, v, rfl⟩
  | true =>
      rw [if_pos rfl, bind_run hs]
      cases s with
      | none => exact ⟨targets, v, rfl⟩
      | some t => exact ⟨_, v, rfl⟩

/-- One target: its element is read unless it is `null`. -/
theorem readTarget_run {items : List Json} {i : Nat} (hi : i < items.length)
    (targets : List Bytes) (st : List DukVal) :
    (items[i] = .null → readTarget i targets (.json (.arr items) :: st) = none)
    ∧ (items[i] ≠ .null → ∃ targets',
        readTarget i targets (.json (.arr items) :: st)
          = some (targets', .json (.arr items) :: st)) := by
  have hindex : Duk.getPropIndex i (.json (.arr items) :: st)
      = some (true, .json items[i] :: .json (.arr items) :: st) := by
    show Duk.pushProp items[i]? (.json (.arr items) :: st) = _
    rw [List.getElem?_eq_getElem hi]
    rfl
  unfold readTarget
  rw [bind_run hindex, if_pos rfl]
  constructor
  · intro hnull
    rw [hnull]
    exact bind_abort (m := addTarget targets) (bind_abort (getPropString_null _ _))
  · intro hne
    obtain ⟨targets', v, hadd⟩ := addTarget_run hne targets (.json (.arr items) :: st)
    have hpop : Duk.pop2 (v :: .json items[i] :: .json (.arr items) :: st)
        = some ((), .json (.arr items) :: st) := rfl
    exact ⟨targets', by rw [bind_run hadd, bind_run hpop, pure_run]⟩

/-- The whole loop: it runs through unless one of its elements is `null`. -/
theorem readTargetsFrom_run {items : List Json} (st : List DukVal) :
    ∀ (is : List Nat) (targets : List Bytes), (∀ i ∈ is, i < items.length) →
    (((∃ i ∈ is, items[i]? = some .null) ∧
        readTargetsFrom is targets (.json (.arr items) :: st) = none)
      ∨ ((∀ i ∈ is, items[i]? ≠ some .null) ∧ ∃ targets',
        readTargetsFrom is targets (.json (.arr items) :: st)
          = some (targets', .json (.arr items) :: st)))
  | [], targets, _ => Or.inr ⟨by simp, targets, rfl⟩
  | i :: is, targets, hlt => by
      have hi := hlt i List.mem_cons_self
      obtain ⟨hnull, hrun⟩ := readTarget_run hi targets st
      -- the first `null` ends the process, whatever stands behind it
      by_cases hitem : items[i] = .null
      · refine Or.inl ⟨⟨i, List.mem_cons_self, by rw [List.getElem?_eq_getElem hi, hitem]⟩, ?_⟩
        exact bind_abort (hnull hitem)
      · obtain ⟨targets', hread⟩ := hrun hitem
        have hrest := readTargetsFrom_run st is targets' fun k hk =>
          hlt k (List.mem_cons_of_mem _ hk)
        have hstep : readTargetsFrom (i :: is) targets (.json (.arr items) :: st)
            = readTargetsFrom is targets' (.json (.arr items) :: st) := bind_run hread
        rw [hstep]
        rcases hrest with ⟨⟨k, hk, hkn⟩, habort⟩ | ⟨hall, targets'', hdone⟩
        · exact Or.inl ⟨⟨k, List.mem_cons_of_mem _ hk, hkn⟩, habort⟩
        · refine Or.inr ⟨?_, targets'', hdone⟩
          intro k hk
          rcases List.mem_cons.mp hk with rfl | hk
          · rw [List.getElem?_eq_getElem hi]
            simpa using hitem
          · exact hall k hk

/-- The value of `targets` can be read: it is no array, or one without a `null`. -/
def NoNullItem : Json → Prop
  | .arr items => ∀ k ∈ items, k ≠ .null
  | _ => True

theorem arrayTargets_run (j : Json) (st : List DukVal) :
    (NoNullItem j → ∃ targets, arrayTargets (.json j :: st) = some (targets, .json j :: st))
    ∧ (¬ NoNullItem j → arrayTargets (.json j :: st) = none) := by
  cases j with
  | arr items =>
      have hlen : Duk.arrayLength (.json (.arr items) :: st)
          = some (some items.length, .json (.arr items) :: st) := rfl
      unfold arrayTargets
      rw [bind_run hlen]
      rcases readTargetsFrom_run st (List.range items.length) []
          (fun i hi => List.mem_range.mp hi) with ⟨⟨i, _, hnull⟩, habort⟩ | ⟨hall, targets, hrun⟩
      · exact ⟨fun h => absurd rfl (h .null (List.mem_of_getElem? hnull)), fun _ => habort⟩
      · refine ⟨fun _ => ⟨targets, hrun⟩, fun h => absurd ?_ h⟩
        intro k hk hnull
        obtain ⟨i, hi, hget⟩ := List.mem_iff_getElem.mp hk
        exact hall i (List.mem_range.mpr hi) (by rw [List.getElem?_eq_getElem hi, hget, hnull])
  | null => exact ⟨fun _ => ⟨[], rfl⟩, fun h => absurd trivial h⟩
  | bool b => exact ⟨fun _ => ⟨[], rfl⟩, fun h => absurd trivial h⟩
  | num q => exact ⟨fun _ => ⟨[], rfl⟩, fun h => absurd trivial h⟩
  | str s => exact ⟨fun _ => ⟨[], rfl⟩, fun h => absurd trivial h⟩
  | obj members => exact ⟨fun _ => ⟨[], rfl⟩, fun h => absurd trivial h⟩

/-- The query can be read: it is not `null`, and its `targets` hold no `null`. -/
def Readable : Json → Prop
  | .null => False
  | .obj members => ∀ j, Json.member members (str "targets") = some j → NoNullItem j
  | _ => True

theorem readTargets_run {j : Json} (hj : j ≠ .null) (st : List DukVal) :
    (Readable j → ∃ targets, readTargets (.json j :: st) = some (targets, .json j :: st))
    ∧ (¬ Readable j → readTargets (.json j :: st) = none) := by
  obtain ⟨found, v, hget, hobj, hother⟩ := getPropString_run hj (str "targets") st
  unfold readTargets
  rw [bind_run hget]
  cases found with
  | false =>
      have hreadable : Readable j := by
        cases j with
        | null => exact absurd rfl hj
        | obj members =>
            intro k hk
            have hfound := (hobj members rfl).1
            rw [hk] at hfound
            exact absurd hfound (by simp)
        | bool b => trivial
        | num q => trivial
        | str s => trivial
        | arr items => trivial
      refine ⟨fun _ => ⟨[], ?_⟩, fun h => absurd hreadable h⟩
      rw [if_neg (by simp), bind_run (pop_run _ _), pure_run]
  | true =>
      -- only an object has the property
      obtain ⟨members, rfl⟩ : ∃ members, j = .obj members := by
        by_contra hno
        push Not at hno
        exact absurd (hother hno) (by simp)
      obtain ⟨hfound, hv⟩ := hobj members rfl
      obtain ⟨k, hk⟩ := Option.isSome_iff_exists.mp hfound.symm
      obtain ⟨hrun, habort⟩ := arrayTargets_run k (.json (.obj members) :: st)
      have hiff : Readable (.obj members) ↔ NoNullItem k := by
        constructor
        · exact fun h => h k hk
        · intro h k' hk'
          rw [hk] at hk'
          exact Option.some.inj hk' ▸ h
      rw [if_pos rfl, hv k hk, hiff]
      refine ⟨fun h => ?_, fun h => bind_abort (habort h)⟩
      obtain ⟨targets, ht⟩ := hrun h
      exact ⟨targets, by rw [bind_run ht, bind_run (pop_run _ _), pure_run]⟩

/-! ## The whole query -/

theorem readDecoded_run (j : Json) (st : List DukVal) :
    (Readable j → ∃ q, readDecoded (.json j :: st) = some (q, st))
    ∧ (¬ Readable j → readDecoded (.json j :: st) = none) := by
  by_cases hj : j = .null
  · rw [hj]
    exact ⟨fun h => absurd h (by simp [Readable]), fun _ => bind_abort (readRange_null st)⟩
  · obtain ⟨times, htimes⟩ := readRange_run hj st
    obtain ⟨hrun, habort⟩ := readTargets_run hj st
    unfold readDecoded
    rw [bind_run htimes]
    refine ⟨fun h => ?_, fun h => bind_abort (habort h)⟩
    obtain ⟨targets, ht⟩ := hrun h
    exact ⟨_, by rw [bind_run ht, bind_run (pop_run _ _), pure_run]⟩

theorem safeJsonDecode_run (decode : Bytes → Option Json) (body : Bytes)
    (hbody : (0 : UInt8) ∉ body) (st : List DukVal) :
    Duk.safeJsonDecode decode (.json (.str body) :: st)
      = match decode body with
        | some j => some (true, .json j :: st)
        | none => some (false, .error :: st) := by
  have hget : Duk.getString (.json (.str body) :: st)
      = some (some body, .json (.str body) :: st) := by
    show some (some (cstr body), _) = _
    rw [cstr_eq_self hbody]
  unfold Duk.safeJsonDecode
  rw [bind_run hget]
  dsimp only
  rw [bind_run (pop_run _ _)]
  cases decode body with
  | none => rfl
  | some j => rfl

/-- What a query asks to be decoded, when the handler gets that far. -/
def queryBody (env : GrafanaEnv) (query : Option Bytes) : Option Bytes :=
  if env.hasContext then
    (query.bind fun q => handlerGetParam q (str "body")).map fun enc => cstr (urlDecode enc)
  else none

theorem readBody_run (env : GrafanaEnv) {body : Bytes} (hbody : (0 : UInt8) ∉ body)
    (st : List DukVal) :
    ((∀ j, env.jsonDecode body = some j → Readable j) → ∃ r, readBody env body st = some (r, st))
    ∧ (¬ (∀ j, env.jsonDecode body = some j → Readable j) → readBody env body st = none) := by
  have hdecode := safeJsonDecode_run env.jsonDecode body hbody st
  unfold readBody Duk.pushString
  rw [bind_run (push_run _ _)]
  cases hj : env.jsonDecode body with
  | none =>
      rw [hj] at hdecode
      refine ⟨fun _ => ⟨.error (errorResult (str "Invalid JSON body")), ?_⟩,
        fun h => absurd (by simp) h⟩
      rw [bind_run hdecode, if_neg (by simp), bind_run (pop_run _ _), pure_run]
  | some j =>
      rw [hj] at hdecode
      obtain ⟨hrun, habort⟩ := readDecoded_run j st
      rw [bind_run hdecode, if_pos rfl]
      simp only [Option.some.injEq, forall_eq']
      refine ⟨fun h => ?_, fun h => bind_abort (habort h)⟩
      obtain ⟨q, hq⟩ := hrun h
      exact ⟨_, by rw [bind_run hq, pure_run]⟩

theorem readQuery_run (env : GrafanaEnv) (query : Option Bytes) (st : List DukVal) :
    ((∀ body, queryBody env query = some body → ∀ j, env.jsonDecode body = some j → Readable j) →
      ∃ r, readQuery env query st = some (r, st))
    ∧ (¬ (∀ body, queryBody env query = some body → ∀ j, env.jsonDecode body = some j → Readable j) →
      readQuery env query st = none) := by
  unfold readQuery queryBody
  cases query with
  | none => exact ⟨fun _ => ⟨_, rfl⟩, fun h => absurd (by simp) h⟩
  | some q =>
      dsimp only
      rw [Option.bind_some]
      cases handlerGetParam q (str "body") with
      | none => exact ⟨fun _ => ⟨_, rfl⟩, fun h => absurd (by simp) h⟩
      | some enc =>
          dsimp only
          cases env.hasContext with
          | false => exact ⟨fun _ => ⟨_, rfl⟩, fun h => absurd (by simp) h⟩
          | true =>
              simp only [if_true, Option.map_some, Option.some.injEq, forall_eq']
              exact readBody_run env (cstr_no_nul _) st

/-- A query whose body is decoded is read from the value it decodes to. -/
theorem readQuery_decoded {env : GrafanaEnv} {query : Option Bytes} {body : Bytes} {j : Json}
    (hbody : queryBody env query = some body) (hdecode : env.jsonDecode body = some j)
    (st : List DukVal) :
    readQuery env query st
      = (do let q ← readDecoded; pure (.ok q) :
          Duk (Except HandlerResult (List Bytes × Int))) (.json j :: st) := by
  unfold queryBody at hbody
  cases hcontext : env.hasContext with
  | false =>
      rw [hcontext] at hbody
      cases hbody
  | true =>
      rw [hcontext, if_pos rfl] at hbody
      obtain ⟨enc, henc, rfl⟩ := Option.map_eq_some_iff.mp hbody
      obtain ⟨q, rfl, hget⟩ := Option.bind_eq_some_iff.mp henc
      have hjson := safeJsonDecode_run env.jsonDecode (cstr (urlDecode enc)) (cstr_no_nul _) st
      rw [hdecode] at hjson
      unfold readQuery
      dsimp only
      rw [hget]
      dsimp only
      rw [hcontext, if_pos rfl]
      unfold readBody Duk.pushString
      rw [bind_run (push_run _ _), bind_run hjson, if_pos rfl]

/-- The handler returns where the query can be read, and ends the process elsewhere. -/
theorem grafanaQuery_run (env : GrafanaEnv) (query : Option Bytes) (st : List DukVal) :
    ((∀ body, queryBody env query = some body → ∀ j, env.jsonDecode body = some j → Readable j) →
      ∃ r, grafanaQuery env query st = some (r, st))
    ∧ (¬(∀ body, queryBody env query = some body → ∀ j, env.jsonDecode body = some j → Readable j) →
      grafanaQuery env query st = none) := by
  obtain ⟨hrun, habort⟩ := readQuery_run env query st
  refine ⟨fun h => ?_, fun h => bind_abort (habort h)⟩
  obtain ⟨r, hr⟩ := hrun h
  unfold grafanaQuery
  rw [bind_run hr]
  cases r with
  | error e => exact ⟨e, rfl⟩
  | ok q => exact ⟨_, rfl⟩

/--
**The handler returns, with the stack as it found it, exactly on the readable queries.**

Everything counts as readable that never reaches the decoder or that it refuses, and
every decoded value other than `null` whose `targets`, if they are an array, hold no
`null`. On the others the process ends.
-/
theorem grafana_query_returns_iff (env : GrafanaEnv) (query : Option Bytes)
    (st : List DukVal) :
    (∃ r st', grafanaQuery env query st = some (r, st') ∧ st'.length = st.length)
      ↔ ∀ body, queryBody env query = some body → ∀ j, env.jsonDecode body = some j →
          Readable j := by
  obtain ⟨hrun, habort⟩ := grafanaQuery_run env query st
  constructor
  · rintro ⟨r, st', hq, -⟩
    by_contra h
    rw [habort h] at hq
    cases hq
  · intro h
    obtain ⟨r, hr⟩ := hrun h
    exact ⟨r, st, hr, rfl⟩

/-- A backend without metrics, with a decoder that knows the text `null`. -/
def nullEnv : GrafanaEnv where
  config := {}
  jsonDecode := fun b => if b = str "null" then some .null else none
  fetch := fun _ _ _ _ => none

/-- The body `null` takes the backend down. -/
theorem grafana_query_null_aborts :
    ¬ ∃ r st', grafanaQuery nullEnv (some (str "endpoint=_grafana/query&body=null")) []
        = some (r, st') ∧ st'.length = 0 := by
  have hbody : queryBody nullEnv (some (str "endpoint=_grafana/query&body=null"))
      = some (str "null") := by
    decide +kernel
  have hunreadable : ¬ ∀ body, queryBody nullEnv (some (str "endpoint=_grafana/query&body=null"))
      = some body → ∀ j, nullEnv.jsonDecode body = some j → Readable j :=
    fun h => h _ hbody .null rfl
  rintro ⟨r, st', hq, -⟩
  rw [(grafanaQuery_run nullEnv _ []).2 hunreadable] at hq
  cases hq

end Svgd.Backend
