import Svgd.Proof.DatasourceStore

/-!
# Answers to datasource updates

A request that updates the list is read twice: once by what it says (the JSON body, the
name in the URL) and once by what the code makes of it (a scan for quoted words, a name
cut to 63 bytes). `Mutation.Truthful` compares the answer with the first reading, and
`Mutation.Exact` says when the two readings agree where it matters. The answer is
truthful exactly then; what is refused leaves the list alone in any case.
-/

namespace Svgd.Gate

open Lib

/-- The status code of an answer. -/
def Response.status : Response → Nat
  | .json status _ => status
  | .error _ => 400
  | .notFound => 404
  | .unauthorized _ => 401
  | .ok _ _ => 200
  | .preflight _ _ => 200

/-- The request was answered with this status. -/
def Outcome.answers (o : Outcome) (status : Nat) : Bool :=
  o.effects.any fun
    | .respond r => r.status == status
    | _ => false

/-- A request that updates the list, by what it says. -/
inductive Mutation where
  /-- `POST /_datasources`, with its body if it has one. -/
  | post (body : Option Bytes)
  /-- `DELETE /_datasources/<name>`. -/
  | delete (name : Bytes)
  /-- `PUT /_datasources/<name>/default`. -/
  | setDefault (name : Bytes)
deriving DecidableEq, Repr

/-- The name in `/_datasources/<name>[/...]`, as the URL has it. -/
def urlName (path : Bytes) : Bytes :=
  untilOr (path.drop 14) (strchr (path.drop 14) (ch '/'))

/-- The update a buffer asks for. -/
def mutationRequest (buffer : Bytes) : Option Mutation :=
  match extractPath buffer with
  | none => none
  | some path =>
      if path = str "/_datasources" then
        if startsWith buffer (str "POST ") then some (.post (extractBody buffer)) else none
      else if startsWith path (str "/_datasources/") then
        if startsWith buffer (str "DELETE ") then some (.delete (urlName path))
        else if strchr (path.drop 14) (ch '/') = some (str "/default")
            ∧ startsWith buffer (str "PUT ") then
          some (.setDefault (urlName path))
        else none
      else none

/-- The answer to an update tells what happened to the list. -/
def Mutation.Truthful (ds : DatasourceList) (o : Outcome) : Mutation → Prop
  | .post body =>
      (o.answers 201 = true ↔ ∃ d, body.bind jsonDatasource = some d
        ∧ o.datasources.items = ds.items ++ [d])
      ∧ (o.answers 201 = false → o.datasources = ds)
  | .delete name =>
      (o.answers 204 = true ↔ (∃ d ∈ ds.items, d.name = name)
        ∧ o.datasources.items = ds.items.filter fun d => d.name != name)
      ∧ (o.answers 204 = false → o.datasources = ds)
  | .setDefault name =>
      (o.answers 200 = true ↔ name ≠ [] ∧ o.datasources = { ds with defaultName := name })
      ∧ (o.answers 200 = false → o.datasources = ds)

/-- The list takes what the scanner reads: all three members are there, there is room, and the
name is free. -/
def Accepts (ds : DatasourceList) (d : Datasource) : Prop :=
  d.name ≠ [] ∧ d.host ≠ [] ∧ 0 < d.port ∧ ds.items.length < maxDatasources
    ∧ ∀ e ∈ ds.items, e.name ≠ d.name

/-- What the code makes of an update is what it says, where that decides the outcome. -/
def Mutation.Exact (ds : DatasourceList) : Mutation → Prop
  | .post none => True
  | .post (some body) =>
      -- a body that is stored was scanned as what it says, and its port is one
      Accepts ds ⟨bodyName body, bodyHost body, bodyPort body⟩ →
        bodyPort body ≤ 65535
          ∧ jsonDatasource body = some ⟨bodyName body, bodyHost body, bodyPort body⟩
  | .delete name | .setDefault name =>
      -- a name that is cut to 63 bytes does not become a stored one
      63 < name.length → ∀ d ∈ ds.items, d.name ≠ name.take 63

/-! ## The handlers -/

/-- What the routes do with an update. -/
def Mutation.handle (ds : DatasourceList) : Mutation → Outcome
  | .post none => answer ds (.json 400 (str "\x7b\"error\":\"Missing request body\"\x7d"))
  | .post (some body) => handlePostDatasource ds body
  | .delete name => handleDeleteDatasource ds (name.take 63)
  | .setDefault name => handleSetDefault ds (name.take 63)

theorem mutationRequest_path {buffer : Bytes} {m : Mutation} (h : mutationRequest buffer = some m) :
    ∃ path, extractPath buffer = some path
      ∧ (path = str "/_datasources" ∨ startsWith path (str "/_datasources/") = true)
      ∧ startsWith buffer (str "OPTIONS ") = false := by
  have hother : ∀ method, startsWith buffer method = true → method.head? ≠ some (ch 'O') →
      method ≠ [] → startsWith buffer (str "OPTIONS ") = false := by
    intro method hs hhead hne
    obtain ⟨t, rfl⟩ := startsWith_iff.mp hs
    cases method with
    | nil => exact absurd rfl hne
    | cons b method =>
        have hb : ch 'O' ≠ b := by simpa [eq_comm] using hhead
        simp [str, hb]
  unfold mutationRequest at h
  split at h
  · exact absurd h (by simp)
  rename_i path hpath
  split at h
  · rename_i hds
    split at h
    · rename_i hpost
      exact ⟨path, hpath, Or.inl hds, hother _ hpost (by decide) (by decide)⟩
    · exact absurd h (by simp)
  split at h
  · rename_i hds
    split at h
    · rename_i hdel
      exact ⟨path, hpath, Or.inr hds, hother _ hdel (by decide) (by decide)⟩
    split at h
    · rename_i hput
      exact ⟨path, hpath, Or.inr hds, hother _ hput.2 (by decide) (by decide)⟩
    · exact absurd h (by simp)
  · exact absurd h (by simp)

theorem routeDatasources_mutation {ds : DatasourceList} {path buffer : Bytes} {m : Mutation}
    (hpath : extractPath buffer = some path) (h : mutationRequest buffer = some m) :
    routeDatasources ds path buffer = m.handle ds := by
  unfold mutationRequest at h
  rw [hpath] at h
  dsimp only at h
  unfold routeDatasources
  split at h
  · rename_i hds
    rw [if_pos hds]
    split at h
    · rename_i hpost
      injection h with h
      have hget : startsWith buffer (str "GET ") = false := by
        obtain ⟨t, rfl⟩ := startsWith_iff.mp hpost
        rfl
      rw [if_neg (by simp [hget]), if_pos hpost, ← h]
      cases extractBody buffer with
      | none => rfl
      | some body => rfl
    · exact absurd h (by simp)
  · rename_i hds
    rw [if_neg hds]
    split at h
    · split at h
      · rename_i hdel
        injection h with h
        dsimp only
        rw [if_pos hdel, ← h]
        rfl
      split at h
      · rename_i hdel hput
        injection h with h
        dsimp only
        rw [if_neg hdel, if_pos hput, ← h]
        rfl
      · exact absurd h (by simp)
    · exact absurd h (by simp)

/-- With a valid token an update reaches its handler; without one it is answered 401. -/
theorem handleRequest_mutation {env : Env} {ds : DatasourceList} {received : Bytes} {m : Mutation}
    (h : mutationRequest (cstr received) = some m) :
    handleRequest env ds received = if hasValidToken env (cstr received) then m.handle ds
      else answer ds (.unauthorized (str "Missing or invalid token")) := by
  obtain ⟨path, hpath, hds, hopt⟩ := mutationRequest_path h
  rw [handleRequest_datasources hpath hds hopt, routeDatasources_mutation hpath h]

/-! ## One update -/

section

variable {ds : DatasourceList}

/-- A body the list does not take is refused, and the list stays. -/
theorem handlePostDatasource_refused {body : Bytes}
    (h : ¬ Accepts ds ⟨bodyName body, bodyHost body, bodyPort body⟩) :
    (handlePostDatasource ds body).answers 201 = false
      ∧ (handlePostDatasource ds body).datasources = ds := by
  unfold handlePostDatasource
  dsimp only
  split
  · exact ⟨rfl, rfl⟩
  rename_i hgiven
  push Not at hgiven
  unfold addDatasource
  by_cases hroom : maxDatasources ≤ ds.items.length
  · rw [if_pos hroom]
    exact ⟨rfl, rfl⟩
  rw [if_neg hroom]
  have hfound : (findDatasource ds (bodyName body)).isSome = true := by
    by_contra hno
    refine h ⟨hgiven.1, hgiven.2.1, hgiven.2.2, by omega, ?_⟩
    intro e he hname
    exact hno (findDatasource_isSome.mpr ⟨e, he, hname⟩)
  rw [if_pos hfound]
  exact ⟨rfl, rfl⟩

/-- A body the list takes is answered 201, and stored only if its port is one. -/
theorem handlePostDatasource_accepted {body : Bytes}
    (h : Accepts ds ⟨bodyName body, bodyHost body, bodyPort body⟩) :
    (handlePostDatasource ds body).answers 201 = true
      ∧ (handlePostDatasource ds body).datasources.items
        = if bodyPort body ≤ 65535
          then ds.items ++ [⟨bodyName body, bodyHost body, bodyPort body⟩] else ds.items := by
  obtain ⟨hname, hhost, hport, hroom, hfree⟩ := h
  have hgiven : ¬ (bodyName body = [] ∨ bodyHost body = [] ∨ bodyPort body ≤ 0) := by
    push Not
    exact ⟨hname, hhost, hport⟩
  have hfound : ¬ (findDatasource ds (bodyName body)).isSome = true := by
    rw [findDatasource_isSome]
    intro h
    obtain ⟨e, he, hen⟩ := h
    exact hfree e he hen
  unfold handlePostDatasource
  dsimp only
  rw [if_neg hgiven, addDatasource, if_neg (by omega), if_neg hfound]
  by_cases hle : bodyPort body ≤ 65535
  · rw [if_neg (by dsimp only at hport; omega), if_pos hle]
    refine ⟨rfl, ?_⟩
    have hname : (bodyName body).take (maxDsNameLen - 1) = bodyName body :=
      List.take_of_length_le (length_bodyString_le body _ 63)
    have hhost : (bodyHost body).take (maxDsHostLen - 1) = bodyHost body :=
      List.take_of_length_le (length_bodyString_le body _ 255)
    dsimp only
    rw [hname, hhost]
  · rw [if_pos (by omega), if_neg hle]
    exact ⟨rfl, rfl⟩

theorem post_truthful_iff (body : Bytes) :
    (Mutation.post (some body)).Truthful ds (handlePostDatasource ds body)
      ↔ (Mutation.post (some body)).Exact ds := by
  unfold Mutation.Truthful Mutation.Exact
  by_cases hacc : Accepts ds ⟨bodyName body, bodyHost body, bodyPort body⟩
  · obtain ⟨hans, hitems⟩ := handlePostDatasource_accepted hacc
    rw [hans, hitems]
    simp only [true_iff, hacc, true_implies, Option.bind_some, Bool.true_eq_false, false_implies,
      and_true]
    by_cases hle : bodyPort body ≤ 65535
    · simp only [hle, if_true, true_and]
      constructor
      · intro h
        obtain ⟨d, hd, heq⟩ := h
        rw [hd, ← List.singleton_inj.mp (List.append_cancel_left heq)]
      · intro hd
        exact ⟨_, hd, rfl⟩
    · simp only [hle, if_false, false_and, iff_false]
      intro h
      obtain ⟨d, -, heq⟩ := h
      have := congrArg List.length heq
      simp at this
  · obtain ⟨hans, hsame⟩ := handlePostDatasource_refused hacc
    rw [hans, hsame]
    simp only [Bool.false_eq_true, false_iff, hacc, false_implies, iff_true, implies_true, and_true]
    intro h
    obtain ⟨d, -, heq⟩ := h
    have := congrArg List.length heq
    simp at this

/-- Removing the datasource of a name keeps exactly the others. -/
theorem eraseP_eq_filter {items : List Datasource} (h : (items.map (·.name)).Nodup) (name : Bytes) :
    items.eraseP (fun d => d.name == name) = items.filter (fun d => d.name != name) := by
  induction items with
  | nil => rfl
  | cons d items ih =>
      rw [List.map_cons, List.nodup_cons] at h
      by_cases hd : d.name = name
      · -- no other has that name, so the filter keeps the rest whole
        rw [List.eraseP_cons_of_pos (by simp [hd]), List.filter_cons_of_neg (by simp [hd])]
        symm
        rw [List.filter_eq_self]
        intro e he
        rw [bne_iff_ne]
        intro hen
        exact h.1 (List.mem_map.mpr ⟨e, he, hen.trans hd.symm⟩)
      · rw [List.eraseP_cons_of_neg (by simp [hd]), List.filter_cons_of_pos (by simp [hd]), ih h.2]

/-- A name longer than its field is not stored. -/
theorem not_stored_of_long (hinv : StoreInv ds) {name : Bytes} (h : 63 < name.length) :
    ¬ ∃ d ∈ ds.items, d.name = name := by
  rintro ⟨d, hd, rfl⟩
  have := (hinv.valid d hd).name_length
  omega

/-- Nor is a name whose cut is not stored. -/
theorem not_stored_of_take (hinv : StoreInv ds) {name : Bytes}
    (h : ¬ ∃ d ∈ ds.items, d.name = name.take 63) : ¬ ∃ d ∈ ds.items, d.name = name := by
  by_cases hlong : 63 < name.length
  · exact not_stored_of_long hinv hlong
  · rwa [List.take_of_length_le (by omega)] at h

theorem delete_truthful_iff (hinv : StoreInv ds) (name : Bytes) :
    (Mutation.delete name).Truthful ds (handleDeleteDatasource ds (name.take 63))
      ↔ (Mutation.delete name).Exact ds := by
  unfold Mutation.Truthful Mutation.Exact handleDeleteDatasource
  cases hrem : removeDatasource ds (name.take 63) with
  | none =>
      have hno : ¬ ∃ d ∈ ds.items, d.name = name.take 63 := by
        intro hstored
        rw [removeDatasource, if_pos (findDatasource_isSome.mpr hstored)] at hrem
        exact absurd hrem (by simp)
      have hnot := not_stored_of_take hinv hno
      refine iff_of_true ⟨iff_of_false Bool.false_ne_true fun h => hnot h.1, fun _ => rfl⟩ ?_
      intro _ d hd he
      exact hno ⟨d, hd, he⟩
  | some ds' =>
      obtain ⟨hstored, hitems, -⟩ := removeDatasource_some hrem
      have hans : (⟨[.saved (saveDatasources ds'), .respond (.json 204 [])], ds'⟩ :
          Outcome).answers 204 = true := rfl
      dsimp only
      rw [hans, hitems, eraseP_eq_filter hinv.distinct]
      by_cases hlong : 63 < name.length
      · refine iff_of_false ?_ ?_
        · intro h
          obtain ⟨hiff, -⟩ := h
          exact not_stored_of_long hinv hlong (hiff.mp rfl).1
        · intro hexact
          obtain ⟨d, hd, he⟩ := hstored
          exact hexact hlong d hd he
      · have hcut : name.take 63 = name := List.take_of_length_le (by omega)
        rw [hcut] at hstored ⊢
        exact iff_of_true ⟨iff_of_true rfl ⟨hstored, rfl⟩, fun h => absurd h (by simp)⟩
          fun h => absurd h hlong

theorem setDefault_truthful_iff (hinv : StoreInv ds) (name : Bytes) :
    (Mutation.setDefault name).Truthful ds (handleSetDefault ds (name.take 63))
      ↔ (Mutation.setDefault name).Exact ds := by
  unfold Mutation.Truthful Mutation.Exact handleSetDefault
  cases hset : setDefault ds (name.take 63) with
  | none =>
      have hno : ¬ ∃ d ∈ ds.items, d.name = name.take 63 := by
        intro hstored
        rw [setDefault, if_pos (findDatasource_isSome.mpr hstored)] at hset
        exact absurd hset (by simp)
      have hnot := not_stored_of_take hinv hno
      refine iff_of_true ⟨iff_of_false Bool.false_ne_true ?_, fun _ => rfl⟩ ?_
      · -- a default that is not empty is stored
        intro h
        obtain ⟨hne, heq⟩ := h
        have hdef : ds.defaultName = name := congrArg DatasourceList.defaultName heq
        by_cases hnil : ds.items = []
        · exact hne (hdef.symm.trans (hinv.default_empty hnil))
        · obtain ⟨d, hd, hd'⟩ := hinv.default_stored hnil
          exact hnot ⟨d, hd, hd'.trans hdef⟩
      · intro _ d hd he
        exact hno ⟨d, hd, he⟩
  | some ds' =>
      obtain ⟨hstored, rfl⟩ := setDefault_some hset
      have htake : (name.take 63).take 63 = name.take 63 := by rw [List.take_take, Nat.min_self]
      have hans : ∀ ds' : DatasourceList, (⟨[.saved (saveDatasources ds'),
          .respond (.json 200 (str "\x7b\"success\":true\x7d"))], ds'⟩ : Outcome).answers 200
          = true := fun _ => rfl
      dsimp only
      rw [hans, htake]
      by_cases hlong : 63 < name.length
      · refine iff_of_false ?_ ?_
        · intro h
          obtain ⟨hiff, -⟩ := h
          have hdef := congrArg DatasourceList.defaultName (hiff.mp rfl).2
          have hlen := congrArg List.length (show name.take 63 = name from hdef)
          rw [List.length_take] at hlen
          omega
        · intro hexact
          obtain ⟨d, hd, he⟩ := hstored
          exact hexact hlong d hd he
      · have hcut : name.take 63 = name := List.take_of_length_le (by omega)
        rw [hcut] at hstored ⊢
        obtain ⟨d, hd, he⟩ := hstored
        have hne : name ≠ [] := he ▸ (hinv.valid d hd).name_ne
        exact iff_of_true ⟨iff_of_true rfl ⟨hne, rfl⟩, fun h => absurd h (by simp)⟩
          fun h => absurd h hlong

end

/--
**When the answer to an update is truthful.**

With a valid token, on a list that satisfies the store invariant: exactly when the code
reads the update as what it says. For a body that is stored this means that the scanned
members are those of the JSON object and the port is at most 65535; for a name in a URL,
that it is not cut to the name of another datasource. Without a valid token the answer
is a 401 and nothing changes.
-/
theorem mutation_truthful_iff (env : Env) (ds : DatasourceList) (hinv : StoreInv ds)
    (received : Bytes) (m : Mutation) (hm : mutationRequest (cstr received) = some m) :
    (hasValidToken env (cstr received) = true →
      (m.Truthful ds (handleRequest env ds received) ↔ m.Exact ds))
    ∧ (hasValidToken env (cstr received) = false →
      (handleRequest env ds received).answers 401 = true
        ∧ (handleRequest env ds received).datasources = ds) := by
  rw [handleRequest_mutation hm]
  constructor
  · intro htoken
    rw [if_pos htoken]
    cases m with
    | post body =>
        cases body with
        | none =>
            refine iff_of_true ⟨iff_of_false Bool.false_ne_true ?_, fun _ => rfl⟩ trivial
            intro h
            obtain ⟨d, hd, -⟩ := h
            exact absurd hd (by simp)
        | some body => exact post_truthful_iff body
    | delete name => exact delete_truthful_iff hinv name
    | setDefault name => exact setDefault_truthful_iff hinv name
  · intro htoken
    rw [if_neg (by simp [htoken])]
    exact ⟨rfl, rfl⟩

/-- The first `POST` of the dashboard is answered truthfully. -/
theorem mutation_truthful_first_post :
    (Mutation.post (extractBody samplePost)).Truthful {} (handleRequest sampleEnv {} samplePost) := by
  have hsample : mutationRequest (cstr samplePost) = some (.post (extractBody samplePost))
      ∧ hasValidToken sampleEnv (cstr samplePost) = true
      ∧ extractBody samplePost
        = some (str "\x7b\"name\":\"b1\",\"host\":\"10.0.0.1\",\"port\":9000\x7d") := by
    decide +kernel
  obtain ⟨hm, htoken, hbody⟩ := hsample
  refine ((mutation_truthful_iff sampleEnv {} storeInv_empty samplePost _ hm).1 htoken).mpr ?_
  rw [hbody]
  exact fun _ => ⟨by decide +kernel, by decide +kernel⟩

/-- A port above 65535 is answered 201 although nothing was stored. -/
theorem post_answered_created_unstored :
    let body := str "\x7b\"name\":\"b1\",\"host\":\"10.0.0.1\",\"port\":70000\x7d"
    let received := postRequest body
    StoreInv {} ∧ hasValidToken sampleEnv (cstr received) = true
      ∧ mutationRequest (cstr received) = some (.post (some body))
      ∧ (handleRequest sampleEnv {} received).answers 201 = true
      ∧ (handleRequest sampleEnv {} received).datasources = {}
      ∧ ¬ (Mutation.post (some body)).Truthful {} (handleRequest sampleEnv {} received) := by
  intro body received
  have hrun : hasValidToken sampleEnv (cstr received) = true
      ∧ mutationRequest (cstr received) = some (.post (some body))
      ∧ (handleRequest sampleEnv {} received).answers 201 = true
      ∧ (handleRequest sampleEnv {} received).datasources = {} := by decide +kernel
  obtain ⟨htoken, hrequest, hans, hsame⟩ := hrun
  refine ⟨storeInv_empty, htoken, hrequest, hans, hsame, ?_⟩
  intro htruth
  obtain ⟨d, -, hitems⟩ := htruth.1.mp hans
  rw [hsame] at hitems
  exact absurd hitems (by simp)

end Svgd.Gate
