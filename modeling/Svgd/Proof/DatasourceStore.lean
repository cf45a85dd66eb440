import Svgd.Proof.AuthGate
import Svgd.Lib.Json

/-!
# The datasource list over a run

A run is a list of received buffers, each handled in its own environment, and the
list of datasources is all that is kept from one to the next. `handleRequest_cases`
says once what a request can do to it: nothing, or one of the three updates. The
invariant is then shown for the updates, and holds in every state a run reaches.

The invariant says more than that names are distinct and the default is stored: it
also says what the texts look like, because the file and the listing are made of them.
-/

namespace Svgd.Gate

open Lib

/-- What holds of every stored datasource: it fits its fields, has a port, and its texts were
cut out of a C string before a quote. -/
structure Datasource.Valid (d : Datasource) : Prop where
  name_ne : d.name ≠ []
  host_ne : d.host ≠ []
  name_length : d.name.length ≤ 63
  host_length : d.host.length ≤ 255
  name_no_quote : ch '"' ∉ d.name
  host_no_quote : ch '"' ∉ d.host
  name_no_nul : (0 : UInt8) ∉ d.name
  host_no_nul : (0 : UInt8) ∉ d.host
  port_pos : 1 ≤ d.port
  port_le : d.port ≤ 65535

/-- The store invariant. -/
structure StoreInv (ds : DatasourceList) : Prop where
  valid : ∀ d ∈ ds.items, d.Valid
  /-- Names are pairwise distinct. -/
  distinct : (ds.items.map (·.name)).Nodup
  room : ds.items.length ≤ maxDatasources
  default_empty : ds.items = [] → ds.defaultName = []
  default_stored : ds.items ≠ [] → ∃ d ∈ ds.items, d.name = ds.defaultName

theorem storeInv_empty : StoreInv {} where
  valid := by simp
  distinct := by simp
  room := by simp
  default_empty := fun _ => rfl
  default_stored := fun h => absurd rfl h

/-- The default is a stored name, or empty. -/
theorem StoreInv.default_of_items {ds : DatasourceList} (hinv : StoreInv ds) {P : Bytes → Prop}
    (hnil : P []) (h : ∀ d ∈ ds.items, P d.name) : P ds.defaultName := by
  by_cases hitems : ds.items = []
  · rw [hinv.default_empty hitems]
    exact hnil
  · obtain ⟨d, hd, hname⟩ := hinv.default_stored hitems
    rw [← hname]
    exact h d hd

/-! ## Finding -/

theorem findDatasource_some {ds : DatasourceList} {name : Bytes} {d : Datasource}
    (h : findDatasource ds name = some d) : d ∈ ds.items ∧ d.name = name :=
  ⟨List.mem_of_find?_eq_some h, by simpa using List.find?_some h⟩

theorem findDatasource_isSome {ds : DatasourceList} {name : Bytes} :
    (findDatasource ds name).isSome = true ↔ ∃ d ∈ ds.items, d.name = name := by
  unfold findDatasource
  rw [List.find?_isSome]
  simp

/-! ## The updates -/

/-- The scanned text is empty, or a piece of the body without quotes that is cut to its field. -/
theorem bodyString_cases (body key : Bytes) (max : Nat) :
    bodyString body key max = []
      ∨ ∃ w, w <:+: body ∧ ch '"' ∉ w ∧ bodyString body key max = w.take max := by
  unfold bodyString
  split
  · exact Or.inl rfl
  rename_i k hk
  split
  · exact Or.inl rfl
  rename_i q hq
  split
  · exact Or.inl rfl
  rename_i stop hstop
  obtain ⟨u, hu, -⟩ := strstr_some hk
  obtain ⟨v, q', hv, rfl, -⟩ := strchr_some hq
  obtain ⟨w, stop', hw, -, hquote⟩ := strchr_some hstop
  have hq' : (ch '"' :: q').drop 1 = q' := rfl
  rw [hq'] at hw ⊢
  rw [hw, upTo_append]
  refine Or.inr ⟨w, ?_, hquote, rfl⟩
  -- the value is behind the key, which is in the body
  have hdrop : w <:+: k.drop key.length := ⟨v ++ [ch '"'], stop, by rw [hv, hw]; simp⟩
  rw [hu]
  exact (hdrop.trans (List.drop_suffix _ _).isInfix).trans (List.suffix_append u k).isInfix

/-- A scanned text fits its field, so nothing is cut when it is stored. -/
theorem length_bodyString_le (body key : Bytes) (max : Nat) : (bodyString body key max).length ≤ max := by
  rcases bodyString_cases body key max with h | ⟨w, -, -, h⟩
  · rw [h]
    exact Nat.zero_le max
  · rw [h]
    exact List.length_take_le max w

/-- The scanned text has no quote and fits; it has no NUL if the body has none. -/
theorem bodyString_text {body key : Bytes} {max : Nat} (h0 : (0 : UInt8) ∉ body) :
    (bodyString body key max).length ≤ max ∧ ch '"' ∉ bodyString body key max
      ∧ (0 : UInt8) ∉ bodyString body key max := by
  refine ⟨length_bodyString_le body key max, ?_⟩
  rcases bodyString_cases body key max with h | ⟨w, hw, hquote, h⟩
  · rw [h]
    simp
  · rw [h]
    exact ⟨fun hm => hquote (List.mem_of_mem_take hm),
      fun hm => h0 (hw.subset (List.mem_of_mem_take hm))⟩

/-- A successful `add_datasource`, taken apart. -/
theorem addDatasource_added {ds ds' : DatasourceList} {name host : Bytes} {port : Int}
    (h : addDatasource ds name host port = .added ds') :
    ds.items.length < maxDatasources ∧ (∀ d ∈ ds.items, d.name ≠ name) ∧ 1 ≤ port
      ∧ port ≤ 65535
      ∧ ds'.items = ds.items ++ [⟨name.take 63, host.take 255, port⟩]
      ∧ ds'.defaultName = if ds.items = [] then name.take 63 else ds.defaultName := by
  unfold addDatasource at h
  split at h
  · exact absurd h (by simp)
  rename_i hroom
  split at h
  · exact absurd h (by simp)
  rename_i hfree
  split at h
  · exact absurd h (by simp)
  rename_i hport
  injection h with h
  subst h
  refine ⟨by omega, ?_, by omega, by omega, rfl, ?_⟩
  · intro d hd he
    exact hfree (findDatasource_isSome.mpr ⟨d, hd, he⟩)
  · dsimp only
    rw [List.length_append, List.length_singleton]
    by_cases hnil : ds.items = []
    · simp [hnil, maxDsNameLen]
    · have : ds.items.length ≠ 0 := fun he => hnil (List.length_eq_zero_iff.mp he)
      rw [if_neg (by omega), if_neg hnil]

theorem storeInv_addDatasource {ds ds' : DatasourceList} {d : Datasource} (hinv : StoreInv ds)
    (hname : d.name ≠ []) (hhost : d.host ≠ [])
    (htext : d.name.length ≤ 63 ∧ ch '"' ∉ d.name ∧ (0 : UInt8) ∉ d.name)
    (htext' : d.host.length ≤ 255 ∧ ch '"' ∉ d.host ∧ (0 : UInt8) ∉ d.host)
    (h : addDatasource ds d.name d.host d.port = .added ds') :
    StoreInv ds' ∧ ds'.items = ds.items ++ [d] := by
  obtain ⟨hroom, hfree, hpos, hle, hitems, hdef⟩ := addDatasource_added h
  rw [List.take_of_length_le htext.1, List.take_of_length_le htext'.1] at hitems
  rw [List.take_of_length_le htext.1] at hdef
  have hnew : ds'.items = ds.items ++ [d] := hitems
  refine ⟨⟨?_, ?_, ?_, ?_, ?_⟩, hnew⟩
  · intro e he
    rw [hnew, List.mem_append, List.mem_singleton] at he
    rcases he with he | rfl
    · exact hinv.valid e he
    · exact ⟨hname, hhost, htext.1, htext'.1, htext.2.1, htext'.2.1, htext.2.2, htext'.2.2,
        hpos, hle⟩
  · rw [hnew, List.map_append, List.map_singleton, List.nodup_append]
    refine ⟨hinv.distinct, by simp, ?_⟩
    intro a ha b hb
    obtain ⟨e, he, rfl⟩ := List.mem_map.mp ha
    rw [List.mem_singleton] at hb
    rw [hb]
    exact hfree e he
  · rw [hnew, List.length_append, List.length_singleton]
    omega
  · intro hnil
    rw [hnew] at hnil
    simp at hnil
  · intro _
    by_cases hnil : ds.items = []
    · exact ⟨d, by simp [hnew], by rw [hdef, if_pos hnil]⟩
    · obtain ⟨e, he, hdefault⟩ := hinv.default_stored hnil
      exact ⟨e, by simp [hnew, he], by rw [hdef, if_neg hnil, hdefault]⟩

/-- A successful `remove_datasource`, taken apart: one datasource of that name is gone. -/
theorem removeDatasource_some {ds ds' : DatasourceList} {name : Bytes}
    (h : removeDatasource ds name = some ds') :
    (∃ d ∈ ds.items, d.name = name)
      ∧ ds'.items = ds.items.eraseP (fun d => d.name == name)
      ∧ ds'.defaultName = if ds.defaultName = name
          then (ds'.items.head?.elim [] fun d => d.name.take 63) else ds.defaultName := by
  unfold removeDatasource at h
  split at h
  · rename_i hfound
    injection h with h
    subst h
    refine ⟨findDatasource_isSome.mp hfound, rfl, ?_⟩
    dsimp only
    split
    · cases ds.items.eraseP (fun d => d.name == name) with
      | nil => rfl
      | cons d rest => rfl
    · rfl
  · exact absurd h (by simp)

theorem storeInv_removeDatasource {ds ds' : DatasourceList} {name : Bytes} (hinv : StoreInv ds)
    (h : removeDatasource ds name = some ds') : StoreInv ds' := by
  obtain ⟨⟨d, hd, hname⟩, hitems, hdef⟩ := removeDatasource_some h
  have hsub : ds'.items.Sublist ds.items := hitems ▸ List.eraseP_sublist
  have hvalid : ∀ e ∈ ds'.items, e.Valid := fun e he => hinv.valid e (hsub.subset he)
  -- only the removed default moves, and it moves to the first that remains
  have hhead : ∀ e rest, ds'.items = e :: rest → ds.defaultName = name →
      ds'.defaultName = e.name := by
    intro e rest heq hdn
    rw [hdef, if_pos hdn, heq]
    exact List.take_of_length_le (hvalid e (by simp [heq])).name_length
  refine ⟨hvalid, (hsub.map _).nodup hinv.distinct, hsub.length_le.trans hinv.room, ?_, ?_⟩
  · intro hnil
    obtain ⟨e, he, hdefault⟩ := hinv.default_stored (List.ne_nil_of_mem hd)
    have hdn : ds.defaultName = name := by
      by_contra hne
      -- a default of another name would still be there
      have : e ∈ ds'.items := by
        rw [hitems, List.mem_eraseP_of_neg (by simpa [hdefault] using hne)]
        exact he
      rw [hnil] at this
      simp at this
    rw [hdef, if_pos hdn, hnil]
    rfl
  · intro hne
    by_cases hdn : ds.defaultName = name
    · obtain ⟨e, rest, heq⟩ := List.exists_cons_of_ne_nil hne
      exact ⟨e, by simp [heq], (hhead e rest heq hdn).symm⟩
    · obtain ⟨e, he, hdefault⟩ := hinv.default_stored (List.ne_nil_of_mem hd)
      refine ⟨e, ?_, by rw [hdef, if_neg hdn, hdefault]⟩
      rw [hitems, List.mem_eraseP_of_neg (by simpa [hdefault] using hdn)]
      exact he

theorem setDefault_some {ds ds' : DatasourceList} {name : Bytes}
    (h : setDefault ds name = some ds') :
    (∃ d ∈ ds.items, d.name = name) ∧ ds' = { ds with defaultName := name.take 63 } := by
  unfold setDefault at h
  split at h
  · rename_i hfound
    injection h with h
    exact ⟨findDatasource_isSome.mp hfound, h.symm⟩
  · exact absurd h (by simp)

theorem storeInv_setDefault {ds ds' : DatasourceList} {name : Bytes} (hinv : StoreInv ds)
    (h : setDefault ds name = some ds') : StoreInv ds' := by
  obtain ⟨⟨d, hd, hname⟩, rfl⟩ := setDefault_some h
  refine ⟨hinv.valid, hinv.distinct, hinv.room, ?_, ?_⟩
  · intro hnil
    rw [hnil] at hd
    simp at hd
  · intro _
    refine ⟨d, hd, ?_⟩
    dsimp only
    rw [← hname, List.take_of_length_le (hinv.valid d hd).name_length]

/-! ## What a request does to the list -/

/-- The datasource a JSON body describes: the members `name` and `host` as strings and `port`
as an integer. This is what the body says, not what the scanner makes of it. -/
def jsonDatasource (body : Bytes) : Option Datasource :=
  match decodeJson body with
  | some (.obj members) =>
      match Json.member members (str "name"), Json.member members (str "host"),
          Json.member members (str "port") with
      | some (.str name), some (.str host), some (.num q) =>
          if q.den = 1 then some ⟨name, host, q.num⟩ else none
      | _, _, _ => none
  | _ => none

/-- The datasource a buffer asks to store, as the scanner reads it. -/
def postedDatasource (buffer : Bytes) : Option Datasource :=
  if extractPath buffer = some (str "/_datasources") ∧ startsWith buffer (str "POST ") then
    (extractBody buffer).map fun body => ⟨bodyName body, bodyHost body, bodyPort body⟩
  else none

theorem forward_datasources (env : Env) (ds : DatasourceList) (buffer params : Bytes)
    (relay : LsrpResponse → Response) :
    (forward env ds buffer params relay).datasources = ds := by
  unfold forward
  split
  · rfl
  · split <;> rfl

theorem handleGrafana_datasources (env : Env) (ds : DatasourceList) (path buffer : Bytes) :
    (handleGrafana env ds path buffer).datasources = ds := by
  unfold handleGrafana
  dsimp only
  split
  · rfl
  split
  · rfl
  split
  · rfl
  split
  · exact forward_datasources _ _ _ _ _
  split
  · split
    · rfl
    · split
      · rfl
      · exact forward_datasources _ _ _ _ _
  · split <;> rfl

theorem handlePostDatasource_cases (ds : DatasourceList) (body : Bytes) :
    (handlePostDatasource ds body).datasources = ds
      ∨ (bodyName body ≠ [] ∧ bodyHost body ≠ []
        ∧ addDatasource ds (bodyName body) (bodyHost body) (bodyPort body)
          = .added (handlePostDatasource ds body).datasources) := by
  unfold handlePostDatasource
  dsimp only
  split
  · exact Or.inl rfl
  rename_i hgiven
  push Not at hgiven
  cases hadd : addDatasource ds (bodyName body) (bodyHost body) (bodyPort body) with
  | full => exact Or.inl rfl
  | alreadyExists => exact Or.inl rfl
  | badPort => exact Or.inl rfl
  | added ds' => exact Or.inr ⟨hgiven.1, hgiven.2.1, rfl⟩

theorem handleDeleteDatasource_cases (ds : DatasourceList) (name : Bytes) :
    (handleDeleteDatasource ds name).datasources = ds
      ∨ removeDatasource ds name = some (handleDeleteDatasource ds name).datasources := by
  unfold handleDeleteDatasource
  cases hrem : removeDatasource ds name with
  | none => exact Or.inl rfl
  | some ds' => exact Or.inr rfl

theorem handleSetDefault_cases (ds : DatasourceList) (name : Bytes) :
    (handleSetDefault ds name).datasources = ds
      ∨ setDefault ds name = some (handleSetDefault ds name).datasources := by
  unfold handleSetDefault
  cases hset : setDefault ds name with
  | none => exact Or.inl rfl
  | some ds' => exact Or.inr rfl

/-- **What a request can do to the list**: nothing, or one of the three updates. -/
theorem handleRequest_cases (env : Env) (ds : DatasourceList) (received : Bytes) :
    (handleRequest env ds received).datasources = ds
      ∨ (∃ d, postedDatasource (cstr received) = some d ∧ d.name ≠ [] ∧ d.host ≠ []
        ∧ addDatasource ds d.name d.host d.port
          = .added (handleRequest env ds received).datasources)
      ∨ (∃ name, removeDatasource ds name = some (handleRequest env ds received).datasources)
      ∨ ∃ name, setDefault ds name = some (handleRequest env ds received).datasources := by
  by_cases hsame : (handleRequest env ds received).datasources = ds
  · exact Or.inl hsame
  -- a changed list is a protected effect, so the request was routed
  obtain ⟨_, path, hpath, _, hroute⟩ :=
    handleRequest_protected (Or.inr (Or.inr (Or.inr hsame)))
  rw [hroute] at hsame ⊢
  unfold route at hsame ⊢
  split
  · exact Or.inl (handleGrafana_datasources _ _ _ _)
  split
  · unfold routeDatasources
    split
    · rename_i hds
      split
      · exact Or.inl rfl
      split
      · rename_i hpost
        split
        · rename_i body hbody
          rcases handlePostDatasource_cases ds body with h | ⟨hname, hhost, hadd⟩
          · exact Or.inl h
          · refine Or.inr (Or.inl ⟨⟨bodyName body, bodyHost body, bodyPort body⟩, ?_, hname,
              hhost, hadd⟩)
            rw [postedDatasource, if_pos ⟨by rw [hpath, hds], hpost⟩, hbody]
            rfl
        · exact Or.inl rfl
      · split <;> exact Or.inl rfl
    · dsimp only
      split
      · rcases handleDeleteDatasource_cases ds (pathDatasourceName (path.drop 14)) with h | h
        · exact Or.inl h
        · exact Or.inr (Or.inr (Or.inl ⟨_, h⟩))
      split
      · rcases handleSetDefault_cases ds (pathDatasourceName (path.drop 14)) with h | h
        · exact Or.inl h
        · exact Or.inr (Or.inr (Or.inr ⟨_, h⟩))
      · split <;> exact Or.inl rfl
  split
  · refine Or.inl ?_
    by_contra hne
    exact not_protected_serveStaticFile env ds path (Or.inr (Or.inr (Or.inr hne)))
  · refine Or.inl ?_
    unfold forwardMetric
    split
    · rfl
    · exact forward_datasources _ _ _ _ _

/-- The texts of a posted datasource were cut out of the buffer before a quote. -/
theorem postedDatasource_text {buffer : Bytes} {d : Datasource} (h0 : (0 : UInt8) ∉ buffer)
    (h : postedDatasource buffer = some d) :
    (d.name.length ≤ 63 ∧ ch '"' ∉ d.name ∧ (0 : UInt8) ∉ d.name)
      ∧ (d.host.length ≤ 255 ∧ ch '"' ∉ d.host ∧ (0 : UInt8) ∉ d.host) := by
  unfold postedDatasource at h
  split at h
  · obtain ⟨body, hbody, rfl⟩ := Option.map_eq_some_iff.mp h
    have hb : (0 : UInt8) ∉ body := by
      unfold extractBody at hbody
      split at hbody
      · exact absurd hbody (by simp)
      · rename_i blank hblank
        injection hbody with hbody
        obtain ⟨u, hu, -⟩ := strstr_some hblank
        intro hm
        rw [← hbody] at hm
        exact h0 (by rw [hu]; exact List.mem_append_right _ (List.mem_of_mem_drop hm))
    exact ⟨bodyString_text hb, bodyString_text hb⟩
  · exact absurd h (by simp)

/-- **Every request preserves the invariant.** -/
theorem storeInv_handleRequest {ds : DatasourceList} (hinv : StoreInv ds) (env : Env)
    (received : Bytes) : StoreInv (handleRequest env ds received).datasources := by
  rcases handleRequest_cases env ds received with h | ⟨d, hd, hname, hhost, h⟩ | ⟨name, h⟩ |
    ⟨name, h⟩
  · rw [h]
    exact hinv
  · obtain ⟨htext, htext'⟩ := postedDatasource_text (cstr_no_nul received) hd
    exact (storeInv_addDatasource hinv hname hhost htext htext' h).1
  · exact storeInv_removeDatasource hinv h
  · exact storeInv_setDefault hinv h

/-! ## Runs -/

/-- The list after a run of requests, each handled in its own environment. -/
def runRequests (ds : DatasourceList) (reqs : List (Env × Bytes)) : DatasourceList :=
  reqs.foldl (fun ds r => (handleRequest r.1 ds r.2).datasources) ds

@[simp] theorem runRequests_nil (ds : DatasourceList) : runRequests ds [] = ds := rfl

@[simp] theorem runRequests_cons (ds : DatasourceList) (r : Env × Bytes)
    (reqs : List (Env × Bytes)) :
    runRequests ds (r :: reqs) = runRequests (handleRequest r.1 ds r.2).datasources reqs := rfl

/-- **The invariant holds in every state a run reaches.** -/
theorem storeInv_runRequests (reqs : List (Env × Bytes)) : ∀ {ds : DatasourceList},
    StoreInv ds → StoreInv (runRequests ds reqs) := by
  induction reqs with
  | nil => exact fun h => h
  | cons r reqs ih => exact fun h => ih (storeInv_handleRequest h r.1 r.2)

/-- Every stored datasource was posted by one of the requests of the run. -/
theorem mem_runRequests (reqs : List (Env × Bytes)) : ∀ {ds : DatasourceList}, StoreInv ds →
    ∀ d ∈ (runRequests ds reqs).items,
      d ∈ ds.items ∨ ∃ r ∈ reqs, postedDatasource (cstr r.2) = some d := by
  induction reqs with
  | nil => exact fun _ d hd => Or.inl hd
  | cons r reqs ih =>
      intro ds hinv d hd
      rw [runRequests_cons] at hd
      rcases ih (storeInv_handleRequest hinv r.1 r.2) d hd with h | ⟨r', hr', h⟩
      · rcases handleRequest_cases r.1 ds r.2 with hs | ⟨e, he, hname, hhost, hs⟩ | ⟨name, hs⟩ |
          ⟨name, hs⟩
        · exact Or.inl (hs ▸ h)
        · obtain ⟨htext, htext'⟩ := postedDatasource_text (cstr_no_nul r.2) he
          rw [(storeInv_addDatasource hinv hname hhost htext htext' hs).2, List.mem_append,
            List.mem_singleton] at h
          rcases h with h | rfl
          · exact Or.inl h
          · exact Or.inr ⟨r, by simp, he⟩
        · rw [(removeDatasource_some hs).2.1] at h
          exact Or.inl (List.mem_of_mem_eraseP h)
        · rw [(setDefault_some hs).2] at h
          exact Or.inl h
      · exact Or.inr ⟨r', by simp [hr'], h⟩

/-! ## Where requests are sent -/

/-- The datasource name a buffer asks for, if one is extracted. -/
def requestedDatasource (buffer : Bytes) : Option Bytes :=
  match strchr buffer (ch '?') with
  | some query => extractDatasourceParam query
  | none => none

/-- Target selection, with the extraction named. -/
theorem targetBackend_eq (config : Config) (ds : DatasourceList) (buffer : Bytes) :
    targetBackend config ds buffer =
      match requestedDatasource buffer with
      | some name =>
          match findDatasource ds name with
          | some d => .ok (d.host, d.port)
          | none => .error name
      | none =>
          if ds.items ≠ [] ∧ ds.defaultName ≠ [] then
            match findDatasource ds ds.defaultName with
            | some d => .ok (d.host, d.port)
            | none => .ok (config.svgdHost, config.svgdPort)
          else .ok (config.svgdHost, config.svgdPort) := rfl

/-- Every message to a backend goes to the target of its buffer. -/
theorem lsrpSend_targetBackend {env : Env} {ds : DatasourceList} {received host params : Bytes}
    {port : Int}
    (h : Effect.lsrpSend host port params ∈ (handleRequest env ds received).effects) :
    targetBackend env.config ds (cstr received) = .ok (host, port) := by
  have hforward : ∀ {sent : Bytes} {relay : LsrpResponse → Response},
      Effect.lsrpSend host port params ∈ (forward env ds (cstr received) sent relay).effects →
      targetBackend env.config ds (cstr received) = .ok (host, port) := by
    intro sent relay hm
    rcases forward_effects hm with ⟨_, _, he, hb⟩ | ⟨_, he⟩
    · obtain ⟨rfl, rfl, -⟩ := Effect.lsrpSend.inj he
      exact hb
    · exact absurd he (by simp)
  obtain ⟨_, path, _, _, hroute⟩ := handleRequest_protected (Or.inl ⟨host, port, params, h⟩)
  rw [hroute] at h
  rcases route_lsrpSend h with ⟨-, hsend⟩ | hsend
  · unfold handleGrafana at hsend
    dsimp only at hsend
    split at hsend
    · simp [answer] at hsend
    split at hsend
    · simp [answer] at hsend
    split at hsend
    · simp [answer] at hsend
    split at hsend
    · exact hforward hsend
    split at hsend
    · split at hsend
      · simp [answer] at hsend
      · split at hsend
        · simp [answer] at hsend
        · exact hforward hsend
    · split at hsend <;> simp [answer] at hsend
  · unfold forwardMetric at hsend
    split at hsend
    · simp [answer] at hsend
    · exact hforward hsend

/--
**The store invariant, in every state a run reaches.**

Whatever buffers are received, in whatever environments: names are distinct and not
empty, there are at most sixteen, ports are ports, and the default is empty exactly
for the empty list and otherwise names a stored datasource. So a request that names
no datasource never reaches the backend of the command line while the list has one.
-/
theorem store_invariant (reqs : List (Env × Bytes)) :
    ((runRequests {} reqs).items.map (·.name)).Nodup
    ∧ (∀ d ∈ (runRequests {} reqs).items, d.name ≠ [] ∧ 1 ≤ d.port ∧ d.port ≤ 65535)
    ∧ (runRequests {} reqs).items.length ≤ 16
    ∧ ((runRequests {} reqs).defaultName = [] ↔ (runRequests {} reqs).items = [])
    ∧ ((runRequests {} reqs).items ≠ [] →
        ∃ d ∈ (runRequests {} reqs).items, d.name = (runRequests {} reqs).defaultName)
    ∧ ∀ (env : Env) (received host params : Bytes) (port : Int),
        Effect.lsrpSend host port params
          ∈ (handleRequest env (runRequests {} reqs) received).effects →
        (runRequests {} reqs).items ≠ [] → requestedDatasource (cstr received) = none →
        ∃ d ∈ (runRequests {} reqs).items, d.name = (runRequests {} reqs).defaultName
          ∧ d.host = host ∧ d.port = port := by
  have hinv := storeInv_runRequests reqs storeInv_empty
  generalize runRequests {} reqs = ds at hinv ⊢
  refine ⟨hinv.distinct, fun d hd => ?_, hinv.room, ⟨?_, hinv.default_empty⟩,
    hinv.default_stored, ?_⟩
  · have hv := hinv.valid d hd
    exact ⟨hv.name_ne, hv.port_pos, hv.port_le⟩
  · intro hdef
    by_contra hne
    obtain ⟨d, hd, hname⟩ := hinv.default_stored hne
    exact (hinv.valid d hd).name_ne (hname.trans hdef)
  · intro env received host params port hsend hne hnone
    have htarget := lsrpSend_targetBackend hsend
    obtain ⟨d, hd, hname⟩ := hinv.default_stored hne
    have hdef : ds.defaultName ≠ [] := hname ▸ (hinv.valid d hd).name_ne
    rw [targetBackend_eq, hnone] at htarget
    dsimp only at htarget
    rw [if_pos ⟨hne, hdef⟩] at htarget
    cases hfind : findDatasource ds ds.defaultName with
    | none =>
        have := findDatasource_isSome.mpr ⟨d, hd, hname⟩
        rw [hfind] at this
        exact absurd this (by simp)
    | some e =>
        rw [hfind] at htarget
        injection htarget with htarget
        obtain ⟨hh, hp⟩ := Prod.mk.inj htarget
        exact ⟨e, (findDatasource_some hfind).1, (findDatasource_some hfind).2, hh, hp⟩

/-- A `POST` with a valid token and this body. -/
def postRequest (body : Bytes) : Bytes :=
  str "POST /_datasources HTTP/1.1\r\n" ++ sampleAuthorization ++ str "\r\n" ++ body

/-- One that stores a datasource. -/
def samplePost : Bytes :=
  postRequest (str "\x7b\"name\":\"b1\",\"host\":\"10.0.0.1\",\"port\":9000\x7d")

theorem runRequests_samplePost : runRequests {} [(sampleEnv, samplePost)]
    = ⟨[⟨str "b1", str "10.0.0.1", 9000⟩], str "b1"⟩ := by
  decide +kernel

/-- After one `POST`, a metric request that names no datasource is sent to the stored one. -/
theorem store_invariant_one_post :
    let received := str "GET /cpu HTTP/1.1\r\n" ++ sampleAuthorization ++ str "\r\n"
    ∃ d ∈ (runRequests {} [(sampleEnv, samplePost)]).items,
      d.name = (runRequests {} [(sampleEnv, samplePost)]).defaultName
        ∧ d.host = str "10.0.0.1" ∧ d.port = 9000
        ∧ Effect.lsrpSend (str "10.0.0.1") 9000 (str "endpoint=cpu")
          ∈ (handleRequest sampleEnv (runRequests {} [(sampleEnv, samplePost)]) received).effects := by
  intro received
  have hsend : Effect.lsrpSend (str "10.0.0.1") 9000 (str "endpoint=cpu")
      ∈ (handleRequest sampleEnv (runRequests {} [(sampleEnv, samplePost)]) received).effects := by
    rw [runRequests_samplePost]
    decide +kernel
  have hitems : (runRequests {} [(sampleEnv, samplePost)]).items ≠ [] := by
    rw [runRequests_samplePost]
    exact List.cons_ne_nil _ _
  have hrequested : requestedDatasource (cstr received) = none := by decide +kernel
  obtain ⟨d, hd, hname, hhost, hport⟩ :=
    (store_invariant [(sampleEnv, samplePost)]).2.2.2.2.2 sampleEnv received _ _ _ hsend hitems
      hrequested
  exact ⟨d, hd, hname, hhost, hport, hsend⟩

end Svgd.Gate
