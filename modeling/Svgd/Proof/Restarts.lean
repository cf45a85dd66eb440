import Svgd.Gate.Process
import Svgd.Proof.Persistence

/-!
# Restarts of the gate

The list in memory and the text in `datasources.json` are two copies of one thing. Every
request that changes the list writes it out before it answers, and every other request
leaves both alone (`handleRequest_saves`), so the file is always the text of the list.
With `loadDatasources_saveDatasources` a new process then begins where the last one
ended.

`Registry` is what the two copies are for: a list in which nothing but requests changes
anything, and a start only fills an empty one.
-/

namespace Svgd.Gate

open Lib

/-! ## What is written -/

/-- The list was left alone and nothing was written, or what was written is the list. -/
def Outcome.Saves (ds : DatasourceList) (o : Outcome) : Prop :=
  (o.savedTexts = [] ∧ o.datasources = ds) ∨ o.savedTexts = [saveDatasources o.datasources]

theorem saves_answer (ds : DatasourceList) (r : Response) : (answer ds r).Saves ds :=
  Or.inl ⟨rfl, rfl⟩

/-- What does nothing protected writes nothing. -/
theorem saves_of_not_protected {ds : DatasourceList} {o : Outcome} (h : ¬ Protected ds o) :
    o.Saves ds := by
  unfold Protected at h
  push Not at h
  refine Or.inl ⟨?_, h.2.2.2⟩
  refine List.filterMap_eq_nil_iff.mpr fun e he => ?_
  cases e with
  | saved text => exact absurd he (h.2.2.1 text)
  | _ => rfl

theorem saves_forward (env : Env) (ds : DatasourceList) (buffer params : Bytes)
    (relay : LsrpResponse → Response) : (forward env ds buffer params relay).Saves ds := by
  unfold forward
  split
  · exact saves_answer _ _
  · split <;> exact Or.inl ⟨rfl, rfl⟩

theorem saves_handleGrafana (env : Env) (ds : DatasourceList) (path buffer : Bytes) :
    (handleGrafana env ds path buffer).Saves ds := by
  refine Or.inl ⟨?_, handleGrafana_datasources env ds path buffer⟩
  refine List.filterMap_eq_nil_iff.mpr fun e he => ?_
  have hrelay := List.all_eq_true.mp (handleGrafana_effects env ds path buffer) e he
  cases e with
  | saved text => exact absurd hrelay (by simp [Effect.isRelay])
  | _ => rfl

theorem saves_handlePostDatasource (ds : DatasourceList) (body : Bytes) :
    (handlePostDatasource ds body).Saves ds := by
  unfold handlePostDatasource
  dsimp only
  split
  · exact saves_answer _ _
  · split
    · exact saves_answer _ _
    · exact saves_answer _ _
    · exact saves_answer _ _
    · exact Or.inr rfl

theorem saves_handleDeleteDatasource (ds : DatasourceList) (name : Bytes) :
    (handleDeleteDatasource ds name).Saves ds := by
  unfold handleDeleteDatasource
  split
  · exact Or.inr rfl
  · exact saves_answer _ _

theorem saves_handleSetDefault (ds : DatasourceList) (name : Bytes) :
    (handleSetDefault ds name).Saves ds := by
  unfold handleSetDefault
  split
  · exact Or.inr rfl
  · exact saves_answer _ _

theorem saves_routeDatasources (ds : DatasourceList) (path buffer : Bytes) :
    (routeDatasources ds path buffer).Saves ds := by
  unfold routeDatasources
  split
  · split
    · exact Or.inl ⟨rfl, rfl⟩
    split
    · split
      · exact saves_handlePostDatasource _ _
      · exact saves_answer _ _
    split
    · exact saves_answer _ _
    · exact Or.inl ⟨rfl, rfl⟩
  · dsimp only
    split
    · exact saves_handleDeleteDatasource _ _
    split
    · exact saves_handleSetDefault _ _
    split <;> exact saves_answer _ _

/-- **A request writes the list out exactly when it touches it.** -/
theorem handleRequest_saves (env : Env) (ds : DatasourceList) (received : Bytes) :
    (handleRequest env ds received).Saves ds := by
  by_cases hp : Protected ds (handleRequest env ds received)
  · obtain ⟨-, path, -, -, hroute⟩ := handleRequest_protected hp
    rw [hroute] at hp ⊢
    unfold route
    split
    · exact saves_handleGrafana _ _ _ _
    split
    · exact saves_routeDatasources _ _ _
    split
    · exact saves_of_not_protected (not_protected_serveStaticFile _ _ _)
    · unfold forwardMetric
      split
      · exact saves_answer _ _
      · exact saves_forward _ _ _ _ _
  · exact saves_of_not_protected hp

theorem startUp_saves (config : Config) (ds : DatasourceList) : (startUp config ds).Saves ds := by
  unfold startUp
  split
  · split
    · exact Or.inr rfl
    · exact Or.inl ⟨rfl, rfl⟩
  · exact Or.inl ⟨rfl, rfl⟩

theorem GateAction.saves (ds : DatasourceList) (a : GateAction) : (a.outcome ds).Saves ds := by
  cases a with
  | request env received => exact handleRequest_saves env ds received
  | start args => exact startUp_saves (commandLine args) ds

/-! ## Starting -/

/-- The datasource a command line stands for. -/
def Config.datasource (config : Config) : Datasource :=
  ⟨str "default", config.svgdHost, config.svgdPort⟩

/-- The backend of the command line can be stored and read back: the host fits its field and has
no quote, the port is a port, and no brace opens behind a closing one. -/
structure Config.Storable (config : Config) : Prop where
  host_ne : config.svgdHost ≠ []
  host_length : config.svgdHost.length ≤ 255
  host_no_quote : ch '"' ∉ config.svgdHost
  host_no_nul : (0 : UInt8) ∉ config.svgdHost
  port_pos : 1 ≤ config.svgdPort
  port_le : config.svgdPort ≤ 65535
  braces : ∀ t ∈ strchr config.svgdHost (ch '\x7d'), ch '\x7b' ∉ t

theorem Config.Storable.reloadable {config : Config} (h : config.Storable) :
    config.datasource.Reloadable where
  name_port := fun he => absurd he (by decide +kernel : str "default" ≠ str "port")
  name_host := fun he => absurd he (by decide +kernel : str "default" ≠ str "host")
  braces := by
    intro t ht
    have hskip : strchr (str "default" ++ config.svgdHost) (ch '\x7d')
        = strchr config.svgdHost (ch '\x7d') := strchr_skip (by decide)
    exact h.braces t (hskip ▸ ht)

/-- On an empty list a start adds the datasource of the command line and makes it the default. -/
theorem startUp_empty {config : Config} (hc : config.Storable) {ds : DatasourceList}
    (hnil : ds.items = []) : (startUp config ds).datasources = ⟨[config.datasource], str "default"⟩ := by
  have hfind : (findDatasource ds (str "default")).isSome = false := by
    unfold findDatasource
    rw [hnil]
    rfl
  have hport : ¬ (config.svgdPort ≤ 0 ∨ 65535 < config.svgdPort) := by
    have := hc.port_pos
    have := hc.port_le
    omega
  have hadd : addDatasource ds (str "default") config.svgdHost config.svgdPort
      = .added ⟨[config.datasource], str "default"⟩ := by
    unfold addDatasource
    rw [hnil, hfind, if_neg (by decide), if_neg (by simp), if_neg hport,
      show config.svgdHost.take (maxDsHostLen - 1) = config.svgdHost from
        List.take_of_length_le hc.host_length]
    rfl
  unfold startUp
  rw [if_pos hnil, hadd]

theorem startUp_nonempty (config : Config) {ds : DatasourceList} (hne : ds.items ≠ []) :
    startUp config ds = ⟨[], ds⟩ := if_neg hne

theorem storeInv_startUp {config : Config} (hc : config.Storable) {ds : DatasourceList}
    (hinv : StoreInv ds) : StoreInv (startUp config ds).datasources := by
  by_cases hnil : ds.items = []
  · rw [startUp_empty hc hnil]
    refine ⟨?_, by simp, by simp [maxDatasources], by simp, ?_⟩
    · intro d hd
      rw [List.mem_singleton] at hd
      subst hd
      have hname : config.datasource.name = str "default" := rfl
      refine ⟨?_, hc.host_ne, ?_, hc.host_length, ?_, hc.host_no_quote, ?_, hc.host_no_nul,
        hc.port_pos, hc.port_le⟩ <;>
      · rw [hname]
        decide
    · exact fun _ => ⟨config.datasource, List.mem_singleton_self _, rfl⟩
  · rw [startUp_nonempty config hnil]
    exact hinv

/-! ## Runs with restarts -/

/-- What a process keeps in memory: a well-formed list that the file can carry. -/
structure Carried (ds : DatasourceList) : Prop where
  inv : StoreInv ds
  reloadable : ∀ d ∈ ds.items, d.Reloadable

/-- An action after which the file can still carry the list. -/
def GateAction.Harmless : GateAction → Prop
  | .request _ received => ∀ d, postedDatasource (cstr received) = some d → d.Reloadable
  | .start args => (commandLine args).Storable

theorem carried_request {ds : DatasourceList} (h : Carried ds) (env : Env) {received : Bytes}
    (hposted : ∀ d, postedDatasource (cstr received) = some d → d.Reloadable) :
    Carried (handleRequest env ds received).datasources := by
  refine ⟨storeInv_handleRequest h.inv env received, fun d hd => ?_⟩
  have hrun : d ∈ (runRequests ds [(env, received)]).items := hd
  rcases mem_runRequests [(env, received)] h.inv d hrun with hold | ⟨r, hr, hnew⟩
  · exact h.reloadable d hold
  · rw [List.mem_singleton] at hr
    subst hr
    exact hposted d hnew

theorem carried_startUp {ds : DatasourceList} (h : Carried ds) {config : Config}
    (hc : config.Storable) : Carried (startUp config ds).datasources := by
  refine ⟨storeInv_startUp hc h.inv, fun d hd => ?_⟩
  by_cases hnil : ds.items = []
  · rw [startUp_empty hc hnil, List.mem_singleton] at hd
    rw [hd]
    exact hc.reloadable
  · rw [startUp_nonempty config hnil] at hd
    exact h.reloadable d hd

/-- The gate gets each action right. -/
theorem gateProcess_keeps : gateProcess.Keeps Carried GateAction.Harmless where
  inv ds a h ha := by
    cases a with
    | request env received => exact carried_request h env ha
    | start args => exact carried_startUp h ha
  written ds a t _ hw := by
    have hw : (a.outcome ds).savedTexts.getLast? = some t := hw
    rcases a.saves ds with ⟨hnone, -⟩ | hsaved
    · rw [hnone] at hw
      cases hw
    · rw [hsaved] at hw
      exact (Option.some.inj hw).symm
  unwritten ds a _ hw := by
    have hw : (a.outcome ds).savedTexts.getLast? = none := hw
    rcases a.saves ds with ⟨-, hsame⟩ | hsaved
    · exact hsame
    · rw [hsaved] at hw
      cases hw
  back ds h := loadDatasources_saveDatasources h.inv h.reloadable {}

theorem firstStart_agrees {args : List Bytes} (hc : (commandLine args).Storable) :
    gateProcess.Agrees Carried (firstStart args) := by
  have hstate : (startUp (commandLine args) {}).datasources
      = ⟨[(commandLine args).datasource], str "default"⟩ := startUp_empty hc rfl
  refine ⟨carried_startUp ⟨storeInv_empty, by simp⟩ hc, ?_⟩
  have hfile : (firstStart args).file
      = ((startUp (commandLine args) {}).savedTexts.getLast?).or none := rfl
  have hsaves : (startUp (commandLine args) {}).savedTexts
      = [saveDatasources (startUp (commandLine args) {}).datasources] := by
    rcases startUp_saves (commandLine args) {} with ⟨-, hsame⟩ | h
    · rw [hstate] at hsame
      exact absurd (congrArg DatasourceList.items hsame) (by simp)
    · exact h
  rw [hfile, hsaves]
  rfl

/-! ## What the list and its file are for -/

/-- A list of datasources that no process ever loses: requests change it, and the start of a
process only fills an empty one. -/
def Registry.step (ds : DatasourceList) : GateEvent → DatasourceList
  | .request env received => (handleRequest env ds received).datasources
  | .restart args =>
      if ds.items = [] then ⟨[(commandLine args).datasource], str "default"⟩ else ds

end Svgd.Gate
