import Svgd.Lib.LexPath
import Svgd.Proof.AuthGate

/-!
# Which files a public request can open

A path is public as soon as it has a dot after its last slash, and the file that
is then opened is `static_path` followed by the path, cut to 511 bytes. Nothing
looks at `..`, so `/../auth/auth.json` is public and leaves the directory.

The paths for which every configured directory is safe are exactly those that
start at a slash and, cut anywhere, never climb above it. The cut matters: a long
`static_path` turns the harmless segment `..x` into `..`.
-/

namespace Svgd.Gate

open Lib

/-- Cut at whatever byte the file name buffer ends, the path starts at the directory and
never climbs above it. -/
def StaysBelow (path : Bytes) : Prop :=
  startsWith path (str "/") = true ∧ ∀ k, k ≤ 510 → Stays 0 (segments (path.take k))

/-- `static_path` is not empty (`main` refuses that) and fits the file name buffer. -/
def Config.StaticPathFits (config : Config) : Prop :=
  config.staticPath ≠ [] ∧ config.staticPath.length ≤ 511

theorem mem_serveStaticFile_openFile {env : Env} {ds : DatasourceList} {path file : Bytes} :
    Effect.openFile file ∈ (serveStaticFile env ds path).effects
      ↔ file = staticFilePath env.config path := by
  obtain ⟨r, hr⟩ := serveStaticFile_effects env ds path
  rw [hr]
  simp

/-! ## Paths that stay below are safe everywhere -/

theorem inside_take {dir path : Bytes} (hne : dir ≠ []) (hlen : dir.length ≤ 511)
    (h : StaysBelow path) : Inside dir ((dir ++ path).take 511) := by
  obtain ⟨hslash, hst⟩ := h
  obtain ⟨rest, rfl⟩ := startsWith_iff.mp hslash
  rw [List.take_append, List.take_of_length_le hlen]
  have hk := hst (511 - dir.length) (by have := List.length_pos_iff.mpr hne; omega)
  cases hk0 : 511 - dir.length with
  | zero => simpa using Inside.refl dir
  | succ k =>
      rw [hk0] at hk
      exact inside_of_stays hne hk

/-- Past its last byte a cut no longer changes a path. -/
theorem staysBelow_of_cuts {path : Bytes} (hslash : startsWith path (str "/") = true)
    (h : ∀ k, k ≤ path.length → Stays 0 (segments (path.take k))) : StaysBelow path := by
  refine ⟨hslash, ?_⟩
  intro k _
  rcases Nat.lt_or_ge path.length k with hk | hk
  · have hwhole := h path.length (Nat.le_refl _)
    rw [List.take_length] at hwhole
    rwa [List.take_of_length_le (Nat.le_of_lt hk)]
  · exact h k hk

theorem index_staysBelow : StaysBelow (str "/index.html") :=
  staysBelow_of_cuts (by decide) (by decide)

theorem inside_staticFilePath {config : Config} (hfit : config.StaticPathFits) {path : Bytes}
    (h : StaysBelow path) : Inside config.staticPath (staticFilePath config path) := by
  unfold staticFilePath
  split
  · exact inside_take hfit.1 hfit.2 index_staysBelow
  · exact inside_take hfit.1 hfit.2 h

/-! ## Every other path escapes from some directory -/

/-- A path that does not start at a slash names a sibling of some directory. -/
theorem escapes_of_no_slash {path : Bytes} (hne : path ≠ [])
    (h : startsWith path (str "/") = false) :
    ∃ dir, dir ≠ [] ∧ dir.length ≤ 511 ∧ ¬ Inside dir ((dir ++ path).take 511) := by
  obtain ⟨b, t, rfl⟩ : ∃ b t, path = b :: t := List.exists_cons_of_ne_nil hne
  have hb : b ≠ ch '/' := by
    rintro rfl
    exact absurd h (by simp [str])
  obtain ⟨g, gs, hg⟩ : ∃ g gs, segments (t.take 509) = g :: gs :=
    List.exists_cons_of_ne_nil (segments_ne_nil _)
  -- whichever letter the directory is, the path glues onto it and the walk goes on from there
  have hwalk : ∀ c, c = ch 'x' ∨ c = ch 'y' → resolve ((letters 1 c ++ b :: t).take 511)
      = Loc.walk ⟨false, 0, [] ++ [c :: b :: g]⟩ gs := by
    intro c hc
    have hslash : c ≠ ch '/' := by rcases hc with rfl | rfl <;> decide
    have hdot : c ≠ ch '.' := by rcases hc with rfl | rfl <;> decide
    have htake : (letters 1 c ++ b :: t).take 511 = c :: b :: t.take 509 := rfl
    have hname : ∀ w, w.head? = some (ch '.') → c :: b :: g ≠ w := by
      rintro w hw rfl
      exact hdot (by simpa using hw)
    rw [htake]
    unfold resolve Loc.walk
    rw [segments_cons hslash (segments_cons hb hg), List.foldl_cons, Loc.enter,
      if_neg (by rintro (he | he); exact absurd he (by simp); exact hname _ rfl he),
      if_neg (hname (str "..") rfl)]
    congr 1
    simp [str, hslash.symm]
  by_cases hst : Stays 0 gs
  · -- never left: the walk bottoms out in the glued name
    refine ⟨letters 1 (ch 'x'), by decide, by decide, ?_⟩
    rintro ⟨-, -, hsuf⟩
    obtain ⟨top, htop⟩ := walk_of_stays false 0 [ch 'x' :: b :: g] [] hst
    rw [hwalk _ (Or.inl rfl), htop, resolve_letters (by decide) (Or.inl rfl)] at hsuf
    have heq := (List.suffix_of_suffix_length_le hsuf (List.suffix_append top _)
      (by simp)).eq_of_length (by simp)
    simp [letters] at heq
  · -- left: the walk is the same for both letters
    by_contra hcon
    push Not at hcon
    refine not_inside_both (n := 1) (by decide) ?_ (hcon _ (by decide) (by decide))
      (hcon _ (by decide) (by decide))
    rw [hwalk _ (Or.inl rfl), hwalk _ (Or.inr rfl),
      walk_of_not_stays _ (ch 'y' :: b :: g) [] hst]

/-- A path that climbs, once the buffer has cut it, escapes from some directory. -/
theorem escapes_of_climb {path : Bytes} (hslash : startsWith path (str "/") = true) {k : Nat}
    (hk : k ≤ 510) (h : ¬ Stays 0 (segments (path.take k))) :
    ∃ dir, dir ≠ [] ∧ dir.length ≤ 511 ∧ ¬ Inside dir ((dir ++ path).take 511) := by
  obtain ⟨rest, rfl⟩ := startsWith_iff.mp hslash
  obtain ⟨j, rfl⟩ : ∃ j, k = j + 1 := by
    cases k with
    | zero => exact absurd (by simp [segments, Stays]) h
    | succ j => exact ⟨j, rfl⟩
  have hcut : (str "/" ++ rest).take (j + 1) = ch '/' :: rest.take j := rfl
  rw [hcut, segments_slash, Stays, if_pos (Or.inl rfl)] at h
  -- the directory is as long as it takes to put the cut there
  obtain ⟨dir, hne, hlen, hout⟩ := exists_not_inside (n := 511 - (j + 1)) (by omega) h
  refine ⟨dir, hne, by omega, ?_⟩
  rwa [List.take_append, List.take_of_length_le (by omega), hlen,
    show 511 - (511 - (j + 1)) = j + 1 by omega, hcut]

/-! ## Where opened files come from -/

/-- Only `serve_static_file` opens files, and only for paths classified as static. -/
theorem handleRequest_openFile {env : Env} {ds : DatasourceList} {received file : Bytes}
    (h : Effect.openFile file ∈ (handleRequest env ds received).effects) :
    ∃ path, extractPath (cstr received) = some path ∧ isStaticRequest path = true
      ∧ file = staticFilePath env.config path := by
  unfold handleRequest at h
  split at h
  · simp at h
  dsimp only at h
  split at h
  · simp [answer] at h
  rename_i path hpath
  split at h
  · simp [answer] at h
  split at h
  · simp [answer] at h
  split at h
  · simp [answer] at h
  split at h
  · simp [answer] at h
  unfold route at h
  split at h
  · exact absurd (List.all_eq_true.mp (handleGrafana_effects _ _ _ _) _ h)
      (by simp [Effect.isRelay])
  split at h
  · exact absurd (List.all_eq_true.mp (routeDatasources_effects _ _ _) _ h)
      (by simp [Effect.isListing])
  split at h
  · rename_i hstatic
    exact ⟨path, hpath, hstatic, mem_serveStaticFile_openFile.mp h⟩
  · unfold forwardMetric at h
    split at h
    · simp [answer] at h
    · have := forward_effects h
      simp at this

/-! ## The exact condition -/

theorem staticRequest_ne_nil {path : Bytes} (h : isStaticRequest path = true) : path ≠ [] := by
  rintro rfl
  exact absurd h (by decide)

/--
**Which public paths are confined.**

For a path classified as static, the opened file lies inside the directory for
every configuration exactly when the path stays below its own start, wherever the
buffer cuts it. And those are the only files a request can open: every `fopen` of
the gate is `serve_static_file` on such a path, with or without a token.
-/
theorem static_confined_iff (path : Bytes) (hstatic : isStaticRequest path = true) :
    ((∀ (env : Env) (ds : DatasourceList) (file : Bytes), env.config.StaticPathFits →
        Effect.openFile file ∈ (serveStaticFile env ds path).effects →
        Inside env.config.staticPath file) ↔ StaysBelow path)
    ∧ ∀ (env : Env) (ds : DatasourceList) (received file : Bytes),
        extractPath (cstr received) = some path →
        Effect.openFile file ∈ (handleRequest env ds received).effects →
        Effect.openFile file ∈ (serveStaticFile env ds path).effects := by
  refine ⟨⟨?_, ?_⟩, ?_⟩
  · intro hall
    have hdir : ∀ dir : Bytes, dir ≠ [] → dir.length ≤ 511 →
        Inside dir (staticFilePath { staticPath := dir } path) := by
      intro dir hne hlen
      let env : Env :=
        { config := { staticPath := dir }, ssl := ⟨id, id, fun _ _ => []⟩, now := 0,
          maxParamsLen := 0, lsrpClientSend := fun _ _ _ => none, readFile := fun _ => none }
      exact hall env {} _ ⟨hne, hlen⟩ (mem_serveStaticFile_openFile.mpr rfl)
    by_contra hnot
    have hpath : path ≠ str "/" := by
      rintro rfl
      refine hnot ⟨by decide, fun k _ => ?_⟩
      cases k with
      | zero => decide
      | succ k => rw [List.take_of_length_le (by simp [str])]; decide
    have hesc : ∃ dir, dir ≠ [] ∧ dir.length ≤ 511 ∧ ¬ Inside dir ((dir ++ path).take 511) := by
      by_cases hslash : startsWith path (str "/") = true
      · have hclimb : ∃ k, k ≤ 510 ∧ ¬ Stays 0 (segments (path.take k)) := by
          by_contra hno
          push Not at hno
          exact hnot ⟨hslash, hno⟩
        obtain ⟨k, hk, hst⟩ := hclimb
        exact escapes_of_climb hslash hk hst
      · exact escapes_of_no_slash (staticRequest_ne_nil hstatic) (by simpa using hslash)
    obtain ⟨dir, hne, hlen, hout⟩ := hesc
    have hin := hdir dir hne hlen
    rw [staticFilePath, if_neg hpath] at hin
    exact hout hin
  · intro hstay env ds file hfit hopen
    rw [mem_serveStaticFile_openFile.mp hopen]
    exact inside_staticFilePath hfit hstay
  · intro env ds received file hpath hopen
    obtain ⟨path', hp, _, hfile⟩ := handleRequest_openFile hopen
    have : path' = path := Option.some.inj (hp.symm.trans hpath)
    rw [this] at hfile
    exact mem_serveStaticFile_openFile.mpr hfile

/-- A script of the dashboard stays below, so it is confined whatever the configuration. -/
theorem static_confined_script :
    isStaticRequest (str "/a.js") = true
      ∧ ∀ (env : Env) (ds : DatasourceList) (file : Bytes), env.config.StaticPathFits →
        Effect.openFile file ∈ (serveStaticFile env ds (str "/a.js")).effects →
        Inside env.config.staticPath file := by
  exact ⟨by decide, (static_confined_iff _ (by decide)).1.mpr
    (staysBelow_of_cuts (by decide) (by decide))⟩

/-- Without any token, under the default configuration, `GET /../auth/auth.json` opens
`gate/auth/auth.json`. -/
theorem static_escape_auth_json :
    let received := str "GET /../auth/auth.json HTTP/1.1\r\n\r\n"
    let env : Env :=
      { ssl := ⟨id, id, fun _ _ => []⟩, now := 0, maxParamsLen := 4096,
        lsrpClientSend := fun _ _ _ => none, readFile := fun _ => none }
    isStaticRequest (str "/../auth/auth.json") = true
      ∧ extractAuthToken (cstr received) = none
      ∧ Effect.openFile (str "./gate/static/../auth/auth.json")
          ∈ (handleRequest env {} received).effects
      ∧ resolve (str "./gate/static/../auth/auth.json") = resolve (str "gate/auth/auth.json")
      ∧ ¬ Inside env.config.staticPath (str "./gate/static/../auth/auth.json") := by
  decide

end Svgd.Gate
