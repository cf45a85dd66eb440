import Svgd.Proof.GrafanaStack
import Svgd.Lib.JsonLaws

/-!
# The JSON of the Grafana answers

Both answers are put together with `printf`. The separators and the trimmed comma are
right: the text is always a bracketed, comma-separated list of well-shaped items. Names
go in unescaped, so the text is JSON for the intended value exactly when every name in
it can stand between quotes as it is.
-/

namespace Svgd.Backend

open Lib Stacked

/-- A name that needs no escape in JSON. -/
def JsonSafe (name : Bytes) : Prop := JsonPlain name ∧ validUtf8 name = true

instance (name : Bytes) : Decidable (JsonSafe name) :=
  inferInstanceAs (Decidable (_ ∧ _))

theorem commaJoin_snoc (l : List Bytes) (x : Bytes) :
    commaJoin (l ++ [x]) = commaJoin l ++ ((if l = [] then [] else [ch ',']) ++ x) := by
  induction l with
  | nil => rfl
  | cons a l ih =>
      cases l with
      | nil => rfl
      | cons b l =>
          have hl : commaJoin (a :: b :: l ++ [x]) = a ++ ch ',' :: commaJoin (b :: l ++ [x]) := rfl
          have hr : commaJoin (a :: b :: l) = a ++ ch ',' :: commaJoin (b :: l) := rfl
          rw [hl, ih, hr]
          simp

/-! ## Search -/

/-- The list of endpoints. -/
def searchValue (config : Config) : Json := .arr (config.metrics.map fun m => .str m.endpoint)

theorem searchItems_eq (ms : List MetricConfig) :
    searchItems ms true = commaJoin (ms.map fun m => quoted m.endpoint)
    ∧ searchItems ms false
      = (if ms = [] then [] else [ch ',']) ++ commaJoin (ms.map fun m => quoted m.endpoint) := by
  induction ms with
  | nil => exact ⟨rfl, rfl⟩
  | cons m ms ih =>
      have hquote : str "\"" = [ch '"'] := rfl
      have hcomma : str "," = [ch ','] := rfl
      have hbody : str "\"" ++ m.endpoint ++ str "\"" ++ searchItems ms false
          = commaJoin ((m :: ms).map fun m => quoted m.endpoint) := by
        rw [ih.2, hquote]
        cases ms with
        | nil => simp [commaJoin, quoted]
        | cons m' ms => simp [commaJoin, quoted]
      constructor
      · rw [searchItems, if_pos rfl, List.nil_append, hbody]
      · rw [searchItems, if_neg (by simp), if_neg (by simp), hcomma, ← hbody]
        simp

/-- **The search answer decodes to the endpoints exactly when they are safe.** -/
theorem search_decodes_iff (config : Config) :
    decodeJson (grafanaSearch config).data = some (searchValue config)
      ↔ ∀ m ∈ config.metrics, JsonSafe m.endpoint := by
  have htext : (grafanaSearch config).data
      = ch '[' :: (commaJoin (config.metrics.map fun m => quoted m.endpoint) ++ [ch ']']) := by
    rw [grafanaSearch, (searchItems_eq _).1]
    rfl
  have hreads := readsAs_array (fun m : MetricConfig => readsAs_string m.endpoint) config.metrics
  have hutf8 : Utf8Piece (grafanaSearch config).data
      (∀ m ∈ config.metrics, validUtf8 m.endpoint = true) := by
    rw [htext]
    have h := (utf8Piece_ascii (t := [ch '[']) (by decide)).append
      ((utf8Piece_commaJoin (fun m : MetricConfig => utf8Piece_quoted m.endpoint)
        config.metrics).append (utf8Piece_ascii (t := [ch ']']) (by decide)))
    exact h.congr (by simp)
  have hdecode := hreads.decode
  rw [← htext, hutf8.valid] at hdecode
  rw [searchValue, hdecode, ← forall₂_and]
  rfl

/-! ## The text of a query answer -/

/-- The non-empty series with their names, in target order. -/
def emitted (env : GrafanaEnv) (period : Int) : Nat → List Bytes → List (Bytes × List DataPoint)
  | _, [] => []
  | i, t :: ts =>
      (match targetData env period i t with
        | none => []
        | some data =>
            (data.series.filter (·.points ≠ [])).map fun s => (s.name.getD t, s.points))
      ++ emitted env period (i + 1) ts

/-- The two numbers of a point. -/
def pointNumbers (p : DataPoint) : List NumLit :=
  [gLiteral p.value, NumLit.ofInt (p.timestamp * 1000)]

/-- One point. -/
def pointItem (p : DataPoint) : Bytes :=
  ch '[' :: (commaJoin ((pointNumbers p).map NumLit.text) ++ [ch ']'])

/-- One series. -/
def seriesItem (s : Bytes × List DataPoint) : Bytes :=
  str "\x7b\"target\":\"" ++ s.1 ++ str "\",\"datapoints\":["
    ++ commaJoin (s.2.map pointItem) ++ str "]\x7d"

/-- One point, as it is printed without the comma behind it. -/
def pointBody (p : DataPoint) : Bytes :=
  str "[" ++ formatG p.value ++ str "," ++ printInt (p.timestamp * 1000) ++ str "]"

/-- One series, as it is printed. -/
def seriesText (s : Bytes × List DataPoint) : Bytes :=
  str "\x7b\"target\":\"" ++ s.1 ++ str "\",\"datapoints\":["
    ++ commaJoin (s.2.map pointBody) ++ str "]\x7d"

theorem pointText_body (p : DataPoint) : pointText p = pointBody p ++ [ch ','] := by
  have hclose : str "]," = str "]" ++ [ch ','] := rfl
  rw [pointText, pointBody, hclose, List.append_assoc _ (str "]")]

theorem pointBody_eq {p : DataPoint} (h : p.value.isFinite = true) : pointBody p = pointItem p := by
  have hopen : str "[" = [ch '['] := rfl
  have hcomma : str "," = [ch ','] := rfl
  have hclose : str "]" = [ch ']'] := rfl
  rw [pointBody, formatG_of_isFinite h, ← text_ofInt, hopen, hcomma, hclose, pointItem, pointNumbers]
  simp [commaJoin]

theorem seriesText_eq {s : Bytes × List DataPoint} (h : ∀ p ∈ s.2, p.value.isFinite = true) :
    seriesText s = seriesItem s := by
  unfold seriesText seriesItem
  rw [List.map_congr_left fun p hp => pointBody_eq (h p hp)]

theorem appendPoints_eq (out : Bytes) (ps : List DataPoint) :
    appendPoints out ps = out ++ ps.flatMap pointText := by
  induction ps generalizing out with
  | nil => simp [appendPoints]
  | cons p ps ih => rw [appendPoints, ih, List.flatMap_cons, List.append_assoc]

/-- Trimming the last comma leaves the joined items. -/
theorem trimComma_points (head : Bytes) {ps : List DataPoint} (hne : ps ≠ []) :
    trimComma (head ++ ps.flatMap pointText) = head ++ commaJoin (ps.map pointBody) := by
  have hjoin : ∀ ps : List DataPoint, ps ≠ [] →
      ps.flatMap pointText = commaJoin (ps.map pointBody) ++ [ch ','] := by
    intro ps
    induction ps with
    | nil => exact fun h => absurd rfl h
    | cons p ps ih =>
        intro _
        rw [List.flatMap_cons, pointText_body]
        cases ps with
        | nil => simp [commaJoin]
        | cons q ps =>
            rw [ih (by simp)]
            simp [commaJoin]
  rw [hjoin ps hne, ← List.append_assoc, trimComma, if_pos (by simp)]
  simp

/-- The answer with some series in it. -/
def answerOf (done : List (Bytes × List DataPoint)) : Answer :=
  ⟨str "[" ++ commaJoin (done.map seriesText), decide (done ≠ [])⟩

/-- One series of the loop. -/
theorem appendSeries_eq (target : Bytes) (done : List (Bytes × List DataPoint)) (s : Series) :
    appendSeries target (answerOf done) s
      = if s.points = [] then answerOf done
        else answerOf (done ++ [(s.name.getD target, s.points)]) := by
  unfold appendSeries answerOf
  by_cases hs : s.points = []
  · rw [if_pos hs, if_pos hs]
  · rw [if_neg hs, if_neg hs]
    dsimp only
    rw [appendPoints_eq, trimComma_points _ hs, List.map_append, List.map_singleton, commaJoin_snoc]
    have hcomma : str "," = [ch ','] := rfl
    by_cases hd : done = []
    · simp [hd, seriesText]
    · simp [hd, seriesText, hcomma]

/-- All series of one target. -/
theorem foldl_appendSeries (target : Bytes) :
    ∀ (series : List Series) (done : List (Bytes × List DataPoint)),
    series.foldl (appendSeries target) (answerOf done)
      = answerOf (done ++ (series.filter (·.points ≠ [])).map
          fun s => (s.name.getD target, s.points))
  | [], done => by simp
  | s :: series, done => by
      rw [List.foldl_cons, appendSeries_eq]
      by_cases hs : s.points = []
      · rw [if_pos hs, foldl_appendSeries target series done,
          List.filter_cons_of_neg (by simp [hs])]
      · rw [if_neg hs, foldl_appendSeries target series _,
          List.filter_cons_of_pos (by simp [hs])]
        simp

/-- All targets: the answer is what is emitted for them. -/
theorem appendTargets_eq (env : GrafanaEnv) (period : Int) :
    ∀ (targets : List Bytes) (i : Nat) (done : List (Bytes × List DataPoint)),
    appendTargets env period i targets (answerOf done)
      = answerOf (done ++ emitted env period i targets)
  | [], i, done => by simp [appendTargets, emitted]
  | t :: ts, i, done => by
      -- `done` is what the targets in front have emitted
      unfold appendTargets emitted
      cases targetData env period i t with
      | none => exact appendTargets_eq env period ts (i + 1) done
      | some data =>
          dsimp only
          rw [foldl_appendSeries, appendTargets_eq env period ts (i + 1), List.append_assoc]

/-- **The answer is the list of the emitted series.** -/
theorem queryResult_data (env : GrafanaEnv) (targets : List Bytes) (period : Int) :
    (queryResult env targets period).data
      = str "[" ++ commaJoin ((emitted env period 0 targets).map seriesText) ++ str "]" := by
  have hstart : (⟨str "[", false⟩ : Answer) = answerOf [] := rfl
  rw [queryResult, hstart, appendTargets_eq, List.nil_append]
  rfl

/-! ## Its value -/

/-- The value of one series. -/
def seriesValue (s : Bytes × List DataPoint) : Json :=
  .obj [(str "target", .str s.1), (str "datapoints", .arr (s.2.map fun p =>
    .arr [.num (gLiteral p.value).value, .num (p.timestamp * 1000 : Int)]))]

/-- The list of series a query asks for. -/
def queryValue (env : GrafanaEnv) (targets : List Bytes) (period : Int) : Json :=
  .arr ((emitted env period 0 targets).map seriesValue)

theorem readsAs_point (p : DataPoint) :
    ReadsAs (pointItem p)
      (.arr [.num (gLiteral p.value).value, .num (p.timestamp * 1000 : Int)]) True := by
  have h := readsAs_array (fun n : NumLit => readsAs_number n) (pointNumbers p)
  rw [← value_ofInt]
  exact h.congr (by simp)

/-- The two members of a series. -/
def seriesMembers (s : Bytes × List DataPoint) : Member × Member :=
  (⟨str "target", quoted s.1, .str s.1, JsonPlain s.1, by decide, readsAs_string s.1⟩,
    ⟨str "datapoints", ch '[' :: (commaJoin (s.2.map pointItem) ++ [ch ']']),
      .arr (s.2.map fun p => .arr [.num (gLiteral p.value).value,
        .num (p.timestamp * 1000 : Int)]), ∀ p ∈ s.2, True, by decide,
      readsAs_array readsAs_point s.2⟩)

theorem readsAs_series (s : Bytes × List DataPoint) :
    ReadsAs (seriesItem s) (seriesValue s) (JsonPlain s.1) := by
  have h := readsAs_object (seriesMembers s).1 [(seriesMembers s).2]
  have hopen : str "\x7b\"target\":\"" = ch '\x7b' :: ch '"' :: (str "target" ++
      [ch '"', ch ':', ch '"']) := by decide
  have hmid : str "\",\"datapoints\":[" = [ch '"', ch ','] ++ (ch '"' :: (str "datapoints" ++
      [ch '"', ch ':', ch '['])) := by decide
  have hclose : str "]\x7d" = [ch ']', ch '\x7d'] := by decide
  have htext : seriesItem s = ch '\x7b' :: (commaJoin (([(seriesMembers s).1,
      (seriesMembers s).2]).map Member.full) ++ [ch '\x7d']) := by
    rw [seriesItem, hopen, hmid, hclose]
    simp [commaJoin, Member.full, seriesMembers, quoted]
  rw [htext]
  exact h.congr (by simp [seriesMembers])

theorem utf8Piece_point (p : DataPoint) : Utf8Piece (pointItem p) True := by
  have h := (utf8Piece_ascii (t := [ch '[']) (by decide)).append
    ((utf8Piece_commaJoin utf8Piece_number (pointNumbers p)).append
      (utf8Piece_ascii (t := [ch ']']) (by decide)))
  exact h.congr (by simp)

theorem utf8Piece_series (s : Bytes × List DataPoint) :
    Utf8Piece (seriesItem s) (validUtf8 s.1 = true) := by
  have hmid : str "\",\"datapoints\":[" = ch '"' :: str ",\"datapoints\":[" := by decide
  have htail : Utf8Piece (str ",\"datapoints\":[" ++ (commaJoin (s.2.map pointItem) ++ str "]\x7d"))
      True :=
    ((utf8Piece_ascii (by decide)).append ((utf8Piece_commaJoin utf8Piece_point s.2).append
      (utf8Piece_ascii (by decide)))).congr (by simp)
  have htext : seriesItem s = str "\x7b\"target\":\"" ++ (s.1 ++ ch '"' ::
      (str ",\"datapoints\":[" ++ (commaJoin (s.2.map pointItem) ++ str "]\x7d"))) := by
    rw [seriesItem, hmid]
    simp
  rw [htext]
  exact ((utf8Piece_ascii (by decide)).append (Utf8Piece.of_ascii_cons (by decide) htail)).congr
    (by simp)

/-- **A query answer decodes to the emitted series exactly when their names are safe.** -/
theorem query_decodes_iff (env : GrafanaEnv) (targets : List Bytes) (period : Int)
    (hfin : ∀ s ∈ emitted env period 0 targets, ∀ p ∈ s.2, p.value.isFinite = true) :
    decodeJson (queryResult env targets period).data = some (queryValue env targets period)
      ↔ ∀ s ∈ emitted env period 0 targets, JsonSafe s.1 := by
  have htext : (queryResult env targets period).data
      = ch '[' :: (commaJoin ((emitted env period 0 targets).map seriesItem) ++ [ch ']']) := by
    rw [queryResult_data, List.map_congr_left fun s hs => seriesText_eq (hfin s hs), List.append_assoc]
    rfl
  have hreads := readsAs_array readsAs_series (emitted env period 0 targets)
  have hutf8 : Utf8Piece (queryResult env targets period).data
      (∀ s ∈ emitted env period 0 targets, validUtf8 s.1 = true) := by
    rw [htext]
    have h := (utf8Piece_ascii (t := [ch '[']) (by decide)).append
      ((utf8Piece_commaJoin utf8Piece_series
        (emitted env period 0 targets)).append (utf8Piece_ascii (t := [ch ']']) (by decide)))
    exact h.congr (by simp)
  have hdecode := hreads.decode
  rw [← htext, hutf8.valid] at hdecode
  rw [queryValue, hdecode, ← forall₂_and]
  rfl

/--
**The Grafana answers are JSON for the intended values exactly when every name in them
is safe.**

For the search that is the list of endpoints. For a query, whatever targets and period
were read from it and whatever the sources deliver, as long as the values are finite: the
non-empty series in target order, each with one pair of value and millisecond timestamp
for every point, the value as `%g` prints it.
-/
theorem grafana_json_iff (env : GrafanaEnv) :
    (decodeJson (grafanaSearch env.config).data = some (searchValue env.config)
      ↔ ∀ m ∈ env.config.metrics, JsonSafe m.endpoint)
    ∧ ∀ query st st' targets period,
      readQuery env query st = some (.ok (targets, period), st') →
      (∀ s ∈ emitted env period 0 targets, ∀ p ∈ s.2, p.value.isFinite = true) →
      ∃ r, grafanaQuery env query st = some (r, st') ∧ r.status = 0 ∧ r.isJson = true
        ∧ (decodeJson r.data = some (queryValue env targets period)
          ↔ ∀ s ∈ emitted env period 0 targets, JsonSafe s.1) := by
  refine ⟨search_decodes_iff env.config, ?_⟩
  intro query st st' targets period hread hfin
  refine ⟨queryResult env targets period, ?_, rfl, rfl, query_decodes_iff env targets period hfin⟩
  unfold grafanaQuery
  rw [bind_run hread]
  rfl

/-- A query for the target `cpu`. -/
def cpuQuery : Bytes := str "\x7b\"targets\":[\x7b\"target\":\"cpu\"\x7d]\x7d"

/-- A backend with the metric `cpu`, whose source delivers one point in a series called `name`. -/
def cpuEnv (name : Bytes) : GrafanaEnv where
  config := { metrics := [{ endpoint := str "cpu" }] }
  jsonDecode := fun b =>
    if b = cpuQuery then
      some (.obj [(str "targets", .arr [.obj [(str "target", .str (str "cpu"))]])])
    else none
  fetch := fun _ m _ _ => some ⟨[⟨some name, [⟨1700000000, .fin (3 / 2)⟩]⟩], none, m⟩

theorem readQuery_cpuEnv (name : Bytes) :
    readQuery (cpuEnv name) (some (str "body=" ++ cpuQuery)) []
      = some (.ok ([str "cpu"], 3600), []) := by
  have hget : ((some (str "body=" ++ cpuQuery)).bind fun q => handlerGetParam q (str "body")).map
      (fun enc => cstr (urlDecode enc)) = some cpuQuery := by
    decide +kernel
  have hbody : queryBody (cpuEnv name) (some (str "body=" ++ cpuQuery)) = some cpuQuery := by
    unfold queryBody
    rw [if_pos (show (cpuEnv name).hasContext = true from rfl), hget]
  have hdecode : (cpuEnv name).jsonDecode cpuQuery
      = some (.obj [(str "targets", .arr [.obj [(str "target", .str (str "cpu"))]])]) := by
    unfold cpuEnv
    dsimp only
    rw [if_pos rfl]
  rw [readQuery_decoded hbody hdecode]
  rfl

theorem emitted_cpuEnv (name : Bytes) :
    emitted (cpuEnv name) 3600 0 [str "cpu"] = [(name, [⟨1700000000, .fin (3 / 2)⟩])] := by
  rfl

theorem finite_cpuEnv (name : Bytes) :
    ∀ s ∈ emitted (cpuEnv name) 3600 0 [str "cpu"], ∀ p ∈ s.2, p.value.isFinite = true := by
  rw [emitted_cpuEnv]
  simp [Double.isFinite]

/-- A plain name goes through. -/
theorem grafana_json_idle :
    ∃ r, grafanaQuery (cpuEnv (str "idle")) (some (str "body=" ++ cpuQuery)) [] = some (r, [])
      ∧ decodeJson r.data = some (queryValue (cpuEnv (str "idle")) [str "cpu"] 3600) := by
  obtain ⟨r, hr, _, _, hiff⟩ := (grafana_json_iff (cpuEnv (str "idle"))).2 _ _ _ _ _
    (readQuery_cpuEnv (str "idle")) (finite_cpuEnv (str "idle"))
  refine ⟨r, hr, hiff.mpr ?_⟩
  rw [emitted_cpuEnv]
  decide

/-- The label text of a Prometheus sample breaks the answer. -/
theorem grafana_json_label_breaks :
    ∃ r, grafanaQuery (cpuEnv (str "job=\"a\"")) (some (str "body=" ++ cpuQuery)) [] = some (r, [])
      ∧ r.status = 0
      ∧ decodeJson r.data ≠ some (queryValue (cpuEnv (str "job=\"a\"")) [str "cpu"] 3600) := by
  have hquery : grafanaQuery (cpuEnv (str "job=\"a\"")) (some (str "body=" ++ cpuQuery)) []
      = some (queryResult (cpuEnv (str "job=\"a\"")) [str "cpu"] 3600, []) := by
    unfold grafanaQuery
    rw [bind_run (readQuery_cpuEnv _)]
    rfl
  refine ⟨_, hquery, rfl, ?_⟩
  rw [ne_eq, query_decodes_iff _ _ _ (finite_cpuEnv _), emitted_cpuEnv]
  decide

end Svgd.Backend
