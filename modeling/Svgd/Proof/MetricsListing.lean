import Svgd.Proof.EndpointResolution
import Svgd.Proof.EscapedText

/-!
# Reading the list of metrics

The page learns what it can draw from the list that `generate_metrics_json` prints. The texts in
it are escaped, so it is always JSON; but an element that does not fit its buffer is left out, and
what is not well-formed stays so. The page reads the metrics of the configuration exactly if
neither happened to any of their texts.
-/

namespace Svgd.Backend

open Lib

/-! ## Members that are printed escaped -/

/-- A member of an object together with what makes it well-formed text. -/
structure TextMember extends Member where
  clean : Prop
  utf8 : Utf8Piece toMember.full clean

theorem utf8Piece_members (l : List TextMember) :
    Utf8Piece (commaJoin (l.map (·.full))) (∀ x ∈ l, x.clean) :=
  utf8Piece_commaJoin (fun x => x.utf8) l

theorem readsAs_textObject (x : TextMember) (l : List TextMember) :
    ReadsAs (ch '\x7b' :: (commaJoin ((x :: l).map (·.full)) ++ [ch '\x7d']))
      (.obj ((x :: l).map fun x => (x.key, x.val))) (∀ y ∈ x :: l, y.good) := by
  have h := readsAs_object x.toMember (l.map (·.toMember))
  simp only [List.map_cons, List.map_map, List.forall_mem_cons, List.forall_mem_map] at h ⊢
  exact h

theorem utf8Piece_braces {t : Bytes} {good : Prop} (h : Utf8Piece t good) :
    Utf8Piece (ch '\x7b' :: (t ++ [ch '\x7d'])) good :=
  ((utf8Piece_ascii (t := [ch '\x7b']) (by decide)).append
    (h.append (utf8Piece_ascii (by decide)))).congr (by simp)

theorem utf8Piece_member {key text : Bytes} {good : Prop} (hkey : key.all (·.toNat < 0x80) = true)
    (h : Utf8Piece text good) :
    Utf8Piece (ch '"' :: (key ++ ch '"' :: ch ':' :: text)) good := by
  have hhead : Utf8Piece ([ch '"'] ++ (key ++ [ch '"', ch ':'])) (True ∧ (True ∧ True)) :=
    (utf8Piece_ascii (by decide)).append ((utf8Piece_ascii hkey).append (utf8Piece_ascii (by decide)))
  have htext : ch '"' :: (key ++ ch '"' :: ch ':' :: text)
      = [ch '"'] ++ (key ++ [ch '"', ch ':']) ++ text := by simp
  rw [htext]
  exact (hhead.append h).congr (by simp)

theorem utf8Piece_boolText (b : Bool) : Utf8Piece (boolText b) True := by
  refine utf8Piece_ascii ?_
  cases b <;> decide

/-- The element of an escaped text that the buffer holds is the whole one. -/
def Whole (s : Bytes) : Prop := escaped s = fullEscape isCntrl s

/-- A text that stands in the list as it is in the configuration. -/
structure Listable (s : Bytes) : Prop where
  whole : Whole s
  utf8 : validUtf8 s = true

theorem readsAs_listed (s : Bytes) : ReadsAs (quoted (escaped s)) (.str s) (Whole s) := by
  unfold Whole escaped
  rw [cfgJsonEscape_eq]
  exact readsAs_escaped isControl_isCntrl 512 s

theorem listable_iff {s : Bytes} : Listable s ↔ Whole s ∧ validUtf8 (escaped s) = true := by
  constructor
  · rintro ⟨hwhole, hutf8⟩
    have heq : escaped s = fullEscape isCntrl s := hwhole
    exact ⟨hwhole, by rw [heq, validUtf8_fullEscape isControl_isCntrl, hutf8]⟩
  · rintro ⟨hwhole, hutf8⟩
    have heq : escaped s = fullEscape isCntrl s := hwhole
    rw [heq, validUtf8_fullEscape isControl_isCntrl] at hutf8
    exact ⟨hwhole, hutf8⟩

/-- A control character that has no escape of its own. -/
def NeedsCode (b : UInt8) : Prop :=
  isCntrl b = true ∧ b ≠ ch '\n' ∧ b ≠ ch '\r' ∧ b ≠ ch '\t'

instance (b : UInt8) : Decidable (NeedsCode b) := inferInstanceAs (Decidable (_ ∧ _))

theorem length_escapeOf_le {b : UInt8} (h : ¬NeedsCode b) : (escapeOf isCntrl b).1.length ≤ 2 := by
  unfold escapeOf
  split_ifs with hquote hnewline hreturn htab hcontrol
  · exact Nat.le_refl 2
  · exact Nat.le_refl 2
  · exact Nat.le_refl 2
  · exact Nat.le_refl 2
  · exact absurd ⟨hcontrol, hnewline, hreturn, htab⟩ h
  · exact Nat.le_succ 1

theorem length_fullEscape_le {s : Bytes} (h : ∀ b ∈ s, ¬NeedsCode b) :
    (fullEscape isCntrl s).length ≤ 2 * s.length := by
  induction s with
  | nil => exact Nat.le_refl 0
  | cons b s ih =>
      have hfull : fullEscape isCntrl (b :: s) = (escapeOf isCntrl b).1 ++ fullEscape isCntrl s :=
        List.flatMap_cons
      have hhead := length_escapeOf_le (h b List.mem_cons_self)
      have htail := ih fun c hc => h c (List.mem_cons_of_mem b hc)
      rw [hfull, List.length_append, List.length_cons]
      omega

/-- Two bytes for each character always fit. -/
theorem whole_of_length {s : Bytes} (hlen : s.length ≤ 255) (h : ∀ b ∈ s, ¬NeedsCode b) :
    Whole s := by
  have hfull := length_fullEscape_le h
  have hroom : ([] : Bytes).length + (fullEscape isCntrl s).length ≤ 512 - 2 := by
    rw [List.length_nil]
    omega
  unfold Whole escaped
  rw [cfgJsonEscape_eq, escapeText_full (by decide) s hroom, List.nil_append]

section

variable (key : Bytes) (hplain : JsonPlain key) (hascii : key.all (·.toNat < 0x80) = true)

/-- The member of a text. -/
def escapedMember (s : Bytes) : TextMember where
  key := key
  text := quoted (escaped s)
  val := .str s
  good := Whole s
  key_plain := hplain
  reads := readsAs_listed s
  clean := validUtf8 (escaped s) = true
  utf8 := utf8Piece_member hascii (utf8Piece_quoted _)

/-- The member of a flag. -/
def flagMember (b : Bool) : TextMember where
  key := key
  text := boolText b
  val := .bool b
  good := True
  key_plain := hplain
  reads := readsAs_bool b
  clean := True
  utf8 := utf8Piece_member hascii (utf8Piece_boolText b)

end

/-! ## One metric -/

/-- The texts of a metric that are listed. -/
def MetricEntry.listedTexts (m : MetricEntry) : List Bytes :=
  m.endpoint :: ((if m.requiresParam then [m.paramName] else [])
    ++ [m.title, m.yLabel, m.panelType])

/-- The members of a metric in the list, but the first. -/
def metricMembers (m : MetricEntry) : List TextMember :=
  flagMember (str "requires_param") (by decide) (by decide) m.requiresParam ::
    ((if m.requiresParam then
        [escapedMember (str "param_name") (by decide) (by decide) m.paramName] else [])
      ++ [escapedMember (str "title") (by decide) (by decide) m.title,
        escapedMember (str "y_label") (by decide) (by decide) m.yLabel,
        flagMember (str "is_percentage") (by decide) (by decide) (m.isPercentage != 0),
        escapedMember (str "panel_type") (by decide) (by decide) m.panelType])

/-- The first member. -/
def endpointMember (m : MetricEntry) : TextMember :=
  escapedMember (str "endpoint") (by decide) (by decide) m.endpoint

/-- What a metric is to the page. -/
def metricValue (m : MetricEntry) : Json :=
  .obj ([(str "endpoint", .str m.endpoint), (str "requires_param", .bool m.requiresParam)]
    ++ (if m.requiresParam then [(str "param_name", .str m.paramName)] else [])
    ++ [(str "title", .str m.title), (str "y_label", .str m.yLabel),
      (str "is_percentage", .bool (m.isPercentage != 0)), (str "panel_type", .str m.panelType)])

theorem metricValue_eq (m : MetricEntry) :
    metricValue m = .obj ((endpointMember m :: metricMembers m).map fun x => (x.key, x.val)) := by
  unfold metricValue metricMembers
  cases m.requiresParam <;> rfl

theorem metricItem_eq (m : MetricEntry) :
    metricItem m = ch '\x7b' :: (commaJoin ((endpointMember m :: metricMembers m).map (·.full))
      ++ [ch '\x7d']) := by
  have hendpoint : str "\x7b\"endpoint\":\"" = ch '\x7b' :: ch '"' :: (str "endpoint" ++
      [ch '"', ch ':', ch '"']) := by decide
  have hrequires : str "\",\"requires_param\":" = [ch '"', ch ','] ++ (ch '"' ::
      (str "requires_param" ++ [ch '"', ch ':'])) := by decide
  have hparam : str ",\"param_name\":\"" = ch ',' :: ch '"' :: (str "param_name" ++
      [ch '"', ch ':', ch '"']) := by decide
  have htitle : str ",\"title\":\"" = ch ',' :: ch '"' :: (str "title" ++
      [ch '"', ch ':', ch '"']) := by decide
  have hlabel : str ",\"y_label\":\"" = ch ',' :: ch '"' :: (str "y_label" ++
      [ch '"', ch ':', ch '"']) := by decide
  have hpercentage : str "\",\"is_percentage\":" = [ch '"', ch ','] ++ (ch '"' ::
      (str "is_percentage" ++ [ch '"', ch ':'])) := by decide
  have htype : str ",\"panel_type\":\"" = ch ',' :: ch '"' :: (str "panel_type" ++
      [ch '"', ch ':', ch '"']) := by decide
  have hquote : str "\"" = [ch '"'] := rfl
  have hclose : str "\x7d" = [ch '\x7d'] := rfl
  unfold metricItem metricPieces metricMembers
  rw [hendpoint, hrequires, hparam, htitle, hlabel, hpercentage, htype, hquote, hclose]
  cases m.requiresParam <;>
    simp [commaJoin, Member.full, endpointMember, escapedMember, flagMember, quoted]

theorem forall_metricMembers {P : TextMember → Prop} {Q : Bytes → Prop} {m : MetricEntry}
    (htext : ∀ key hplain hascii s, P (escapedMember key hplain hascii s) ↔ Q s)
    (hflag : ∀ key hplain hascii b, P (flagMember key hplain hascii b)) :
    (∀ x ∈ endpointMember m :: metricMembers m, P x) ↔ ∀ s ∈ m.listedTexts, Q s := by
  unfold metricMembers MetricEntry.listedTexts
  cases m.requiresParam <;> simp [endpointMember, htext, hflag]

theorem readsAs_metricItem (m : MetricEntry) :
    ReadsAs (metricItem m) (metricValue m) (∀ s ∈ m.listedTexts, Whole s) := by
  rw [metricItem_eq, metricValue_eq]
  exact (readsAs_textObject (endpointMember m) (metricMembers m)).congr
    (forall_metricMembers (fun _ _ _ _ => Iff.rfl) fun _ _ _ _ => trivial)

theorem utf8Piece_metricItem (m : MetricEntry) :
    Utf8Piece (metricItem m) (∀ s ∈ m.listedTexts, validUtf8 (escaped s) = true) := by
  rw [metricItem_eq]
  have h := utf8Piece_members (endpointMember m :: metricMembers m)
  exact (utf8Piece_braces h).congr
    (forall_metricMembers (fun _ _ _ _ => Iff.rfl) fun _ _ _ _ => trivial)

/-! ## The list -/

/-- What the list is to the page. -/
def metricsValue (metrics : List MetricEntry) : Json :=
  .obj [(str "version", .str (str "1.0")), (str "metrics", .arr (metrics.map metricValue))]

/-- The text of the array, from its bracket to its bracket. -/
def metricArray (metrics : List MetricEntry) : Bytes :=
  ch '[' :: (commaJoin (metrics.map metricItem) ++ [ch ']'])

theorem utf8Piece_metricArray (metrics : List MetricEntry) : Utf8Piece (metricArray metrics)
    (∀ m ∈ metrics, ∀ s ∈ m.listedTexts, validUtf8 (escaped s) = true) :=
  ((utf8Piece_ascii (t := [ch '[']) (by decide)).append
    ((utf8Piece_commaJoin utf8Piece_metricItem metrics).append (utf8Piece_ascii (by decide)))).congr
      (by simp)

/-- The member of the array. -/
def metricArrayMember (metrics : List MetricEntry) : TextMember where
  key := str "metrics"
  text := metricArray metrics
  val := .arr (metrics.map metricValue)
  good := ∀ m ∈ metrics, ∀ s ∈ m.listedTexts, Whole s
  key_plain := by decide
  reads := readsAs_array readsAs_metricItem metrics
  clean := ∀ m ∈ metrics, ∀ s ∈ m.listedTexts, validUtf8 (escaped s) = true
  utf8 := utf8Piece_member (show (str "metrics").all (·.toNat < 0x80) = true by decide) (utf8Piece_metricArray metrics)

/-- The member of the version. -/
def versionMember : TextMember where
  key := str "version"
  text := quoted (str "1.0")
  val := .str (str "1.0")
  good := JsonPlain (str "1.0")
  key_plain := by decide
  reads := readsAs_string (str "1.0")
  clean := validUtf8 (str "1.0") = true
  utf8 := utf8Piece_member (by decide) (utf8Piece_quoted _)

theorem metricsText_eq (metrics : List MetricEntry) :
    str "\x7b\"version\":\"1.0\",\"metrics\":[" ++ (commaJoin (metrics.map metricItem) ++ str "]\x7d")
      = ch '\x7b' :: (commaJoin ([versionMember, metricArrayMember metrics].map (·.full))
        ++ [ch '\x7d']) := by
  have hopen : str "\x7b\"version\":\"1.0\",\"metrics\":[" = ch '\x7b' :: ch '"' :: (str "version" ++
      (ch '"' :: ch ':' :: (quoted (str "1.0") ++ (ch ',' :: ch '"' :: (str "metrics" ++
        [ch '"', ch ':', ch '[']))))) := by decide
  have hclose : str "]\x7d" = [ch ']', ch '\x7d'] := rfl
  rw [hopen, hclose]
  simp [commaJoin, Member.full, metricArrayMember, metricArray, versionMember]

theorem listing_decodes {metrics : List MetricEntry} {text : Bytes}
    (h : generateMetricsJson metrics = some text) :
    decodeJson text = some (metricsValue metrics)
      ↔ ∀ m ∈ metrics, ∀ s ∈ m.listedTexts, Listable s := by
  rw [generateMetricsJson_some h, metricsText_eq]
  have hreads := readsAs_textObject versionMember [metricArrayMember metrics]
  have hutf8 := utf8Piece_braces (utf8Piece_members [versionMember, metricArrayMember metrics])
  have hplain : JsonPlain (str "1.0") := by decide
  have hversion : validUtf8 (str "1.0") = true := by decide
  have hdecode := hreads.decode
  rw [hutf8.valid] at hdecode
  have hgood : (∀ y ∈ [versionMember, metricArrayMember metrics], y.good)
      ↔ ∀ m ∈ metrics, ∀ s ∈ m.listedTexts, Whole s := by
    simp [versionMember, metricArrayMember, hplain]
  have hclean : (∀ y ∈ [versionMember, metricArrayMember metrics], y.clean)
      ↔ ∀ m ∈ metrics, ∀ s ∈ m.listedTexts, validUtf8 (escaped s) = true := by
    simp [versionMember, metricArrayMember, hversion]
  refine hdecode.trans ?_
  rw [hgood, hclean]
  simp only [listable_iff, imp_and, forall_and]

/-! ## Of a configuration -/

/-- The listed metrics are all slots, in their order. -/
theorem metrics_of_written {c : LoadedConfig} (h : c.Written) : c.metrics = c.entries.map some := by
  unfold LoadedConfig.Written at h
  unfold LoadedConfig.entries
  generalize c.metrics = slots at h ⊢
  induction slots with
  | nil => rfl
  | cons slot slots ih =>
      obtain ⟨m, rfl⟩ := Option.isSome_iff_exists.mp (h slot List.mem_cons_self)
      have hhead : (some m :: slots).filterMap id = m :: slots.filterMap id := rfl
      rw [hhead, List.map_cons, ← ih fun slot' hmem => h slot' (List.mem_cons_of_mem _ hmem)]

theorem length_setStringField {j : Json} {field dflt : String} {size n : Nat} (hsize : size ≤ n + 1) :
    (setStringField j field size dflt).length ≤ n := by
  have hcopy : ∀ src, (copyString size src).length ≤ n := fun src =>
    (List.length_take_le _ _).trans (by omega)
  unfold setStringField
  split
  · exact hcopy _
  · exact hcopy _

/-- The texts of a loaded metric fit its arrays. -/
theorem length_listedTexts {j : Json} {m : MetricEntry} (h : loadMetric j = some m) :
    ∀ s ∈ m.listedTexts, s.length ≤ 127 := by
  unfold loadMetric at h
  split at h
  · obtain rfl := Option.some.inj h
    split
    · intro s hs
      simp only [MetricEntry.listedTexts, parseMetricConfig, List.mem_cons, List.mem_append,
        List.not_mem_nil, or_false] at hs
      rcases hs with rfl | hparam | rfl | rfl | rfl
      · exact length_setStringField (by decide)
      · obtain ⟨-, hparam⟩ := List.mem_ite_nil_right.mp hparam
        rw [List.mem_singleton.mp hparam]
        exact length_setStringField (by decide)
      · exact length_setStringField (by decide)
      · exact length_setStringField (by decide)
      · exact length_setStringField (by decide)
    · have hzeroed : MetricEntry.zeroed.listedTexts = [[], [], [], []] := rfl
      intro s hs
      rw [hzeroed] at hs
      simp only [List.mem_cons, List.not_mem_nil, or_false, or_self] at hs
      rw [hs]
      exact Nat.zero_le _
  · cases h

/--
**The page reads the metrics that are configured.**

In the loaded configuration every slot of the array is written, because every element of `metrics`
is an object. Then its list decodes to its metrics, in their order and with their fields, exactly
if every text is well-formed and no element of it was left out of the buffer. Nothing is left out
of a text without control characters other than tabs and line ends.
-/
theorem metrics_read_back {decode : Bytes → Option Json} {file : Option Bytes} {c : LoadedConfig}
    (hload : loadConfig decode file = some c) (hwritten : c.Written) {text : Bytes}
    (h : generateMetricsJson c.entries = some text) :
    c.metrics = c.entries.map some
      ∧ (decodeJson text = some (metricsValue c.entries)
        ↔ ∀ m ∈ c.entries, ∀ s ∈ m.listedTexts, Listable s)
      ∧ ∀ m ∈ c.entries, ∀ s ∈ m.listedTexts, (∀ b ∈ s, ¬NeedsCode b) → Whole s := by
  refine ⟨metrics_of_written hwritten, listing_decodes h, fun m hm s hs => whole_of_length ?_⟩
  have hloaded : ∃ j, loadMetric j = some m := by
    cases file with
    | none =>
        obtain rfl := Option.some.inj hload
        cases hm
    | some f =>
        obtain ⟨root, -, rfl⟩ := Option.map_eq_some_iff.mp hload
        exact mem_entries_loadRoot hm
  obtain ⟨j, hj⟩ := hloaded
  exact (length_listedTexts hj s hs).trans (by decide)

/-- A file with one metric, whose title has a quote. -/
def quotedFile : Bytes :=
  str "\x7b\"metrics\":[\x7b\"endpoint\":\"disk\",\"rrd_path\":\"d.rrd\",\"requires_param\":true,"
    ++ str "\"param_name\":\"device\",\"title\":\"Disk \\\"io\\\"\"\x7d]\x7d"

theorem metrics_read_back_quote :
    ∃ c text, loadConfig decodeJson (some quotedFile) = some c
      ∧ c.entries.map (·.title) = [str "Disk \"io\""] ∧ generateMetricsJson c.entries = some text
      ∧ decodeJson text = some (metricsValue c.entries) := by
  have hloads : (loadConfig decodeJson (some quotedFile)).any (fun c => decide c.Written
      && decide (c.entries.map (·.title) = [str "Disk \"io\""])
      && (generateMetricsJson c.entries).isSome
      && c.entries.all fun m => m.listedTexts.all fun s =>
        s.all (fun b => !decide (NeedsCode b)) && validUtf8 s) = true := by decide +kernel
  obtain ⟨c, hload, hall⟩ := (Option.any_eq_true _ _).mp hloads
  simp only [Bool.and_eq_true, decide_eq_true_iff] at hall
  obtain ⟨⟨⟨hwritten, htitle⟩, htext⟩, htexts⟩ := hall
  obtain ⟨text, htext⟩ := Option.isSome_iff_exists.mp htext
  obtain ⟨-, hdecodes, hwhole⟩ := metrics_read_back hload hwritten htext
  refine ⟨c, text, hload, htitle, htext, hdecodes.mpr fun m hm s hs => ?_⟩
  have hs' := List.all_eq_true.mp (List.all_eq_true.mp htexts m hm) s hs
  rw [Bool.and_eq_true] at hs'
  exact ⟨hwhole m hm s hs fun b hb => by simpa using List.all_eq_true.mp hs'.1 b hb, hs'.2⟩

end Svgd.Backend
