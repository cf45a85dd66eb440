import Svgd.Lib.FirstPlace
import Svgd.Proof.DatasourceStore
import Mathlib.Data.List.Nodup

/-!
# What a loaded file leaves

The loop of `load_datasources` shares one cursor between two searches, so an object of the
file is whatever starts at the first `{` behind the first `}` of the one before it, and its
members are searched from there to the end of the file. `NthWritten` says of a text which
datasources are written in it under this reading. The loop is a filter over the objects, cut
at the capacity, and every round moves the cursor forward; so it ends, with the datasources
that are written (`fileWrites_iff`).

What the loop checks of a datasource is then all that holds of the list. It compares no
names, has no upper bound for a port and never looks at the default.
-/

namespace Svgd.Gate

open Lib

/-! ## The loop -/

/-- What the loop keeps. -/
def Datasource.Complete (d : Datasource) : Prop := d.name ≠ [] ∧ d.host ≠ [] ∧ 0 < d.port

instance (d : Datasource) : Decidable d.Complete := by unfold Datasource.Complete; infer_instance

/-- One round of the loop: the list after it, and where the next round starts, if there is one. -/
def loadRound (arr : Bytes) (items : List Datasource) : List Datasource × Option Bytes :=
  if maxDatasources ≤ items.length then (items, none)
  else
    match strchr arr (ch '\x7b') with
    | none => (items, none)
    | some obj =>
        (if (objectDatasource obj).Complete then items ++ [objectDatasource obj] else items,
          (strchr obj (ch '\x7d')).bind fun stop => strchr (stop.drop 1) (ch '\x7b'))

/-- The loop without its budget: it ends with `result` after finitely many rounds. -/
inductive LoadRun : Bytes → List Datasource → List Datasource → Prop
  | last {arr items result} (h : loadRound arr items = (result, none)) : LoadRun arr items result
  | next {arr items arr' items' result} (h : loadRound arr items = (items', some arr'))
      (rest : LoadRun arr' items' result) : LoadRun arr items result

theorem loadItems_round (fuel : Nat) (arr : Bytes) (items : List Datasource) :
    loadItems (fuel + 1) arr items = match loadRound arr items with
      | (items', none) => items'
      | (items', some arr') => loadItems fuel arr' items' := by
  rw [loadItems]
  unfold loadRound Datasource.Complete
  by_cases hroom : maxDatasources ≤ items.length
  · rw [if_pos hroom, if_pos hroom]
  · rw [if_neg hroom, if_neg hroom]
    cases strchr arr (ch '\x7b') with
    | none => rfl
    | some obj =>
        dsimp only
        cases strchr obj (ch '\x7d') with
        | none => rfl
        | some stop =>
            dsimp only [Option.bind_some]
            cases strchr (stop.drop 1) (ch '\x7b') with
            | none => rfl
            | some arr' => rfl

/-- A search returns no more than what it was given. -/
theorem length_strchr_le {s t : Bytes} {c : UInt8} (h : strchr s c = some t) :
    t.length ≤ s.length := by
  obtain ⟨p, t', rfl, rfl, -⟩ := strchr_some h
  rw [List.length_append]
  omega

/-- Every round moves forward. -/
theorem loadRound_forward {arr arr' : Bytes} {items items' : List Datasource}
    (h : loadRound arr items = (items', some arr')) : arr'.length < arr.length := by
  unfold loadRound at h
  split at h
  · exact absurd (congrArg Prod.snd h) (by simp)
  split at h
  · exact absurd (congrArg Prod.snd h) (by simp)
  rename_i obj hobj
  obtain ⟨stop, hstop, hnext⟩ := Option.bind_eq_some_iff.mp (congrArg Prod.snd h)
  have hobj' := length_strchr_le hobj
  obtain ⟨p, stop', rfl, rfl, -⟩ := strchr_some hstop
  have hnext' : strchr stop' (ch '\x7b') = some arr' := hnext
  have := length_strchr_le hnext'
  rw [List.length_append, List.length_cons] at hobj'
  omega

/-- The loop ends, and with enough fuel the model ends as the loop does. -/
theorem loadRun_loadItems {fuel : Nat} : ∀ {arr : Bytes} {items : List Datasource},
    arr.length < fuel → LoadRun arr items (loadItems fuel arr items) := by
  induction fuel with
  | zero => intro arr items h; exact absurd h (by omega)
  | succ fuel ih =>
      intro arr items h
      rw [loadItems_round]
      rcases hround : loadRound arr items with ⟨items', _ | arr'⟩
      · exact LoadRun.last hround
      · have := loadRound_forward hround
        exact LoadRun.next hround (ih (by omega))

/-! ## The objects of a text -/

/-- The objects of a text, read from outside of one (`false`) or from inside (`true`). Each goes
on to the end of the text, since its members are searched that far. -/
def objectsFrom : Bool → Bytes → List Bytes
  | _, [] => []
  | false, b :: s => if b = ch '\x7b' then (b :: s) :: objectsFrom true s else objectsFrom false s
  | true, b :: s => if b = ch '\x7d' then objectsFrom false s else objectsFrom true s

/-- The complete datasources of a text. -/
def entries (arr : Bytes) : List Datasource :=
  ((objectsFrom false arr).map objectDatasource).filter (·.Complete)

theorem objectsFrom_outside (arr : Bytes) :
    objectsFrom false arr = match strchr arr (ch '\x7b') with
      | none => []
      | some obj => obj :: objectsFrom true (obj.drop 1) := by
  induction arr with
  | nil => rfl
  | cons b s ih =>
      rw [objectsFrom, strchr]
      by_cases hb : b = ch '\x7b'
      · rw [if_pos hb, if_pos hb]
        rfl
      · rw [if_neg hb, if_neg hb, ih]

theorem objectsFrom_inside (s : Bytes) :
    objectsFrom true s = match strchr s (ch '\x7d') with
      | none => []
      | some stop => objectsFrom false (stop.drop 1) := by
  induction s with
  | nil => rfl
  | cons b s ih =>
      rw [objectsFrom, strchr]
      by_cases hb : b = ch '\x7d'
      · rw [if_pos hb, if_pos hb]
        rfl
      · rw [if_neg hb, if_neg hb, ih]

/-- The objects behind the first one are those of the rest the next round starts in. -/
theorem objectsFrom_next {arr obj : Bytes} (h : strchr arr (ch '\x7b') = some obj) :
    objectsFrom true (obj.drop 1)
      = match (strchr obj (ch '\x7d')).bind fun stop => strchr (stop.drop 1) (ch '\x7b') with
        | none => []
        | some arr' => objectsFrom false arr' := by
  obtain ⟨p, s, -, rfl, -⟩ := strchr_some h
  have hskip : strchr (ch '\x7b' :: s) (ch '\x7d') = strchr s (ch '\x7d') :=
    strchr_skip (p := [ch '\x7b']) (by decide)
  rw [List.drop_succ_cons, List.drop_zero, hskip, objectsFrom_inside]
  cases strchr s (ch '\x7d') with
  | none => rfl
  | some stop =>
      dsimp only [Option.bind_some]
      rw [objectsFrom_outside]
      cases hnext : strchr (stop.drop 1) (ch '\x7b') with
      | none => rfl
      | some arr' =>
          obtain ⟨q, t, -, rfl, -⟩ := strchr_some hnext
          rfl

/-- The entries, as a round finds them. -/
theorem entries_round {arr : Bytes} {items : List Datasource}
    (hroom : items.length < maxDatasources) :
    items ++ (entries arr).take (maxDatasources - items.length)
      = match loadRound arr items with
        | (items', none) => items'
        | (items', some arr') => items' ++ (entries arr').take (maxDatasources - items'.length) := by
  unfold loadRound entries
  rw [if_neg (by omega), objectsFrom_outside]
  cases hobj : strchr arr (ch '\x7b') with
  | none => simp
  | some obj =>
      dsimp only
      rw [objectsFrom_next hobj, List.map_cons]
      by_cases hkeep : (objectDatasource obj).Complete
      · rw [if_pos hkeep, List.filter_cons_of_pos (by simpa using hkeep)]
        have hlen : maxDatasources - items.length
            = maxDatasources - (items ++ [objectDatasource obj]).length + 1 := by
          rw [List.length_append, List.length_singleton]
          omega
        rw [hlen, List.take_succ_cons]
        cases (strchr obj (ch '\x7d')).bind fun stop => strchr (stop.drop 1) (ch '\x7b') with
        | none => simp
        | some arr' => simp
      · rw [if_neg hkeep, List.filter_cons_of_neg (by simpa using hkeep)]
        cases (strchr obj (ch '\x7d')).bind fun stop => strchr (stop.drop 1) (ch '\x7b') with
        | none => simp
        | some arr' => rfl

/-- The loop does not overrun the list. -/
theorem loadRound_room {arr : Bytes} {items items' : List Datasource} {next : Option Bytes}
    (hroom : items.length ≤ maxDatasources) (h : loadRound arr items = (items', next)) :
    items'.length ≤ maxDatasources := by
  have hitems : items' = (loadRound arr items).1 := by rw [h]
  rw [hitems]
  unfold loadRound
  split
  · exact hroom
  split
  · exact hroom
  dsimp only
  split
  · rw [List.length_append, List.length_singleton]
    omega
  · exact hroom

/-- **The loop adds the entries, up to the capacity.** -/
theorem LoadRun.result_eq {arr : Bytes} {items result : List Datasource}
    (h : LoadRun arr items result) (hroom : items.length ≤ maxDatasources) :
    result = items ++ (entries arr).take (maxDatasources - items.length) := by
  have hfull : ∀ {arr : Bytes} {items items' : List Datasource} {next : Option Bytes},
      loadRound arr items = (items', next) → maxDatasources ≤ items.length →
      items' = items ∧ next = none := by
    intro arr items items' next h hle
    unfold loadRound at h
    rw [if_pos hle] at h
    exact ⟨(congrArg Prod.fst h).symm, (congrArg Prod.snd h).symm⟩
  induction h with
  | @last arr items result h =>
      by_cases hle : maxDatasources ≤ items.length
      · rw [(hfull h hle).1, Nat.sub_eq_zero_of_le hle, List.take_zero, List.append_nil]
      · rw [entries_round (by omega), h]
  | @next arr items arr' items' result h _ ih =>
      have hlt : items.length < maxDatasources := by
        by_contra hle
        exact absurd (hfull h (by omega)).2 (by simp)
      rw [entries_round hlt, h]
      exact ih (loadRound_room hroom h)

/-! ## The file -/

/-- Where the loop starts in the file. -/
def bracket (content : Bytes) : Option Bytes :=
  (strstr (cstr content) (str "\"datasources\"")).bind fun key => strchr key (ch '[')

/-- The datasources written in the file: the complete ones behind the bracket, up to the
capacity. -/
def fileEntries (content : Bytes) : List Datasource :=
  match bracket content with
  | none => []
  | some arr => (entries arr).take maxDatasources

/-- The default written in the file. -/
def fileDefault (content : Bytes) : Option Bytes :=
  fileString (cstr content) (str "\"default\"") maxDsNameLen

/-- What loading a file must leave. -/
structure LoadInv (ds : DatasourceList) : Prop where
  room : ds.items.length ≤ maxDatasources
  name_ne : ∀ d ∈ ds.items, d.name ≠ []
  distinct : (ds.items.map (·.name)).Nodup
  host_ne : ∀ d ∈ ds.items, d.host ≠ []
  port : ∀ d ∈ ds.items, 1 ≤ d.port ∧ d.port ≤ 65535
  default_stored : ds.items ≠ [] → ∃ d ∈ ds.items, d.name = ds.defaultName

/-- `load_datasources` on this content ends, with a list in order. -/
structure LoadsSafely (content : Bytes) : Prop where
  ends : ∀ arr ∈ bracket content, LoadRun arr [] (loadDatasources {} (some content)).items
  inv : LoadInv (loadDatasources {} (some content))

theorem complete_of_mem_fileEntries {content : Bytes} {d : Datasource}
    (h : d ∈ fileEntries content) : d.Complete := by
  unfold fileEntries at h
  split at h
  · exact absurd h (by simp)
  · have := (List.mem_filter.mp (List.mem_of_mem_take h)).2
    simpa using this

/-- A text without a bracket has no entries, and nothing of it is kept but the default. -/
theorem loadDatasources_eq (content : Bytes) :
    loadDatasources {} (some content) = ⟨fileEntries content, (fileDefault content).getD []⟩ := by
  unfold loadDatasources
  split
  · rename_i h
    exact absurd h (by simp)
  · rename_i h
    rw [Option.some.inj h]
    rfl
  · rename_i text _ h
    rw [← Option.some.inj h]
    unfold fileEntries fileDefault bracket
    dsimp only
    cases strstr (cstr content) (str "\"datasources\"") with
    | none => rfl
    | some key =>
        rw [Option.bind_some]
        dsimp only
        cases strchr key (ch '[') with
        | none => rfl
        | some arr =>
            have hrun : LoadRun arr [] (loadItems (arr.length + 1) arr []) :=
              loadRun_loadItems (Nat.lt_succ_self arr.length)
            have heq := hrun.result_eq (Nat.zero_le _)
            dsimp only
            rw [heq]
            rfl

/-! ## What is written in a file -/

/-- The datasource behind a brace is complete: the strings behind the first `name` and the first
`host` from there on are not empty and fit their fields, and the number behind the first
`port` is positive. -/
structure Reads (s : Bytes) (d : Datasource) : Prop where
  name : ∃ k, Behind (str "\"name\"") s k ∧ Between (ch '"') k d.name
  name_fits : d.name ≠ [] ∧ d.name.length < maxDsNameLen
  host : ∃ k, Behind (str "\"host\"") s k ∧ Between (ch '"') k d.host
  host_fits : d.host ≠ [] ∧ d.host.length < maxDsHostLen
  port : ∃ k t, Behind (str "\"port\"") s k ∧ Behind [ch ':'] k t ∧ d.port = atoi t
  port_pos : 0 < d.port

/-- The `n`-th complete datasource in a text, read from brace to brace: the next one opens behind
the first closing brace. -/
inductive NthWritten : Bytes → Nat → Datasource → Prop
  | here {arr s d} (hopen : Behind [ch '\x7b'] arr s) (hd : Reads s d) : NthWritten arr 0 d
  | later {arr s e u n d} (hopen : Behind [ch '\x7b'] arr s) (he : Reads s e)
      (hclose : Behind [ch '\x7d'] s u) (rest : NthWritten u n d) : NthWritten arr (n + 1) d
  | skip {arr s u n d} (hopen : Behind [ch '\x7b'] arr s) (hnone : ∀ e, ¬Reads s e)
      (hclose : Behind [ch '\x7d'] s u) (rest : NthWritten u n d) : NthWritten arr n d

/-- The `n`-th complete datasource of a file, behind the bracket behind `datasources`. -/
def FileWrites (content : Bytes) (n : Nat) (d : Datasource) : Prop :=
  ∃ k arr, Behind (str "\"datasources\"") (cstr content) k ∧ Behind [ch '['] k arr
    ∧ NthWritten arr n d

/-- The string behind the first `default` of a file. -/
def FileDefault (content name : Bytes) : Prop :=
  ∃ k, Behind (str "\"default\"") (cstr content) k ∧ Between (ch '"') k name

/-- A member, said of the text. -/
theorem fileString_eq_some {text key v : Bytes} {size : Nat} :
    fileString text key size = some v
      ↔ (∃ k, Behind key text k ∧ Between (ch '"') k v) ∧ v.length < size := by
  constructor
  · intro h
    unfold fileString at h
    split at h
    · cases h
    rename_i keyPos hkey
    obtain ⟨k, rfl, hk⟩ := strstr_eq_some_iff.mp hkey
    rw [List.drop_left] at h
    split at h
    · cases h
    rename_i start hstart
    split at h
    · cases h
    rename_i stop hstop
    dsimp only at h
    split at h
    · rename_i hsize
      obtain rfl := Option.some.inj h
      exact ⟨⟨k, hk, between_iff.mpr ⟨start, stop, hstart, hstop, rfl⟩⟩, hsize⟩
    · cases h
  · rintro ⟨⟨k, hk, hv⟩, hsize⟩
    obtain ⟨start, stop, hstart, hstop, rfl⟩ := between_iff.mp hv
    unfold fileString
    rw [strstr_eq_some_iff.mpr ⟨k, rfl, hk⟩]
    dsimp only
    rw [List.drop_left, hstart]
    dsimp only
    rw [hstop]
    dsimp only
    rw [if_pos hsize]

/-- A positive port, said of the text. -/
theorem bodyPort_eq_iff {text : Bytes} {z : Int} (hz : 0 < z) : bodyPort text = z
    ↔ ∃ k t, Behind (str "\"port\"") text k ∧ Behind [ch ':'] k t ∧ z = atoi t := by
  have hlen : ∀ k : Bytes, (str "\"port\"" ++ k).drop 6 = k := fun _ => rfl
  constructor
  · intro h
    unfold bodyPort at h
    split at h
    · omega
    rename_i keyPos hkey
    obtain ⟨k, rfl, hk⟩ := strstr_eq_some_iff.mp hkey
    rw [hlen] at h
    split at h
    · omega
    rename_i colon hcolon
    obtain ⟨t, rfl, ht⟩ := strchr_eq_some_iff.mp hcolon
    exact ⟨k, t, hk, ht, h.symm⟩
  · rintro ⟨k, t, hk, ht, rfl⟩
    unfold bodyPort
    rw [strstr_eq_some_iff.mpr ⟨k, rfl, hk⟩]
    dsimp only
    rw [hlen, strchr_eq_some_iff.mpr ⟨t, rfl, ht⟩]
    rfl

/-- A member that is not empty was read. -/
theorem getD_eq_iff {o : Option Bytes} {v : Bytes} (hv : v ≠ []) : o.getD [] = v ↔ o = some v := by
  cases o with
  | none => simp [hv.symm]
  | some w => simp

/-- **What is read behind a brace is what one round of the loop reads.** -/
theorem reads_iff {s : Bytes} {d : Datasource} :
    Reads s d ↔ objectDatasource (ch '\x7b' :: s) = d ∧ d.Complete := by
  have hskip : ∀ w : Bytes, strstr (ch '\x7b' :: s) (ch '"' :: w) = strstr s (ch '"' :: w) :=
    fun w => strstr_skip_head (u := [ch '\x7b']) (by decide)
  have hstring : ∀ (w : Bytes) (size : Nat), fileString (ch '\x7b' :: s) (ch '"' :: w) size
      = fileString s (ch '"' :: w) size := by
    intro w size
    unfold fileString
    rw [hskip]
  have hport : bodyPort (ch '\x7b' :: s) = bodyPort s := by
    unfold bodyPort
    rw [show str "\"port\"" = ch '"' :: str "port\"" from rfl, hskip]
  have hread : objectDatasource (ch '\x7b' :: s) = ⟨(fileString s (str "\"name\"") maxDsNameLen).getD [],
      (fileString s (str "\"host\"") maxDsHostLen).getD [], bodyPort s⟩ := by
    rw [← hport]
    exact congrArg₂ (fun name host => Datasource.mk (Option.getD name []) (Option.getD host []) _)
      (hstring (str "name\"") maxDsNameLen) (hstring (str "host\"") maxDsHostLen)
  obtain ⟨name, host, port⟩ := d
  rw [hread, Datasource.mk.injEq]
  constructor
  · intro h
    exact ⟨⟨(getD_eq_iff h.name_fits.1).mpr (fileString_eq_some.mpr ⟨h.name, h.name_fits.2⟩),
      (getD_eq_iff h.host_fits.1).mpr (fileString_eq_some.mpr ⟨h.host, h.host_fits.2⟩),
      (bodyPort_eq_iff h.port_pos).mpr h.port⟩, h.name_fits.1, h.host_fits.1, h.port_pos⟩
  · rintro ⟨⟨hname, hhost, hvalue⟩, hne, hne', hpos⟩
    obtain ⟨hname, hfits⟩ := fileString_eq_some.mp ((getD_eq_iff hne).mp hname)
    obtain ⟨hhost, hfits'⟩ := fileString_eq_some.mp ((getD_eq_iff hne').mp hhost)
    exact ⟨hname, ⟨hne, hfits⟩, hhost, ⟨hne', hfits'⟩, (bodyPort_eq_iff hpos).mp hvalue, hpos⟩

/-- The entries of a text with a brace. -/
theorem entries_open {arr s : Bytes} (hopen : Behind [ch '\x7b'] arr s) :
    entries arr = ([objectDatasource (ch '\x7b' :: s)].filter (·.Complete))
      ++ ((objectsFrom true s).map objectDatasource).filter (·.Complete) := by
  unfold entries
  rw [objectsFrom_outside, strchr_eq_some_iff.mpr ⟨s, rfl, hopen⟩]
  dsimp only
  rw [List.drop_succ_cons, List.drop_zero, ← List.singleton_append, List.map_append, List.filter_append]
  rfl

/-- Behind the closing brace the text starts anew. -/
theorem entries_close {s u : Bytes} (hclose : Behind [ch '\x7d'] s u) :
    ((objectsFrom true s).map objectDatasource).filter (·.Complete) = entries u := by
  rw [objectsFrom_inside, strchr_eq_some_iff.mpr ⟨u, rfl, hclose⟩]
  rfl

/-- A complete object is kept. -/
theorem filter_of_reads {s : Bytes} {d : Datasource} (h : Reads s d) :
    [objectDatasource (ch '\x7b' :: s)].filter (·.Complete) = [d] := by
  obtain ⟨rfl, hcomplete⟩ := reads_iff.mp h
  exact List.filter_cons_of_pos (by simpa using hcomplete)

/-- Any other is left out. -/
theorem filter_of_not_reads {s : Bytes} (h : ∀ e, ¬Reads s e) :
    [objectDatasource (ch '\x7b' :: s)].filter (·.Complete) = [] :=
  List.filter_cons_of_neg (by simpa using fun hcomplete => h _ (reads_iff.mpr ⟨rfl, hcomplete⟩))

theorem NthWritten.getElem? {arr : Bytes} {n : Nat} {d : Datasource} (h : NthWritten arr n d) :
    (entries arr)[n]? = some d := by
  induction h with
  | here hopen hd => rw [entries_open hopen, filter_of_reads hd]; rfl
  | later hopen he hclose _ ih =>
      rw [entries_open hopen, filter_of_reads he, entries_close hclose]
      exact ih
  | skip hopen hnone hclose _ ih =>
      rw [entries_open hopen, filter_of_not_reads hnone, entries_close hclose]
      exact ih

/-- By the length of the text: behind a closing brace it is shorter. -/
theorem nthWritten_of_getElem? {d : Datasource} : ∀ (m : Nat) {arr : Bytes} {n : Nat},
    arr.length ≤ m → (entries arr)[n]? = some d → NthWritten arr n d := by
  intro m
  induction m with
  | zero =>
      intro arr n hlen h
      rw [List.length_eq_zero_iff.mp (Nat.le_zero.mp hlen)] at h
      cases h
  | succ m ih =>
      intro arr n hlen h
      cases hbrace : strchr arr (ch '\x7b') with
      | none =>
          unfold entries at h
          rw [objectsFrom_outside, hbrace] at h
          cases h
      | some obj =>
          obtain ⟨s, rfl, hopen⟩ := strchr_eq_some_iff.mp hbrace
          -- what stands behind the object is written behind its closing brace
          have hrest : ∀ k, (((objectsFrom true s).map objectDatasource).filter (·.Complete))[k]?
              = some d → ∃ u, Behind [ch '\x7d'] s u ∧ NthWritten u k d := by
            intro k hk
            cases hend : strchr s (ch '\x7d') with
            | none =>
                rw [objectsFrom_inside, hend] at hk
                cases hk
            | some stop =>
                obtain ⟨u, rfl, hclose⟩ := strchr_eq_some_iff.mp hend
                rw [entries_close hclose] at hk
                have hshort := hopen.length_lt
                have hshorter := hclose.length_lt
                exact ⟨u, hclose, ih (by omega) hk⟩
          rw [entries_open hopen] at h
          by_cases hcomplete : (objectDatasource (ch '\x7b' :: s)).Complete
          · have hreads := reads_iff.mpr ⟨rfl, hcomplete⟩
            rw [filter_of_reads hreads] at h
            cases n with
            | zero =>
                obtain rfl := Option.some.inj h
                exact .here hopen hreads
            | succ n =>
                obtain ⟨u, hclose, hw⟩ := hrest n h
                exact .later hopen hreads hclose hw
          · have hnone : ∀ e, ¬Reads s e := by
              intro e he
              obtain ⟨rfl, he⟩ := reads_iff.mp he
              exact hcomplete he
            rw [filter_of_not_reads hnone] at h
            obtain ⟨u, hclose, hw⟩ := hrest n h
            exact .skip hopen hnone hclose hw

/-- **The entries of a text are what is written in it.** -/
theorem nthWritten_iff {arr : Bytes} {n : Nat} {d : Datasource} :
    NthWritten arr n d ↔ (entries arr)[n]? = some d :=
  ⟨NthWritten.getElem?, nthWritten_of_getElem? arr.length le_rfl⟩

/-- The bracket of a file, said of the text. -/
theorem bracket_eq_some_iff {content text : Bytes} : bracket content = some text
    ↔ ∃ k arr, text = ch '[' :: arr ∧ Behind (str "\"datasources\"") (cstr content) k
      ∧ Behind [ch '['] k arr := by
  unfold bracket
  rw [Option.bind_eq_some_iff]
  constructor
  · rintro ⟨key, hkey, harr⟩
    obtain ⟨k, rfl, hk⟩ := strstr_eq_some_iff.mp hkey
    rw [strchr_skip (by decide)] at harr
    obtain ⟨arr, rfl, hplace⟩ := strchr_eq_some_iff.mp harr
    exact ⟨k, arr, rfl, hk, hplace⟩
  · rintro ⟨k, arr, rfl, hk, harr⟩
    refine ⟨_, strstr_eq_some_iff.mpr ⟨k, rfl, hk⟩, ?_⟩
    rw [strchr_skip (by decide)]
    exact strchr_eq_some_iff.mpr ⟨arr, rfl, harr⟩

/-- **The loaded datasources are those that are written in the file.** -/
theorem fileWrites_iff {content : Bytes} {n : Nat} {d : Datasource} (hn : n < maxDatasources) :
    FileWrites content n d ↔ (fileEntries content)[n]? = some d := by
  have hinside : ∀ arr : Bytes, entries (ch '[' :: arr) = entries arr := fun arr => by
    unfold entries
    rw [objectsFrom, if_neg (by decide)]
  unfold FileWrites fileEntries
  constructor
  · rintro ⟨k, arr, hk, harr, hw⟩
    rw [bracket_eq_some_iff.mpr ⟨k, arr, rfl, hk, harr⟩]
    dsimp only
    rw [hinside, List.getElem?_take_of_lt hn]
    exact nthWritten_iff.mp hw
  · intro h
    cases hb : bracket content with
    | none =>
        rw [hb] at h
        cases h
    | some text =>
        rw [hb] at h
        dsimp only at h
        obtain ⟨k, arr, rfl, hk, harr⟩ := bracket_eq_some_iff.mp hb
        rw [hinside, List.getElem?_take_of_lt hn] at h
        exact ⟨k, arr, hk, harr, nthWritten_iff.mpr h⟩

/-! ## Files in order -/

/-- What a file must keep, since the loader does not check it: the first sixteen datasources that
are written in it have distinct names and ports that fit, and one of them is named by the
default. -/
structure ConsistentFile (content : Bytes) : Prop where
  distinct : ∀ i j d e, i < j → j < maxDatasources → FileWrites content i d →
    FileWrites content j e → d.name ≠ e.name
  port_le : ∀ i d, i < maxDatasources → FileWrites content i d → d.port ≤ 65535
  default_named : ∀ d, FileWrites content 0 d →
    ∃ i e, i < maxDatasources ∧ FileWrites content i e ∧ FileDefault content e.name

theorem length_fileEntries_le (content : Bytes) : (fileEntries content).length ≤ maxDatasources := by
  unfold fileEntries
  split
  · exact Nat.zero_le _
  · exact List.length_take_le _ _

/-- What is loaded is written in the file, at a place below the capacity. -/
theorem mem_fileEntries {content : Bytes} {d : Datasource} :
    d ∈ fileEntries content ↔ ∃ n < maxDatasources, FileWrites content n d := by
  constructor
  · intro hd
    obtain ⟨n, hn⟩ := List.mem_iff_getElem?.mp hd
    have hlt : n < maxDatasources :=
      Nat.lt_of_lt_of_le (List.getElem?_eq_some_iff.mp hn).1 (length_fileEntries_le content)
    exact ⟨n, hlt, (fileWrites_iff hlt).mpr hn⟩
  · rintro ⟨n, hn, h⟩
    exact List.mem_of_getElem? ((fileWrites_iff hn).mp h)

/-- The names of what is loaded are distinct, if those of what is written are. -/
theorem nodup_fileEntries {content : Bytes} : ((fileEntries content).map (·.name)).Nodup
    ↔ ∀ i j d e, i < j → j < maxDatasources → FileWrites content i d → FileWrites content j e →
      d.name ≠ e.name := by
  rw [List.nodup_iff_getElem?_ne_getElem?]
  constructor
  · intro h i j d e hij hj hd he
    have hd' := (fileWrites_iff (by omega)).mp hd
    have he' := (fileWrites_iff hj).mp he
    have hlt := (List.getElem?_eq_some_iff.mp he').1
    have hne := h i j hij (by rwa [List.length_map])
    rw [List.getElem?_map, List.getElem?_map, hd', he'] at hne
    exact fun heq => hne (congrArg some heq)
  · intro h i j hij hj heq
    rw [List.length_map] at hj
    have hroom := length_fileEntries_le content
    rw [List.getElem?_map, List.getElem?_map, List.getElem?_eq_getElem hj,
      List.getElem?_eq_getElem (by omega)] at heq
    exact h i j _ _ hij (by omega) ((fileWrites_iff (by omega)).mpr (List.getElem?_eq_getElem _))
      ((fileWrites_iff (by omega)).mpr (List.getElem?_eq_getElem hj)) (Option.some.inj heq)

/-- The loaded default. -/
theorem fileDefault_getD {content name : Bytes} (hne : name ≠ []) (hfits : name.length < maxDsNameLen) :
    (fileDefault content).getD [] = name ↔ FileDefault content name := by
  unfold fileDefault
  rw [getD_eq_iff hne, fileString_eq_some]
  exact ⟨fun h => h.1, fun h => ⟨h, hfits⟩⟩

theorem FileWrites.reads {content : Bytes} {n : Nat} {d : Datasource} (h : FileWrites content n d) :
    ∃ s, Reads s d := by
  obtain ⟨-, arr, -, -, hw⟩ := h
  induction hw with
  | here _ hd => exact ⟨_, hd⟩
  | later _ _ _ _ ih => exact ih
  | skip _ _ _ _ ih => exact ih

/--
**When a loaded list is in order.**

The loader ends on every file. What it leaves is a store the gate can work with exactly if the
first sixteen datasources written in the file have distinct names and ports that fit, and its
default is one of their names.
-/
theorem load_invariant_iff (content : Bytes) : LoadsSafely content ↔ ConsistentFile content := by
  have hload := loadDatasources_eq content
  constructor
  · rintro ⟨-, hinv⟩
    rw [hload] at hinv
    refine ⟨nodup_fileEntries.mp hinv.distinct, fun i d hi hd => ?_, fun d hd => ?_⟩
    · exact (hinv.port d (mem_fileEntries.mpr ⟨i, hi, hd⟩)).2
    · obtain ⟨e, he, hname⟩ := hinv.default_stored
        (List.ne_nil_of_mem (mem_fileEntries.mpr ⟨0, by decide, hd⟩))
      obtain ⟨i, hi, hwritten⟩ := mem_fileEntries.mp he
      obtain ⟨s, hreads⟩ := hwritten.reads
      exact ⟨i, e, hi, hwritten, (fileDefault_getD hreads.name_fits.1 hreads.name_fits.2).mp hname.symm⟩
  · intro hfile
    refine ⟨?_, ?_⟩
    · intro arr harr
      have hrun : LoadRun arr [] (loadItems (arr.length + 1) arr []) :=
        loadRun_loadItems (Nat.lt_succ_self arr.length)
      have heq := hrun.result_eq (Nat.zero_le _)
      have hitems : (loadDatasources {} (some content)).items = loadItems (arr.length + 1) arr [] := by
        rw [hload, heq]
        unfold fileEntries
        rw [Option.mem_def.mp harr]
        rfl
      rw [hitems]
      exact hrun
    · rw [hload]
      refine ⟨length_fileEntries_le content, ?_, nodup_fileEntries.mpr hfile.distinct, ?_, ?_, ?_⟩
      · exact fun d hd => (complete_of_mem_fileEntries hd).1
      · exact fun d hd => (complete_of_mem_fileEntries hd).2.1
      · intro d hd
        obtain ⟨i, hi, hwritten⟩ := mem_fileEntries.mp hd
        have := (complete_of_mem_fileEntries hd).2.2
        exact ⟨by omega, hfile.port_le i d hi hwritten⟩
      · intro hne
        obtain ⟨d, rest, hcons⟩ := List.exists_cons_of_ne_nil hne
        have hfirst : FileWrites content 0 d := by
          refine (fileWrites_iff (by decide)).mpr ?_
          show (fileEntries content)[0]? = some d
          have hcons : fileEntries content = d :: rest := hcons
          rw [hcons]
          rfl
        obtain ⟨i, e, hi, hwritten, hdefault⟩ := hfile.default_named d hfirst
        obtain ⟨s, hreads⟩ := hwritten.reads
        exact ⟨e, mem_fileEntries.mpr ⟨i, hi, hwritten⟩,
          ((fileDefault_getD hreads.name_fits.1 hreads.name_fits.2).mpr hdefault).symm⟩

/-- A name given twice is loaded twice, beside a port that no host has and a default that names
nothing. -/
theorem load_unchecked :
    let content := str "\x7b\"default\":\"old\",\"datasources\":[
      \x7b\"name\":\"a\",\"host\":\"h1\",\"port\":8081\x7d,
      \x7b\"name\":\"a\",\"host\":\"h2\",\"port\":70000\x7d]\x7d"
    loadDatasources {} (some content) = ⟨[⟨str "a", str "h1", 8081⟩, ⟨str "a", str "h2", 70000⟩],
        str "old"⟩
      ∧ ¬LoadInv (loadDatasources {} (some content)) := by
  intro content
  have hload : loadDatasources {} (some content)
      = ⟨[⟨str "a", str "h1", 8081⟩, ⟨str "a", str "h2", 70000⟩], str "old"⟩ := by decide +kernel
  refine ⟨hload, fun hinv => ?_⟩
  rw [hload] at hinv
  exact absurd hinv.distinct (by decide)

end Svgd.Gate
