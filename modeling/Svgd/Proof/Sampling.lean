import Svgd.Proof.ArchiveScan
import Svgd.Proof.StepChoice

/-!
# Sampling a file

`select_optimal_step` composes the scan, the first timestamp and the choice of the step. It
passes the default step of 15 seconds to the choice, not the step of the file, so archives
with a smaller step are only looked at if there is no other one. What it chooses from are
the archives as they are read (`readSteps`), which need not be those of the file.
-/

namespace Svgd.Backend

open Lib

/-- The available part of the requested window, in seconds. -/
def availableRange (w : RrdWorld) (filename : Bytes) (info : List RrdInfo)
    (start stop period : Int) : Int :=
  let first := firstTimestamp w filename (readRras info (readBaseStep info 15)) (-1)
  let first := if first = -1 then stop - period else first
  stop - (if start < first then first else start)

theorem selectOptimalStep_eq {w : RrdWorld} {filename : Bytes} {info : List RrdInfo}
    (hinfo : w.rrdInfo filename = some info) {start stop period : Int}
    (hrange : 0 < availableRange w filename info start stop period) :
    selectOptimalStep w filename start stop period
      = selectStepFromRras ((readRras info (readBaseStep info 15)).map fun r =>
          ⟨r.pdpPerRow, r.effectiveStep, r.cf⟩)
        (availableRange w filename info start stop period) period 15 := by
  unfold availableRange at hrange ⊢
  unfold selectOptimalStep
  rw [hinfo]
  dsimp only at hrange ⊢
  rw [if_neg (by omega)]

/-- The archives of a file, with the functions they are read with. -/
def readSteps (baseStep : Nat) (archives : List Archive) : List RraStepInfo :=
  (readArchives baseStep archives).map fun c =>
    ⟨c.1.pdpPerRow, toULong (c.1.pdpPerRow * baseStep : Nat), c.2⟩

/-- The step if no average of at least 15 seconds is read. -/
def standIn (rras : List RraStepInfo) (range period : Int) : Nat :=
  if range ≤ period then (rawAverage rras).elim 15 (·.effectiveStep) else 15

/-- Some archive of averages covers a range with a fitting number of points. -/
def Covered (baseStep : Nat) (archives : List Archive) (range : Int) : Prop :=
  ∃ a ∈ archives, a.cf = str "AVERAGE" ∧ inWindow (stepsIn range (a.pdpPerRow * baseStep))

/-- When the chosen step gives a fitting number of points: the first archive that is counted
to fit does, or there is none to be counted and the step that stands in does. -/
def Samples (rras : List RraStepInfo) (range period : Int) : Prop :=
  (∃ e, (eligible rras 15).find? (inWindow <| numPoints range ·.effectiveStep) = some e
      ∧ inWindow (e.points range))
    ∨ (eligible rras 15 = [] ∧ inWindow (stepsIn range (standIn rras range period)))

section

variable {range period : Int} {minStep baseStep : Nat} {rras : List RraStepInfo}
  {archives : List Archive}

/-- The loop ends with the candidate or with an entry. -/
theorem selectStepLoop_mem (rras : List RraStepInfo) : ∀ optimal best,
    selectStepLoop range minStep rras optimal best = optimal
      ∨ ∃ e ∈ eligible rras minStep,
          selectStepLoop range minStep rras optimal best = e.effectiveStep := by
  induction rras with
  | nil => exact fun _ _ => .inl rfl
  | cons r rras ih =>
      intro optimal best
      have hskip : ∀ optimal best, (selectStepLoop range minStep rras optimal best = optimal
          ∨ ∃ e ∈ eligible (r :: rras) minStep,
              selectStepLoop range minStep rras optimal best = e.effectiveStep) := by
        intro optimal best
        rcases ih optimal best with h | ⟨e, he, h⟩
        · exact .inl h
        · exact .inr ⟨e, mem_eligible.mpr ⟨by simp [(mem_eligible.mp he).1],
            (mem_eligible.mp he).2⟩, h⟩
      unfold selectStepLoop
      split
      · exact hskip optimal best
      · rename_i hlook
        have hr : r ∈ eligible (r :: rras) minStep := by
          rw [mem_eligible]
          refine ⟨by simp, ?_, by omega⟩
          by_contra hcf
          exact hlook (.inl hcf)
        have htake : ∀ best, (selectStepLoop range minStep rras r.effectiveStep best = optimal
            ∨ ∃ e ∈ eligible (r :: rras) minStep,
              selectStepLoop range minStep rras r.effectiveStep best = e.effectiveStep) := by
          intro best
          rcases hskip r.effectiveStep best with h | h
          · exact .inr ⟨r, hr, h⟩
          · exact .inr h
        dsimp only
        split
        · exact .inr ⟨r, hr, rfl⟩
        · split
          · exact htake _
          · split
            · exact htake _
            · exact hskip optimal best

/-- The first entry is taken. -/
theorem selectStepLoop_first (range : Int) {c : RraStepInfo} (es : List RraStepInfo)
    (hc : c.cf = str "AVERAGE" ∧ minStep ≤ c.effectiveStep) : ∃ e, (e = c ∨ e ∈ eligible es minStep)
      ∧ selectStepLoop range minStep (c :: es) 0 0 = e.effectiveStep := by
  have hskip : ¬(c.cf ≠ str "AVERAGE" ∨ c.effectiveStep < minStep) := by
    simp [hc.1]; omega
  have htake : ∀ best, ∃ e, (e = c ∨ e ∈ eligible es minStep)
      ∧ selectStepLoop range minStep es c.effectiveStep best = e.effectiveStep := by
    intro best
    rcases selectStepLoop_mem es c.effectiveStep best with h | ⟨e, he, h⟩
    · exact ⟨c, .inl rfl, h⟩
    · exact ⟨e, .inr he, h⟩
  unfold selectStepLoop
  rw [if_neg hskip]
  dsimp only
  split
  · exact ⟨c, .inl rfl, rfl⟩
  · split
    · exact htake _
    · rename_i hout hlow
      rw [if_pos (by omega)]
      exact htake _

/-- An entry is chosen if there is one. -/
theorem selectStepFromRras_mem (range period : Int) (hne : eligible rras 15 ≠ []) :
    ∃ e ∈ eligible rras 15, selectStepFromRras rras range period 15 = e.effectiveStep := by
  obtain ⟨c, es, hE⟩ := List.exists_cons_of_ne_nil hne
  have hall : ∀ x ∈ c :: es, x.cf = str "AVERAGE" ∧ 15 ≤ x.effectiveStep := by
    intro x hx
    rw [← hE] at hx
    exact (mem_eligible.mp hx).2
  obtain ⟨e, he, hloop⟩ := selectStepLoop_first range es (hall c (by simp))
  have hmem : e ∈ c :: es := by
    rcases he with rfl | he
    · simp
    · simp [(mem_eligible.mp he).1]
  refine ⟨e, hE ▸ hmem, ?_⟩
  have hstep := (hall e hmem).2
  apply selectStepFromRras_of_loop (by omega)
  rw [hE, hloop]

/-- **The chosen step gives a fitting number of points exactly in the two cases.** -/
theorem samples_iff (hr : 0 < range) (hpos : ∀ r ∈ rras, 1 ≤ r.effectiveStep)
    (hle : ∀ r ∈ rras, r.effectiveStep ≤ 1000000) :
    inWindow (stepsIn range (selectStepFromRras rras range period 15))
      ↔ Samples rras range period := by
  unfold Samples
  have hmem : ∀ x ∈ eligible rras 15, x.cf = str "AVERAGE" ∧ 15 ≤ x.effectiveStep :=
    fun x hx => (mem_eligible.mp hx).2
  cases hfind : (eligible rras 15).find? (inWindow <| numPoints range ·.effectiveStep) with
  | some e =>
      have hemem := List.mem_of_find?_eq_some hfind
      have hstep : selectStepFromRras rras range period 15 = e.effectiveStep := by
        apply selectStepFromRras_of_loop (by have := (hmem e hemem).2; omega)
        exact selectStepLoop_find hmem hfind 0 0
      rw [hstep]
      constructor
      · exact fun h => .inl ⟨e, rfl, h⟩
      · intro h
        rcases h with ⟨e', he', h⟩ | ⟨hnil, _⟩
        · obtain rfl := Option.some.inj he'
          exact h
        · rw [hnil] at hemem
          cases hemem
  | none =>
      by_cases hnil : eligible rras 15 = []
      · rw [selectStepFromRras_none hpos hnil]
        constructor
        · exact fun h => .inr ⟨hnil, h⟩
        · intro h
          rcases h with ⟨_, he, _⟩ | ⟨_, h⟩
          · cases he
          · exact h
      · -- an entry is chosen, and it is not counted to fit
        obtain ⟨e, he, hstep⟩ := selectStepFromRras_mem range period hnil
        rw [hstep]
        constructor
        · intro hw
          have hin := (mem_eligible.mp he).1
          have hfits : e.Fits range := ⟨hpos e hin, hle e hin, by
            have hw' : inWindow (e.points range) := hw
            unfold inWindow at hw'
            omega⟩
          have hcount := List.find?_eq_none.mp hfind e he
          rw [numPoints_eq hr hfits] at hcount
          have hnot : ¬inWindow (e.points range) := by simpa using hcount
          exact absurd hw hnot
        · intro h
          rcases h with ⟨_, he, _⟩ | ⟨hnil', _⟩
          · cases he
          · exact absurd hnil' hnil

/-- What is read has an accepted step. -/
theorem accepted_of_mem_readArchives {c : Archive × Bytes}
    (h : c ∈ readArchives baseStep archives) : acceptsStep baseStep c.1.pdpPerRow = true := by
  induction archives with
  | nil => cases h
  | cons a rest ih =>
      unfold readArchives at h
      rcases List.mem_append.mp h with h | h
      · rw [Option.mem_toList, Option.map_eq_some_iff] at h
        obtain ⟨cf, hread, rfl⟩ := h
        unfold Archive.readAs at hread
        split at hread
        · assumption
        · cases hread
      · exact ih h

theorem readSteps_bounds {r : RraStepInfo} (h : r ∈ readSteps baseStep archives) :
    1 ≤ r.effectiveStep ∧ r.effectiveStep ≤ 1000000 := by
  obtain ⟨c, hc, rfl⟩ := List.mem_map.mp h
  have hacc := accepted_of_mem_readArchives hc
  unfold acceptsStep at hacc
  simp only [bne_iff_ne, Bool.and_eq_true, decide_eq_true_eq] at hacc
  exact ⟨by dsimp only; omega, hacc.2⟩

theorem indexed_eq_self (h : ∀ a ∈ archives, a.index < 20) : indexed archives = archives := by
  unfold indexed
  rw [List.filter_eq_self]
  intro a ha
  simpa using h a ha

/-- The steps that are passed on are those of the archives as they are read. -/
theorem readRras_steps {info : List RrdInfo} (h : ListsArchives archives info)
    (hidx : ∀ a ∈ archives, a.index < 20) (baseStep : Nat) :
    ((readRras info baseStep).map fun r => (⟨r.pdpPerRow, r.effectiveStep, r.cf⟩ : RraStepInfo))
      = readSteps baseStep archives := by
  have helem := congrArg (List.map fun e : Element =>
    (⟨e.pdpPerRow, e.effectiveStep, e.cf⟩ : RraStepInfo)) (readRras_elements h baseStep)
  rw [indexed_eq_self hidx] at helem
  unfold elements at helem
  rw [List.map_map, List.map_map] at helem
  exact helem

end

/-- **When sampling avoids too few and too many points.** For a file of at most twenty
archives whose list has their keys by groups: if some archive of averages covers the
available range with 100 to 2400 points, the chosen step does so too, exactly if the
archives that are read sample it. -/
theorem sampling_iff {w : RrdWorld} {filename : Bytes} {info : List RrdInfo}
    {archives : List Archive} {start stop period : Int}
    (hinfo : w.rrdInfo filename = some info) (hlist : ListsArchives archives info)
    (hidx : ∀ a ∈ archives, a.index < 20)
    (hrange : 0 < availableRange w filename info start stop period) :
    (Covered (readBaseStep info 15) archives (availableRange w filename info start stop period) →
        inWindow (stepsIn (availableRange w filename info start stop period)
          (selectOptimalStep w filename start stop period)))
      ↔ (Covered (readBaseStep info 15) archives
            (availableRange w filename info start stop period) →
          Samples (readSteps (readBaseStep info 15) archives)
            (availableRange w filename info start stop period) period) := by
  rw [selectOptimalStep_eq hinfo hrange, readRras_steps hlist hidx,
    samples_iff hrange (fun r hr => (readSteps_bounds hr).1) fun r hr => (readSteps_bounds hr).2]

/-- A file with ten seconds between the samples, and archives of averages in librrd's order. -/
def collectdArchives (pdps : List Nat) : List Archive :=
  pdps.mapIdx fun i pdp => ⟨i, str "AVERAGE", 1200, pdp, [.cf, .rows, .pdpPerRow], by decide⟩

/-- A world with one file, whose data reaches far back. -/
def collectdWorld (pdps : List Nat) : RrdWorld where
  access _ := true
  rrdcConnect _ := false
  time := 100000
  rrdInfo _ := some (infoOf 10 (collectdArchives pdps))
  rrdFirst _ _ := 0
  rrdcFetch _ _ _ _ _ := none
  rrdFetch _ _ _ _ _ := none

theorem stepsIn_eq_of {range n : Int} {step : Nat} (hpos : 1 ≤ step)
    (h : (range + step - 1) / step = n) : stepsIn range step = n := by
  rw [stepsIn_eq hpos, h]

/-- A minute is looked at: a day gets 1440 points. -/
theorem sampling_minute :
    inWindow (stepsIn 86400 (selectOptimalStep (collectdWorld [1, 6, 360]) (str "cpu.rrd")
      13600 100000 86400)) :=
  have hminute : stepsIn 86400 60 = 1440 := stepsIn_eq_of (by decide) (by decide)
  (sampling_iff
    (show (collectdWorld [1, 6, 360]).rrdInfo (str "cpu.rrd") = some _ from rfl)
    (listsArchives_infoOf 10 (collectdArchives [1, 6, 360])) (by decide)
    (show 0 < availableRange (collectdWorld [1, 6, 360]) (str "cpu.rrd")
      (infoOf 10 (collectdArchives [1, 6, 360])) 13600 100000 86400 by decide +kernel)).mpr
    (fun _ => .inl ⟨⟨6, 60, str "AVERAGE"⟩, by decide +kernel, by
      show inWindow (stepsIn 86400 60)
      rw [hminute]
      decide⟩)
    ⟨_, List.mem_cons_of_mem _ List.mem_cons_self, rfl, by
      show inWindow (stepsIn 86400 60)
      rw [hminute]
      decide⟩

/-- Ten seconds are not: five and a half hours could have 2000 points, and get six. -/
theorem sampling_ten_seconds :
    (collectdWorld [1, 360, 8640]).rrdInfo (str "cpu.rrd") = some (infoOf 10 (collectdArchives [1, 360, 8640]))
      ∧ ListsArchives (collectdArchives [1, 360, 8640]) (infoOf 10 (collectdArchives [1, 360, 8640]))
      ∧ readBaseStep (infoOf 10 (collectdArchives [1, 360, 8640])) 15 = 10
      ∧ availableRange (collectdWorld [1, 360, 8640]) (str "cpu.rrd")
        (infoOf 10 (collectdArchives [1, 360, 8640])) 80000 100000 20000 = 20000
      ∧ Covered 10 (collectdArchives [1, 360, 8640]) 20000
      ∧ ¬inWindow (stepsIn 20000 (selectOptimalStep (collectdWorld [1, 360, 8640])
        (str "cpu.rrd") 80000 100000 20000)) := by
  have hstep : selectOptimalStep (collectdWorld [1, 360, 8640]) (str "cpu.rrd") 80000 100000 20000
      = 3600 := by decide +kernel
  have hsix : stepsIn 20000 3600 = 6 := stepsIn_eq_of (by decide) (by decide)
  have hmany : stepsIn 20000 10 = 2000 := stepsIn_eq_of (by decide) (by decide)
  refine ⟨rfl, listsArchives_infoOf 10 _, by decide, by decide +kernel, ?_, ?_⟩
  · refine ⟨_, List.mem_cons_self, rfl, ?_⟩
    show inWindow (stepsIn 20000 10)
    rw [hmany]
    decide
  · rw [hstep, hsix]
    decide

end Svgd.Backend
