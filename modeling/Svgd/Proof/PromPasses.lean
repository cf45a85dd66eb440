import Svgd.Proof.PromBuffer

/-!
# The two passes over a response body

`prometheus_source_fetch` walks the body twice: the first walk counts the lines that match
and stops at `MAX_SERIES`, the second one fills as many slots as were counted and stops at
the last. Both use `next_line`, whose cursor moves behind a line end at each call, so both see
every line once. The slots written so far and those still empty are the invariant of the
second walk (`fillSlots_eq`); that none stays empty is the count of the first one.
-/

namespace Svgd.Backend

open Lib

/-! ## The walk -/

/-- The loop around `next_line` sees these lines from a cursor on, and ends. -/
inductive Walk : Bytes → List Bytes → Prop
  | stop {cursor : Bytes} (h : nextLine cursor = none) : Walk cursor []
  | step {cursor line next : Bytes} {lines : List Bytes} (h : nextLine cursor = some (line, next))
      (rest : Walk next lines) : Walk cursor (line :: lines)

/-- The walk over a body ends, and sees the beginning of each line. -/
theorem walk_bodyLines (body : Bytes) : Walk body (bodyLines body) := by
  induction body using lines_induction (q := ch '\n') with
  | nil => exact .stop rfl
  | last l hl hne =>
      rw [bodyLines_last hl hne]
      exact .step (nextLine_last hl hne) (.stop rfl)
  | line l s hl ih =>
      rw [bodyLines_line hl]
      exact .step (nextLine_line hl s) ih

/-- It goes one way only. -/
theorem Walk.unique {cursor : Bytes} {ls ms : List Bytes} (h : Walk cursor ls)
    (h' : Walk cursor ms) : ls = ms := by
  induction h generalizing ms with
  | stop hl =>
      cases h' with
      | stop _ => rfl
      | step hm _ => exact absurd (hl.symm.trans hm) (by simp)
  | step hl _ ih =>
      cases h' with
      | stop hm => exact absurd (hm.symm.trans hl) (by simp)
      | step hm hrest =>
          obtain ⟨rfl, rfl⟩ := Prod.mk.inj (Option.some.inj (hl.symm.trans hm))
          rw [ih hrest]

/-- The lines are what stands between the line ends of a body: put together again, each with
its line end, they are the body, with a last line end if it has none. -/
theorem wholeLines_spec (body : Bytes) :
    (∀ l ∈ wholeLines body, ch '\n' ∉ l)
      ∧ ((wholeLines body).flatMap (· ++ [ch '\n']) = body
        ∨ (wholeLines body).flatMap (· ++ [ch '\n']) = body ++ [ch '\n']) := by
  induction body using lines_induction (q := ch '\n') with
  | nil => exact ⟨by simp [wholeLines], Or.inl rfl⟩
  | last l hl hne =>
      rw [wholeLines_last hl hne]
      exact ⟨by simpa using hl, Or.inr (by simp)⟩
  | line l s hl ih =>
      obtain ⟨hlines, hjoin⟩ := ih
      rw [wholeLines_line hl, List.flatMap_cons]
      refine ⟨?_, hjoin.imp (fun h => by rw [h]; simp) (fun h => by rw [h]; simp)⟩
      intro k hk
      rcases List.mem_cons.mp hk with rfl | hk
      · exact hl
      · exact hlines k hk

/-! ## The lines that match -/

section

variable {strtod : Bytes → Double} {endpoint : Bytes}

/-- A line is read as this sample, its name is the endpoint, and its value is finite. -/
structure Matches (strtod : Bytes → Double) (endpoint line : Bytes) (s : PromSample) : Prop where
  parsed : promParseLine 128 256 strtod line = .sample s.name s.labels s.value s.ts
  name : s.name = endpoint
  finite : s.value.isFinite = true

theorem matchLine_eq_some {line : Bytes} {s : PromSample} :
    matchLine strtod endpoint line = some s ↔ Matches strtod endpoint line s := by
  unfold matchLine
  constructor
  · intro h
    split at h
    · rename_i name labels value ts hline
      split at h
      · rename_i hmatch
        obtain rfl := Option.some.inj h
        exact ⟨hline, hmatch.1, hmatch.2⟩
      · cases h
    · cases h
  · rintro ⟨hline, hname, hfinite⟩
    rw [hline]
    exact if_pos ⟨hname, hfinite⟩

/-- The lines of a body that match. -/
def matchingLines (strtod : Bytes → Double) (endpoint body : Bytes) : List Bytes :=
  (bodyLines body).filter fun line => (matchLine strtod endpoint line).isSome

theorem mem_matchingLines {body line : Bytes} :
    line ∈ matchingLines strtod endpoint body
      ↔ line ∈ bodyLines body ∧ ∃ s, Matches strtod endpoint line s := by
  unfold matchingLines
  rw [List.mem_filter, Option.isSome_iff_exists]
  simp only [matchLine_eq_some]

theorem samples_eq (body : Bytes) :
    (samples strtod endpoint body).map some
      = (matchingLines strtod endpoint body).map (matchLine strtod endpoint) := by
  unfold samples matchingLines
  induction bodyLines body with
  | nil => rfl
  | cons line lines ih =>
      rw [List.filterMap_cons, List.filter_cons]
      cases h : matchLine strtod endpoint line with
      | none => exact ih
      | some s =>
          rw [Option.isSome_some, if_pos rfl, List.map_cons, List.map_cons, ih, h]

theorem length_samples (body : Bytes) :
    (samples strtod endpoint body).length = (matchingLines strtod endpoint body).length := by
  simpa using congrArg List.length (@samples_eq strtod endpoint body)

/-- Sample number `i` is that of matching line number `i`. -/
theorem samples_getElem {body : Bytes} {i : Nat} {s : PromSample}
    (h : (samples strtod endpoint body)[i]? = some s) :
    ∃ line, (matchingLines strtod endpoint body)[i]? = some line
      ∧ Matches strtod endpoint line s := by
  have hi : ((samples strtod endpoint body).map some)[i]? = some (some s) := by
    rw [List.getElem?_map, h, Option.map_some]
  rw [samples_eq, List.getElem?_map] at hi
  obtain ⟨line, hline, hmatch⟩ := Option.map_eq_some_iff.mp hi
  exact ⟨line, hline, matchLine_eq_some.mp hmatch⟩

end

/-! ## The slots -/

/-- Pass 2 keeps what it has filled in front of the slots that are still empty. -/
theorem fillSlots_eq (w : PromWorld) {endpoint : Bytes} {count : Nat} (lines : List Bytes) :
    ∀ (filled : List Series) {new : List Series} {k : Nat}, filled.length + k = count →
      fillSeries w endpoint count lines filled.length = new →
      fillSlots w endpoint count lines filled.length (filled ++ List.replicate k emptySlot)
        = (filled ++ new ++ List.replicate (k - new.length) emptySlot,
          filled.length + new.length) := by
  induction lines with
  | nil =>
      intro filled new k _ hnew
      simp [fillSlots, ← hnew, fillSeries]
  | cons line lines ih =>
      intro filled new k hk hnew
      rw [fillSlots]
      rw [fillSeries] at hnew
      by_cases hcount : count ≤ filled.length
      · rw [if_pos hcount] at hnew ⊢
        simp [← hnew]
      · rw [if_neg hcount] at hnew ⊢
        cases hline : matchLine w.strtod endpoint line with
        | none =>
            rw [hline] at hnew
            exact ih filled hk hnew
        | some s =>
            rw [hline] at hnew
            dsimp only at hnew ⊢
            obtain ⟨k, rfl⟩ := Nat.exists_eq_succ_of_ne_zero (n := k) (by omega)
            generalize s.series (w.time filled.length) = x at hnew ⊢
            have hset : (filled ++ List.replicate (k + 1) emptySlot).set filled.length x
                = (filled ++ [x]) ++ List.replicate k emptySlot := by
              rw [List.set_append_right _ _ (Nat.le_refl _), Nat.sub_self, List.replicate_succ,
                List.set_cons_zero, List.append_assoc, List.singleton_append]
            have hlen : (filled ++ [x]).length = filled.length + 1 := by simp
            have hroom : (filled ++ [x]).length + k = count := by
              rw [hlen]
              omega
            have hnext := ih (filled ++ [x]) hroom rfl
            rw [hset, ← hlen, hnext, hlen, ← hnew]
            simp [Nat.add_assoc, Nat.add_comm 1]

theorem length_seriesFrom (time : Nat → Int) (ss : List PromSample) (idx : Nat) :
    (seriesFrom time ss idx).length = ss.length := by
  induction ss generalizing idx with
  | nil => rfl
  | cons s ss ih => rw [seriesFrom, List.length_cons, List.length_cons, ih]

theorem seriesFrom_getElem {time : Nat → Int} (ss : List PromSample) (idx i : Nat) :
    (seriesFrom time ss idx)[i]? = ss[i]?.map fun s => s.series (time (idx + i)) := by
  induction ss generalizing idx i with
  | nil => rfl
  | cons s ss ih =>
      cases i with
      | zero => rfl
      | succ i =>
          rw [seriesFrom, List.getElem?_cons_succ, List.getElem?_cons_succ, ih]
          congr 2
          funext s
          congr 2
          omega

/-- The slots, when the second walk is over: the series of the first `MAX_SERIES` samples. -/
theorem promSlots_eq (w : PromWorld) (metric : MetricConfig) (body : Bytes) :
    promSlots w metric body
      = if samples w.strtod metric.endpoint body = [] then none
        else some (seriesFrom w.time ((samples w.strtod metric.endpoint body).take maxSeries) 0) := by
  have hpos : 0 < maxSeries := by decide
  have hcount : countSamples w.strtod metric.endpoint (bodyLines body) 0
      = min maxSeries (samples w.strtod metric.endpoint body).length := by
    rw [countSamples_eq _ hpos, Nat.zero_add]
    rfl
  generalize hss : samples w.strtod metric.endpoint body = ss at hcount
  have hnew : fillSeries w metric.endpoint (min maxSeries ss.length) (bodyLines body) 0
      = seriesFrom w.time (ss.take maxSeries) 0 := by
    have htake : ss.take (min maxSeries ss.length) = ss.take maxSeries := by
      rw [List.take_eq_take_iff]
      omega
    rw [fillSeries_eq, Nat.sub_zero, ← htake, ← hss]
    rfl
  have hfill := fillSlots_eq w (bodyLines body) [] (Nat.zero_add _) hnew
  -- as many series as slots, so none is left over
  rw [length_seriesFrom, List.length_take, Nat.sub_self, List.replicate_zero, List.append_nil,
    List.nil_append, List.length_nil, Nat.zero_add, List.nil_append] at hfill
  unfold promSlots
  dsimp only
  rw [hcount, hfill]
  cases ss with
  | nil => rfl
  | cons s ss =>
      have hne : min maxSeries (s :: ss).length ≠ 0 := by
        rw [List.length_cons]
        omega
      rw [if_neg hne, if_neg (List.cons_ne_nil s ss)]
      exact if_neg hne

/--
**The two passes agree.**

For every body, metric and conversion of numbers: the walk with `next_line` ends, and sees
the lines between the line ends of the body, each once, in their order and as far as the line
buffer goes. NULL is returned if and only if no line matches. Otherwise there are as many slots
as the first pass counted, which is the number of matching lines or `MAX_SERIES`; and slot
number `i` has a name and one point, those of the sample on matching line number `i`. These
slots are the series of the data that is returned.
-/
theorem prom_passes_agree (w : PromWorld) (metric : MetricConfig) (body : Bytes) :
    (∀ ls, Walk body ls ↔ ls = (wholeLines body).map (·.take 1023))
      ∧ (∀ l ∈ wholeLines body, ch '\n' ∉ l)
      ∧ ((wholeLines body).flatMap (· ++ [ch '\n']) = body
        ∨ (wholeLines body).flatMap (· ++ [ch '\n']) = body ++ [ch '\n'])
      ∧ (promSlots w metric body = none
        ↔ ∀ line ∈ bodyLines body, ∀ s, ¬ Matches w.strtod metric.endpoint line s)
      ∧ (∀ slots, promSlots w metric body = some slots →
        slots.length = countSamples w.strtod metric.endpoint (bodyLines body) 0
          ∧ slots.length = min 1024 (matchingLines w.strtod metric.endpoint body).length
          ∧ ∀ i slot, slots[i]? = some slot →
            ∃ line s, (matchingLines w.strtod metric.endpoint body)[i]? = some line
              ∧ Matches w.strtod metric.endpoint line s
              ∧ slot = s.series (w.time i) ∧ slot.name ≠ none ∧ slot.points.length = 1)
      ∧ promSlots w metric body = (promData w metric body).map (·.series) := by
  refine ⟨fun ls => ?_, (wholeLines_spec body).1, (wholeLines_spec body).2, ?_, ?_, ?_⟩
  · rw [← bodyLines_eq]
    exact ⟨fun h => h.unique (walk_bodyLines body), fun h => h ▸ walk_bodyLines body⟩
  · have hnil : samples w.strtod metric.endpoint body = []
        ↔ matchingLines w.strtod metric.endpoint body = [] := by
      rw [← List.length_eq_zero_iff, length_samples, List.length_eq_zero_iff]
    rw [promSlots_eq]
    constructor
    · intro h line hline s hs
      have hmem := mem_matchingLines.mpr ⟨hline, s, hs⟩
      split at h
      · rename_i hempty
        rw [hnil.mp hempty] at hmem
        exact List.not_mem_nil hmem
      · cases h
    · intro h
      refine if_pos (hnil.mpr (List.eq_nil_iff_forall_not_mem.mpr fun line hline => ?_))
      obtain ⟨hbody, s, hs⟩ := mem_matchingLines.mp hline
      exact h line hbody s hs
  · intro slots hslots
    rw [promSlots_eq] at hslots
    split at hslots
    · cases hslots
    obtain rfl := Option.some.inj hslots
    have hcount : (seriesFrom w.time ((samples w.strtod metric.endpoint body).take maxSeries) 0).length
        = min maxSeries (samples w.strtod metric.endpoint body).length := by
      rw [length_seriesFrom, List.length_take]
    refine ⟨?_, ?_, fun i slot hslot => ?_⟩
    · rw [hcount, countSamples_eq _ (by decide), Nat.zero_add]
      rfl
    · rw [hcount, length_samples]
      rfl
    · rw [seriesFrom_getElem, Nat.zero_add] at hslot
      obtain ⟨s, hs, rfl⟩ := Option.map_eq_some_iff.mp hslot
      have hi : i < maxSeries := by
        by_contra hge
        rw [List.getElem?_take, if_neg hge] at hs
        cases hs
      rw [List.getElem?_take_of_lt hi] at hs
      obtain ⟨line, hline, hmatch⟩ := samples_getElem hs
      exact ⟨line, s, hline, hmatch, rfl, by simp [PromSample.series], rfl⟩
  · rw [promSlots_eq, promData_eq]
    split <;> rfl

end Svgd.Backend
