import Svgd.Backend.Prometheus

/-!
# Samples of a text

The Prometheus source reads a text line by line, twice. What it makes of the text
depends on the samples its lines hold, and these are additive: a line end separates
them, a carriage return before it makes no difference, and a line of one word has none.
-/

namespace Svgd.Backend

open Lib

/-! ## Lines -/

theorem nextLine_line {l : Bytes} (h : ch '\n' ∉ l) (s : Bytes) :
    nextLine (l ++ ch '\n' :: s) = some (l.take 1023, s) := by
  unfold nextLine
  rw [if_neg (by simp), strchr_append h]
  dsimp only
  rw [upTo_append, List.drop_succ_cons, List.drop_zero]

theorem nextLine_last {l : Bytes} (h : ch '\n' ∉ l) (hne : l ≠ []) :
    nextLine l = some (l.take 1023, []) := by
  unfold nextLine
  rw [if_neg hne, strchr_eq_none.mpr h]

/-- The lines do not depend on the fuel, if there is enough. -/
theorem bodyLinesFrom_fuel {t : Bytes} {n m : Nat} (hn : t.length ≤ n) (hm : t.length ≤ m) :
    bodyLinesFrom n t = bodyLinesFrom m t := by
  have hnil : ∀ k, bodyLinesFrom k [] = [] := by
    intro k
    cases k with
    | zero => rfl
    | succ k => rfl
  induction t using lines_induction (q := ch '\n') generalizing n m with
  | nil => rw [hnil, hnil]
  | last l hl hne =>
      have hpos : 0 < l.length := List.length_pos_iff.mpr hne
      obtain ⟨n, rfl⟩ := Nat.exists_eq_succ_of_ne_zero (n := n) (by omega)
      obtain ⟨m, rfl⟩ := Nat.exists_eq_succ_of_ne_zero (n := m) (by omega)
      rw [bodyLinesFrom, bodyLinesFrom, nextLine_last hl hne]
      dsimp only
      rw [hnil, hnil]
  | line l s hl ih =>
      rw [List.length_append, List.length_cons] at hn hm
      obtain ⟨n, rfl⟩ := Nat.exists_eq_succ_of_ne_zero (n := n) (by omega)
      obtain ⟨m, rfl⟩ := Nat.exists_eq_succ_of_ne_zero (n := m) (by omega)
      rw [bodyLinesFrom, bodyLinesFrom, nextLine_line hl]
      dsimp only
      rw [ih (n := n) (m := m) (by omega) (by omega)]

theorem bodyLines_line {l : Bytes} (h : ch '\n' ∉ l) (s : Bytes) :
    bodyLines (l ++ ch '\n' :: s) = l.take 1023 :: bodyLines s := by
  have hfuel : (l ++ ch '\n' :: s).length = (l.length + s.length) + 1 := by
    rw [List.length_append, List.length_cons]
    omega
  unfold bodyLines
  rw [hfuel, bodyLinesFrom, nextLine_line h]
  dsimp only
  rw [bodyLinesFrom_fuel (m := s.length) (by omega) (by omega)]

theorem bodyLines_last {l : Bytes} (h : ch '\n' ∉ l) (hne : l ≠ []) :
    bodyLines l = [l.take 1023] := by
  obtain ⟨n, hn⟩ := Nat.exists_eq_succ_of_ne_zero (n := l.length) (by simpa using hne)
  unfold bodyLines
  rw [hn, bodyLinesFrom, nextLine_last h hne]
  dsimp only
  rw [bodyLinesFrom_fuel (m := 0) (by simp) (by simp), bodyLinesFrom]

/-! ## One line -/

section

variable {strtod : Bytes → Double} {name labels : Bytes} {nameSize labelsSize : Nat}

theorem promTimestamp_cr (p : Bytes) : promTimestamp (p ++ [ch '\r']) = promTimestamp p := by
  cases p with
  | nil => rfl
  | cons b p =>
      unfold promTimestamp
      rw [List.cons_append]
      dsimp only
      rw [← List.cons_append, takeWhile_append_stop (by decide)]

theorem promTail_cr (p : Bytes) :
    promTail strtod name labels (p ++ [ch '\r']) = promTail strtod name labels p := by
  unfold promTail
  dsimp only
  rw [dropWhile_append_stop (by decide), takeWhile_append_stop (by decide),
    dropWhile_append_stop (by decide), dropWhile_append_stop (by decide), promTimestamp_cr]

theorem promLabels_cr (p : Bytes) :
    promLabels labelsSize strtod name (p ++ [ch '\r']) = promLabels labelsSize strtod name p := by
  unfold promLabels
  dsimp only
  rw [dropWhile_append_stop (by decide)]
  generalize p.dropWhile isBlank = p
  cases p with
  | nil => rfl
  | cons b p =>
      have hopen : startsWith (b :: p ++ [ch '\r']) (str "\x7b") = startsWith (b :: p) (str "\x7b") := by
        simp [str]
      rw [hopen, List.cons_append, List.drop_succ_cons, List.drop_zero, List.drop_succ_cons,
        List.drop_zero]
      split
      · by_cases hclose : ch '\x7d' ∈ p
        · obtain ⟨u, s, rfl, hu⟩ := List.eq_append_cons_of_mem hclose
          rw [List.append_assoc, List.cons_append, strchr_append hu, strchr_append hu]
          dsimp only
          rw [upTo_append, upTo_append, List.drop_succ_cons, List.drop_zero, List.drop_succ_cons,
            List.drop_zero, promTail_cr]
        · have hcr : ch '\x7d' ∉ p ++ [ch '\r'] := by
            rw [List.mem_append, not_or]
            exact ⟨hclose, by decide⟩
          rw [strchr_eq_none.mpr hclose, strchr_eq_none.mpr hcr]
      · rw [← List.cons_append, promTail_cr]

/-- A carriage return at the end of a line makes no difference. -/
theorem promParseLine_cr (l : Bytes) :
    promParseLine nameSize labelsSize strtod (l ++ [ch '\r'])
      = promParseLine nameSize labelsSize strtod l := by
  unfold promParseLine
  split
  · rfl
  dsimp only
  rw [dropWhile_append_stop (by decide)]
  generalize l.dropWhile isBlank = p
  cases p with
  | nil => rfl
  | cons b p =>
      rw [List.cons_append]
      dsimp only
      rw [← List.cons_append, takeWhile_append_stop (by decide), dropWhile_append_stop (by decide),
        promLabels_cr]

/-- Nothing behind the name, nothing to read. -/
theorem promLabels_nil : promLabels labelsSize strtod name [] = .malformed := rfl

/-- A line of one word. -/
def OneWord (l : Bytes) : Prop := ∀ b ∈ l, inName b = true

/-- No sample is read in a single word. -/
theorem promParseLine_oneWord {l : Bytes} (h : OneWord l) {nm L : Bytes} {v : Double}
    {ts : Option Int} : promParseLine nameSize labelsSize strtod l ≠ .sample nm L v ts := by
  have hskip : OneWord (l.dropWhile isBlank) := by
    intro b hb
    exact h b ((List.dropWhile_sublist _).subset hb)
  unfold promParseLine
  split
  · simp
  dsimp only
  generalize l.dropWhile isBlank = p at hskip
  cases p with
  | nil => simp
  | cons b p =>
      have hrest : (b :: p).dropWhile inName = [] := List.dropWhile_eq_nil_iff.mpr hskip
      dsimp only
      rw [hrest, promLabels_nil]
      split
      · simp
      · split <;> simp

end

/-! ## Samples -/

section

variable {strtod : Bytes → Double} {endpoint : Bytes}

theorem matchLine_cr (l : Bytes) :
    matchLine strtod endpoint (l ++ [ch '\r']) = matchLine strtod endpoint l := by
  unfold matchLine
  rw [promParseLine_cr]

theorem matchLine_oneWord {l : Bytes} (h : OneWord l) : matchLine strtod endpoint l = none := by
  unfold matchLine
  split
  · rename_i hsample
    exact absurd hsample (promParseLine_oneWord h)
  · rfl

/-- The carriage return makes no difference in the line buffer either. -/
theorem matchLine_take_cr (l : Bytes) :
    matchLine strtod endpoint ((l ++ [ch '\r']).take 1023)
      = matchLine strtod endpoint (l.take 1023) := by
  rcases Nat.lt_or_ge l.length 1023 with hlt | hge
  · rw [List.take_of_length_le (by simp; omega), List.take_of_length_le (by omega), matchLine_cr]
  · rw [List.take_append_of_le_length hge]

variable (strtod endpoint)

/-- The samples of an endpoint in a text. -/
def samples (t : Bytes) : List PromSample := (bodyLines t).filterMap (matchLine strtod endpoint)

variable {strtod endpoint}

theorem samples_nil : samples strtod endpoint [] = [] := rfl

theorem samples_line {l : Bytes} (h : ch '\n' ∉ l) (s : Bytes) :
    samples strtod endpoint (l ++ ch '\n' :: s)
      = (matchLine strtod endpoint (l.take 1023)).toList ++ samples strtod endpoint s := by
  unfold samples
  rw [bodyLines_line h, List.filterMap_cons]
  cases matchLine strtod endpoint (l.take 1023) with
  | none => rfl
  | some x => rfl

theorem samples_last {l : Bytes} (h : ch '\n' ∉ l) :
    samples strtod endpoint l = (matchLine strtod endpoint (l.take 1023)).toList := by
  by_cases hne : l = []
  · rw [hne]
    rfl
  · unfold samples
    rw [bodyLines_last h hne, List.filterMap_cons]
    cases matchLine strtod endpoint (l.take 1023) with
    | none => rfl
    | some x => rfl

/-- A line end separates the samples. -/
theorem samples_newline (a b : Bytes) :
    samples strtod endpoint (a ++ ch '\n' :: b)
      = samples strtod endpoint a ++ samples strtod endpoint b := by
  induction a using lines_induction (q := ch '\n') with
  | nil =>
      have hline : ch '\n' ∉ ([] : Bytes) := by simp
      exact samples_line hline b
  | last l hl _ => rw [samples_line hl, samples_last hl]
  | line l s hl ih =>
      rw [List.append_assoc, List.cons_append, samples_line hl, samples_line hl, ih,
        List.append_assoc]

/-- A carriage return at the end of a text makes no difference. -/
theorem samples_cr (a : Bytes) :
    samples strtod endpoint (a ++ [ch '\r']) = samples strtod endpoint a := by
  induction a using lines_induction (q := ch '\n') with
  | nil => rfl
  | last l hl _ =>
      have hcr : ch '\n' ∉ l ++ [ch '\r'] := by
        rw [List.mem_append, not_or]
        exact ⟨hl, by decide⟩
      rw [samples_last hl, samples_last hcr, matchLine_take_cr]
  | line l s hl ih => rw [List.append_assoc, List.cons_append, samples_line hl, samples_line hl, ih]

theorem samples_oneWord {l : Bytes} (h : OneWord l) : samples strtod endpoint l = [] := by
  have hline : ch '\n' ∉ l := by
    intro hm
    exact absurd (h _ hm) (by decide)
  have htake : OneWord (l.take 1023) := by
    intro b hb
    exact h b (List.mem_of_mem_take hb)
  rw [samples_last hline, matchLine_oneWord htake]
  rfl

end

/-! ## Series -/

/-- The series of samples, from series number `idx` on. -/
def seriesFrom (time : Nat → Int) : List PromSample → Nat → List Series
  | [], _ => []
  | s :: ss, idx => s.series (time idx) :: seriesFrom time ss (idx + 1)

theorem countSamples_eq {strtod : Bytes → Double} {endpoint : Bytes} (lines : List Bytes) {count : Nat}
    (h : count < maxSeries) :
    countSamples strtod endpoint lines count
      = min maxSeries (count + (lines.filterMap (matchLine strtod endpoint)).length) := by
  induction lines generalizing count with
  | nil =>
      rw [countSamples, List.filterMap_nil, List.length_nil]
      omega
  | cons line lines ih =>
      rw [countSamples, List.filterMap_cons]
      cases matchLine strtod endpoint line with
      | none => exact ih h
      | some s =>
          dsimp only
          rw [List.length_cons]
          split
          · omega
          · rw [ih (by omega)]
            omega

theorem fillSeries_eq (w : PromWorld) {endpoint : Bytes} {count : Nat} (lines : List Bytes) (idx : Nat) :
    fillSeries w endpoint count lines idx
      = seriesFrom w.time ((lines.filterMap (matchLine w.strtod endpoint)).take (count - idx)) idx := by
  induction lines generalizing idx with
  | nil =>
      rw [List.filterMap_nil, List.take_nil]
      rfl
  | cons line lines ih =>
      rw [fillSeries, List.filterMap_cons]
      split
      · rename_i hcount
        rw [Nat.sub_eq_zero_of_le hcount, List.take_zero]
        rfl
      · rename_i hcount
        cases matchLine w.strtod endpoint line with
        | none => exact ih idx
        | some s =>
            obtain ⟨k, hk⟩ := Nat.exists_eq_succ_of_ne_zero (n := count - idx) (by omega)
            have hk' : count - (idx + 1) = k := by omega
            dsimp only
            rw [ih, hk, hk', List.take_succ_cons]
            rfl

theorem seriesFrom_eq_nil {time : Nat → Int} {ss : List PromSample} {idx : Nat} :
    seriesFrom time ss idx = [] ↔ ss = [] := by
  cases ss with
  | nil => simp [seriesFrom]
  | cons s ss => simp [seriesFrom]

/-- The data depend on the samples alone. -/
theorem promData_eq (w : PromWorld) (metric : MetricConfig) (body : Bytes) :
    promData w metric body
      = if samples w.strtod metric.endpoint body = [] then none
        else some ⟨seriesFrom w.time ((samples w.strtod metric.endpoint body).take maxSeries) 0,
          some [], metric⟩ := by
  unfold promData samples
  dsimp only
  rw [countSamples_eq _ (by decide), fillSeries_eq, Nat.zero_add, Nat.sub_zero]
  generalize (bodyLines body).filterMap (matchLine w.strtod metric.endpoint) = ss
  have hmin : ss.take (min maxSeries ss.length) = ss.take maxSeries := by
    rw [List.take_eq_take_iff]
    omega
  have hpos : 0 < maxSeries := by decide
  rw [hmin]
  cases ss with
  | nil => rfl
  | cons s ss =>
      have hcount : min maxSeries (s :: ss).length ≠ 0 := by
        rw [List.length_cons]
        omega
      have htake : (s :: ss).take maxSeries ≠ [] := by
        rw [Ne, List.take_eq_nil_iff]
        simp
        omega
      rw [if_neg hcount, if_neg (mt seriesFrom_eq_nil.mp htake), if_neg (List.cons_ne_nil s ss)]

end Svgd.Backend
