import Svgd.Proof.PromGrammar
import Svgd.Proof.PromSamples

/-!
# Lines in their buffer

`next_line` copies at most 1023 bytes of a line, and the parser sees the copy. What it makes of
the copy is what it would make of the line exactly when the cut settles nothing: a line that is
passed over stays so, a line without a value stays malformed unless only blanks are left of it,
and a sample stays the same if its value begins in the copy and what is left of its two words
still stands for the same value and the same timestamp.
-/

namespace Svgd.Backend

open Lib

/-! ## Scanning a cut text -/

/-- A scan of a cut text is the scan of the text, cut. -/
theorem span_take (f : UInt8 → Bool) (l : Bytes) (n : Nat) :
    (l.take n).takeWhile f = (l.takeWhile f).take n
      ∧ (l.take n).dropWhile f = (l.dropWhile f).take (n - (l.takeWhile f).length) := by
  refine ⟨List.take_takeWhile.symm, ?_⟩
  induction l generalizing n with
  | nil => simp
  | cons b l ih =>
      cases n with
      | zero => simp
      | succ n =>
          rw [List.take_succ_cons]
          by_cases hb : f b = true
          · rw [List.dropWhile_cons_of_pos hb, List.dropWhile_cons_of_pos hb,
              List.takeWhile_cons_of_pos hb, ih, List.length_cons, Nat.add_sub_add_right]
          · rw [List.dropWhile_cons_of_neg hb, List.dropWhile_cons_of_neg hb,
              List.takeWhile_cons_of_neg hb, List.length_nil, Nat.sub_zero, List.take_succ_cons]

theorem word_take (r : Bytes) (n : Nat) :
    word (r.take n) = (word r).take (n - (r.takeWhile isBlank).length) := by
  unfold word
  rw [(span_take isBlank r n).2, (span_take inWord _ _).1]

/-! ## One line -/

/-- What is left of the value `y`, which starts behind `u`, in the first `n` bytes. -/
def seenValue (n : Nat) (u y : Bytes) : Bytes := (y.takeWhile inWord).take (n - u.length)

/-- What is left of the timestamp behind the value. -/
def seenStamp (n : Nat) (u y : Bytes) : Bytes :=
  (word (y.dropWhile inWord)).take
    (n - u.length - (y.takeWhile inWord).length - ((y.dropWhile inWord).takeWhile isBlank).length)

/-- The first `n` bytes of a line settle what becomes of it. -/
inductive SettledBy (strtod : Bytes → Double) (n : Nat) : Bytes → Prop
  | skipped {line : Bytes} (passed : Passed (line.dropWhile isBlank)) : SettledBy strtod n line
  | valueless {line : Bytes} (noValue : ∀ u name labels b x, Lead u name labels b → line ≠ u ++ b :: x)
      (begun : ∃ b ∈ line.take n, isBlank b = false) : SettledBy strtod n line
  | sample {u name labels x : Bytes} {b : UInt8} (lead : Lead u name labels b) (begun : u.length < n)
      (value : promValue strtod ((seenValue n u (b :: x)).take 63)
        = promValue strtod (((b :: x).takeWhile inWord).take 63))
      (timestamp : stampOf (seenStamp n u (b :: x)) = stamp ((b :: x).dropWhile inWord)) :
      SettledBy strtod n (u ++ b :: x)

/-- A reading without its labels: verdict, name, value and timestamp. -/
def PromLine.unlabelled : PromLine → PromLine
  | .sample name _ value ts => .sample name [] value ts
  | r => r

section

variable {nameSize labelsSize : Nat} {strtod : Bytes → Double}
  (hname : 1 < nameSize) (hlabels : 0 < labelsSize)

include hname hlabels

/-- A line with a value is a sample. -/
theorem promParseLine_lead {u name labels : Bytes} {b : UInt8} (h : Lead u name labels b) (x : Bytes) :
    promParseLine nameSize labelsSize strtod (u ++ b :: x)
      = .sample (name.take (nameSize - 1)) (labels.take (labelsSize - 1))
          (promValue strtod (((b :: x).takeWhile inWord).take 63))
          (stamp ((b :: x).dropWhile inWord)) := by
  obtain ⟨hpass, hne, hfirst, rest, hparts, hrest⟩ := h.parts x
  obtain ⟨hword, hbehind⟩ := word_eq_of_dropWhile hrest
  have hsome : word rest ≠ [] := by
    rw [hword, List.takeWhile_cons_of_pos hfirst]
    exact List.cons_ne_nil _ _
  have hsample := promParseLine_accepts strtod hname hlabels hpass hparts hne hsome
  dsimp only at hsample
  rw [hword, hbehind] at hsample
  exact hsample

/-- What is passed over is skipped. -/
theorem promParseLine_of_passed {line : Bytes} (h : Passed (line.dropWhile isBlank)) :
    promParseLine nameSize labelsSize strtod line = .skip :=
  (promParseLine_eq_skip (by omega) (by omega)).mpr h

/-- A line that is neither passed over nor malformed has a value. -/
theorem lead_of_accepted {line : Bytes} (hpass : ¬Passed (line.dropWhile isBlank))
    (h : promParseLine nameSize labelsSize strtod line ≠ .malformed) :
    ∃ u name labels b x, Lead u name labels b ∧ line = u ++ b :: x := by
  obtain ⟨-, parts, hparts, hne, hword⟩ := parts_of_accepted (by omega) (by omega) h hpass
  obtain ⟨u, b, x, hlead, hline, -⟩ := lead_of_parts hpass hparts hne hword
  exact ⟨u, _, _, b, x, hlead, hline⟩

end

/-- The value of a line starts in one place. -/
theorem Lead.length_eq {u u' name name' labels labels' x x' : Bytes} {b b' : UInt8}
    (h : Lead u name labels b) (h' : Lead u' name' labels' b') (he : u ++ b :: x = u' ++ b' :: x') :
    u.length = u'.length := by
  obtain ⟨-, -, -, rest, hparts, hrest⟩ := h.parts x
  obtain ⟨-, -, -, rest', hparts', hrest'⟩ := h'.parts x'
  rw [he, hparts'] at hparts
  injection hparts with hparts
  injection hparts with _ _ hsame
  rw [hsame, hrest] at hrest'
  have hlen := congrArg List.length he
  have hlen' := congrArg List.length hrest'
  rw [List.length_append, List.length_append] at hlen
  omega

/-- A value in the first bytes of a line is one of the line. -/
theorem lead_of_take {line u x : Bytes} {b : UInt8} {n : Nat} (h : line.take n = u ++ b :: x) :
    line = u ++ b :: (x ++ line.drop n) ∧ u.length < n := by
  have hline := List.take_append_drop n line
  have hlen := List.length_take_le n line
  rw [h, List.append_assoc, List.cons_append] at hline
  rw [h, List.length_append, List.length_cons] at hlen
  exact ⟨hline.symm, by omega⟩

theorem passed_take {line : Bytes} {n : Nat} (h : Passed (line.dropWhile isBlank)) :
    Passed ((line.take n).dropWhile isBlank) := by
  rw [(span_take isBlank line n).2]
  intro b hb
  refine h b ?_
  rw [List.head?_take] at hb
  split at hb
  · exact absurd hb (by simp)
  · exact hb

/-- Unless only blanks are left, a cut line is passed over if the line is. -/
theorem passed_of_take {line : Bytes} {n : Nat} (hbegun : ∃ b ∈ line.take n, isBlank b = false)
    (h : Passed ((line.take n).dropWhile isBlank)) : Passed (line.dropWhile isBlank) := by
  intro b hb
  refine h b ?_
  have hne : (line.take n).dropWhile isBlank ≠ [] := by
    intro hnil
    obtain ⟨c, hc, hout⟩ := hbegun
    rw [List.dropWhile_eq_nil_iff] at hnil
    rw [hnil c hc] at hout
    exact absurd hout (by simp)
  rw [(span_take isBlank line n).2] at hne ⊢
  rw [List.head?_take, if_neg]
  · exact hb
  · intro hzero
    rw [hzero] at hne
    exact hne List.take_zero

section

variable {nameSize labelsSize : Nat} {strtod : Bytes → Double}
  (hname : 1 < nameSize) (hlabels : 0 < labelsSize)

include hname hlabels

/-- A sample whose value begins in the copy is read with what is left of its words. -/
theorem promParseLine_take {u name labels : Bytes} {b : UInt8} (h : Lead u name labels b) (x : Bytes)
    {n : Nat} (hn : u.length < n) :
    promParseLine nameSize labelsSize strtod ((u ++ b :: x).take n)
      = .sample (name.take (nameSize - 1)) (labels.take (labelsSize - 1))
          (promValue strtod ((seenValue n u (b :: x)).take 63))
          (stampOf (seenStamp n u (b :: x))) := by
  obtain ⟨k, hk⟩ : ∃ k, n - u.length = k + 1 := ⟨n - u.length - 1, by omega⟩
  have htake : (u ++ b :: x).take n = u ++ b :: x.take k := by
    rw [List.take_append, List.take_of_length_le (by omega), hk, List.take_succ_cons]
  have hcopy : b :: x.take k = (b :: x).take (k + 1) := List.take_succ_cons.symm
  obtain ⟨hword, hbehind⟩ := span_take inWord (b :: x) (k + 1)
  rw [htake, promParseLine_lead hname hlabels h, hcopy, hword, hbehind]
  unfold stamp seenValue seenStamp
  rw [word_take, hk]

/-- A line that is passed over is so in its copy. -/
theorem promParseLine_take_passed {line : Bytes} (n : Nat) (h : Passed (line.dropWhile isBlank)) :
    promParseLine nameSize labelsSize strtod (line.take n)
      = promParseLine nameSize labelsSize strtod line := by
  rw [promParseLine_of_passed hname hlabels h,
    promParseLine_of_passed hname hlabels (passed_take h)]

theorem promParseLine_of_settled {line : Bytes} {n : Nat} (h : SettledBy strtod n line) :
    promParseLine nameSize labelsSize strtod (line.take n)
      = promParseLine nameSize labelsSize strtod line := by
  cases h with
  | skipped passed => exact promParseLine_take_passed hname hlabels n passed
  | valueless noValue begun =>
      by_cases hpass : Passed (line.dropWhile isBlank)
      · exact promParseLine_take_passed hname hlabels n hpass
      · have hline : promParseLine nameSize labelsSize strtod line = .malformed := by
          by_contra haccept
          obtain ⟨u, nm, lb, b, x, hlead, heq⟩ := lead_of_accepted hname hlabels hpass haccept
          exact noValue u nm lb b x hlead heq
        rw [hline]
        by_contra haccept
        obtain ⟨u, nm, lb, b, x, hlead, heq⟩ := lead_of_accepted hname hlabels
          (fun hcopy => hpass (passed_of_take begun hcopy)) haccept
        exact noValue u nm lb b _ hlead (lead_of_take heq).1
  | sample lead begun value timestamp =>
      rw [promParseLine_take hname hlabels lead _ begun, promParseLine_lead hname hlabels lead, value,
        timestamp]

/-- **When a line is read from its buffer as it would be read whole.** -/
theorem settledBy_iff (line : Bytes) (n : Nat) :
    (promParseLine nameSize labelsSize strtod (line.take n)).unlabelled
        = (promParseLine nameSize labelsSize strtod line).unlabelled
      ↔ SettledBy strtod n line := by
  refine ⟨fun h => ?_, fun h => by rw [promParseLine_of_settled hname hlabels h]⟩
  by_cases hpass : Passed (line.dropWhile isBlank)
  · exact SettledBy.skipped hpass
  by_cases hvalue : ∃ u name labels b x, Lead u name labels b ∧ line = u ++ b :: x
  · obtain ⟨u, nm, lb, b, x, hlead, rfl⟩ := hvalue
    have hwhole : promParseLine nameSize labelsSize strtod (u ++ b :: x) = _ :=
      promParseLine_lead hname hlabels hlead x
    -- the copy is a sample too, and its value starts where that of the line does
    have hbegun : u.length < n := by
      by_contra hlate
      have hcopy : promParseLine nameSize labelsSize strtod ((u ++ b :: x).take n) ≠ .malformed := by
        intro hmalformed
        rw [hmalformed, hwhole] at h
        exact absurd h (by simp [PromLine.unlabelled])
      have hskip : ¬Passed (((u ++ b :: x).take n).dropWhile isBlank) := by
        intro hpassed
        rw [promParseLine_of_passed hname hlabels hpassed, hwhole] at h
        exact absurd h (by simp [PromLine.unlabelled])
      obtain ⟨u', nm', lb', b', x', hlead', heq⟩ := lead_of_accepted hname hlabels hskip hcopy
      obtain ⟨hline, hshort⟩ := lead_of_take heq
      have := hlead.length_eq hlead' hline
      omega
    rw [promParseLine_take hname hlabels hlead x hbegun, hwhole] at h
    unfold PromLine.unlabelled at h
    dsimp only at h
    injection h with _ _ hval hts
    exact SettledBy.sample hlead hbegun hval hts
  · have hnone : ∀ u name labels b x, Lead u name labels b → line ≠ u ++ b :: x :=
      fun u nm lb b x hlead heq => hvalue ⟨u, nm, lb, b, x, hlead, heq⟩
    refine SettledBy.valueless hnone ?_
    have hline : promParseLine nameSize labelsSize strtod line = .malformed := by
      by_contra haccept
      exact hvalue (lead_of_accepted hname hlabels hpass haccept)
    by_contra hblanks
    have hcopy : Passed ((line.take n).dropWhile isBlank) := by
      have hnil : (line.take n).dropWhile isBlank = [] := by
        rw [List.dropWhile_eq_nil_iff]
        intro b hb
        by_contra hout
        exact hblanks ⟨b, hb, by simpa using hout⟩
      rw [hnil]
      intro b hb
      exact absurd hb (by simp)
    rw [promParseLine_of_passed hname hlabels hcopy, hline] at h
    exact absurd h (by simp [PromLine.unlabelled])

/-- A line that fits is settled. -/
theorem settledBy_of_length_le {line : Bytes} {n : Nat} (h : line.length ≤ n) :
    SettledBy strtod n line := by
  rw [← settledBy_iff hname hlabels, List.take_of_length_le h]

end

/-! ## The lines of a body -/

/-- The lines of a body, whole; the last one need not be ended. -/
def wholeLines : Bytes → List Bytes
  | [] => []
  | b :: s =>
      if b = ch '\n' then [] :: wholeLines s
      else
        match wholeLines s with
        | [] => [[b]]
        | l :: ls => (b :: l) :: ls

theorem wholeLines_line {l : Bytes} (h : ch '\n' ∉ l) (s : Bytes) :
    wholeLines (l ++ ch '\n' :: s) = l :: wholeLines s := by
  induction l with
  | nil => exact if_pos rfl
  | cons b l ih =>
      rw [List.mem_cons, not_or] at h
      rw [List.cons_append, wholeLines, if_neg (Ne.symm h.1), ih h.2]

theorem wholeLines_last {l : Bytes} (h : ch '\n' ∉ l) (hne : l ≠ []) : wholeLines l = [l] := by
  induction l with
  | nil => exact absurd rfl hne
  | cons b l ih =>
      rw [List.mem_cons, not_or] at h
      rw [wholeLines, if_neg (Ne.symm h.1)]
      cases l with
      | nil => rfl
      | cons c l => rw [ih h.2 (List.cons_ne_nil c l)]

/-- What `next_line` hands out is the beginning of every line. -/
theorem bodyLines_eq (body : Bytes) : bodyLines body = (wholeLines body).map (·.take 1023) := by
  induction body using lines_induction (q := ch '\n') with
  | nil => rfl
  | last l hl hne =>
      rw [bodyLines_last hl hne, wholeLines_last hl hne]
      rfl
  | line l s hl ih => rw [bodyLines_line hl, wholeLines_line hl, List.map_cons, ih]

/-- The samples of an endpoint, read from whole lines. -/
def wholeSamples (strtod : Bytes → Double) (endpoint body : Bytes) : List PromSample :=
  (wholeLines body).filterMap (matchLine strtod endpoint)

/-- The line buffer changes nothing in this body. -/
structure BufferKeeps (w : PromWorld) (body : Bytes) : Prop where
  /-- Every copy is read as its line would be. -/
  lines : List.Forall₂
    (fun copy line => (promParseLine 128 256 w.strtod copy).unlabelled
      = (promParseLine 128 256 w.strtod line).unlabelled) (bodyLines body) (wholeLines body)
  /-- The series of every metric are those of the whole lines. -/
  series : ∀ metric, promData w metric body
    = if wholeSamples w.strtod metric.endpoint body = [] then none
      else some ⟨seriesFrom w.time ((wholeSamples w.strtod metric.endpoint body).take maxSeries) 0,
        some [], metric⟩

/--
**When the line buffer changes nothing.**

Exactly if the first 1023 bytes of every line settle what becomes of it.
-/
theorem buffer_keeps_iff (w : PromWorld) (body : Bytes) :
    BufferKeeps w body ↔ ∀ line ∈ wholeLines body, SettledBy w.strtod 1023 line := by
  have hname : 1 < 128 := by decide
  have hlabels : 0 < 256 := by decide
  constructor
  · intro h line hline
    have hlines := h.lines
    rw [bodyLines_eq, List.forall₂_map_left_iff, List.forall₂_same] at hlines
    exact (settledBy_iff hname hlabels line 1023).mp (hlines line hline)
  · intro h
    refine ⟨?_, fun metric => ?_⟩
    · rw [bodyLines_eq, List.forall₂_map_left_iff, List.forall₂_same]
      intro line hline
      exact (settledBy_iff hname hlabels line 1023).mpr (h line hline)
    · have hsamples : samples w.strtod metric.endpoint body
          = wholeSamples w.strtod metric.endpoint body := by
        unfold samples wholeSamples
        rw [bodyLines_eq, List.filterMap_map]
        refine List.filterMap_congr fun line hline => ?_
        show matchLine w.strtod metric.endpoint (line.take 1023) = matchLine w.strtod metric.endpoint line
        unfold matchLine
        rw [promParseLine_of_settled hname hlabels (h line hline)]
      rw [promData_eq, hsamples]

/-- The number `strtod` reads in the sample below, whole or cut. -/
def cutStrtod (token : Bytes) : Double :=
  if token = str "12" then .fin 12 else if token = str "1" then .fin 1 else .fin 0

/-- A sample of 1024 bytes: its labels leave room for one digit of its value. -/
def longLine : Bytes :=
  str "requests\x7bpath=\"/" ++ List.replicate 1003 (ch 'a') ++ str "\"\x7d 12"

/-- A line one byte longer than the buffer holds loses the last digit of its value. -/
theorem value_cut_in_buffer :
    let w : PromWorld := ⟨fun _ _ _ => none, cutStrtod, fun _ => 0⟩
    longLine.length = 1024 ∧ wholeLines longLine = [longLine]
      ∧ (promParseLine 128 256 w.strtod longLine).unlabelled
        = .sample (str "requests") [] (.fin 12) none
      ∧ (promParseLine 128 256 w.strtod (longLine.take 1023)).unlabelled
        = .sample (str "requests") [] (.fin 1) none
      ∧ ¬BufferKeeps w longLine := by
  intro w
  have hread : longLine.length = 1024 ∧ wholeLines longLine = [longLine]
      ∧ (promParseLine 128 256 cutStrtod longLine).unlabelled
        = .sample (str "requests") [] (.fin 12) none
      ∧ (promParseLine 128 256 cutStrtod (longLine.take 1023)).unlabelled
        = .sample (str "requests") [] (.fin 1) none := by decide +kernel
  obtain ⟨hlength, hline, hwhole, hcopy⟩ := hread
  refine ⟨hlength, hline, hwhole, hcopy, fun h => ?_⟩
  have hlines := h.lines
  rw [bodyLines_eq, hline, List.map_singleton] at hlines
  have hsame : (promParseLine 128 256 cutStrtod (longLine.take 1023)).unlabelled
      = (promParseLine 128 256 cutStrtod longLine).unlabelled := by
    cases hlines with
    | cons hhead _ => exact hhead
  rw [hwhole, hcopy] at hsame
  exact absurd hsame (by decide)

end Svgd.Backend
