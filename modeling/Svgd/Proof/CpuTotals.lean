import Svgd.Proof.CpuSampling
import Svgd.Lib.Binary64

/-!
# CPU time over a run of calls

A call compares its counters with those of the call before it, and the first call with zeros. As
long as no counter decreases, the busy time of a step is at most its whole time, so the quotient
stays within bounds through three roundings and nothing is clamped. Without the roundings the
quotient times the whole time is the busy time of the step, and the steps add up.
-/

namespace Svgd.Backend

open Lib

/-! ## Counters -/

/-- The counters `sscanf` stores; the guest times behind them are not read. -/
structure CpuCounters where
  user : Nat
  nice : Nat
  system : Nat
  idle : Nat
  iowait : Nat
  irq : Nat
  softirq : Nat
  steal : Nat
deriving DecidableEq, Repr

namespace CpuCounters

/-- Before the first call. -/
def boot : CpuCounters := ⟨0, 0, 0, 0, 0, 0, 0, 0⟩

def busy (c : CpuCounters) : Nat := c.user + c.nice + c.system + c.irq + c.softirq + c.steal

def total (c : CpuCounters) : Nat := c.busy + (c.idle + c.iowait)

/-- No counter has decreased. -/
def Le (c c' : CpuCounters) : Prop :=
  c.user ≤ c'.user ∧ c.nice ≤ c'.nice ∧ c.system ≤ c'.system ∧ c.idle ≤ c'.idle
    ∧ c.iowait ≤ c'.iowait ∧ c.irq ≤ c'.irq ∧ c.softirq ≤ c'.softirq ∧ c.steal ≤ c'.steal

instance (c c' : CpuCounters) : Decidable (c.Le c') := inferInstanceAs (Decidable (_ ∧ _))

theorem boot_le (c : CpuCounters) : boot.Le c := by
  simp [boot, Le]

/-- A step is busy for at most the whole of it. -/
theorem delta_le {c c' : CpuCounters} (h : c.Le c') :
    c.busy ≤ c'.busy ∧ c.total ≤ c'.total ∧ c'.busy - c.busy ≤ c'.total - c.total := by
  unfold Le at h
  unfold total busy
  omega

end CpuCounters

/-- The counters of a line; one that is missing is zero. -/
def lineCounters (line : Bytes) : CpuCounters :=
  let v := scanULLs 8 ((line.dropWhile fun b => b == ch ' ' || b == ch '\t').drop 3)
  let at' (i : Nat) : Nat := v.getD i 0
  ⟨at' 0, at' 1, at' 2, at' 3, at' 4, at' 5, at' 6, at' 7⟩

/-- The counters of `/proc/stat`. -/
def statCounters (procStat : Option Bytes) : CpuCounters :=
  (readFirstLine procStat 512).elim .boot lineCounters

/-- The counters of the kernel are the first eight of its text. -/
theorem statCounters_text (k : KernelStat) : statCounters (some k.text)
    = ⟨k.user, k.nice, k.system, k.idle, k.iowait, k.irq, k.softirq, k.steal⟩ := by
  have hdrop : (str "cpu" ++ (ch ' ' :: (KernelStat.countersText k.counters ++ [ch '\n']))).drop 3
      = ch ' ' :: (KernelStat.countersText k.counters ++ [ch '\n']) := rfl
  unfold statCounters
  rw [k.readFirstLine_text, Option.elim_some]
  unfold lineCounters
  rw [k.line_cpu, hdrop, k.scanULLs_line]
  rfl

/-- **A reading is the busy time and the whole time of the counters.** -/
theorem readSample_counters {procStat : Option Bytes} {s : CpuSample}
    (hread : readSample procStat = some s) (hfits : (statCounters procStat).total < 2 ^ 63) :
    s = ⟨(statCounters procStat).busy, (statCounters procStat).total⟩ := by
  obtain ⟨line, hline, hparse⟩ := Option.bind_eq_some_iff.mp hread
  have hcounters : statCounters procStat = lineCounters line := by
    unfold statCounters
    rw [hline]
    rfl
  rw [hcounters] at hfits ⊢
  unfold procParseCpuStat at hparse
  dsimp only at hparse
  split at hparse
  · cases hparse
  split at hparse
  · cases hparse
  split at hparse
  · cases hparse
  rw [← Option.some.inj hparse]
  unfold lineCounters CpuCounters.total CpuCounters.busy at hfits ⊢
  dsimp only at hfits ⊢
  rw [CpuSample.mk.injEq]
  omega

/-! ## One step -/

/-- `proc_cpu_utilization` before it clamps, for the differences of the two readings. -/
def rawUtilization (db dt : Int) : Double :=
  ((Double.ofInt db).div (Double.ofInt dt)).mul (.fin 100)

/-- Its clamp. -/
def clampUtilization (util : Double) : Double :=
  let util := if util.lt (.fin 0) then .fin 0 else util
  if Double.lt (.fin 100) util then .fin 100 else util

theorem procCpuUtilization_eq {busy0 total0 busy1 total1 : Nat}
    (hpos : 0 < totalDelta total0 total1) : procCpuUtilization busy0 total0 busy1 total1
      = clampUtilization (rawUtilization (toInt64 busy1 - toInt64 busy0)
        (totalDelta total0 total1)) := by
  unfold procCpuUtilization
  dsimp only
  rw [if_neg (by omega)]
  rfl

theorem clampUtilization_eq {q : ℚ} (h0 : 0 ≤ q) (h100 : q ≤ 100) :
    clampUtilization (.fin q) = .fin q := by
  have hlow : (Double.fin q).lt (.fin 0) = false := decide_eq_false (not_lt.mpr h0)
  have hhigh : Double.lt (.fin 100) (.fin q) = false := decide_eq_false (not_lt.mpr h100)
  unfold clampUtilization
  simp only [hlow, hhigh, Bool.false_eq_true, if_false]

/-- `proc_cpu_utilization` in exact arithmetic. -/
def exactUtilization (busy0 total0 busy1 total1 : Nat) : ℚ :=
  let dt := totalDelta total0 total1
  let db := toInt64 busy1 - toInt64 busy0
  if dt ≤ 0 then 0
  else
    let util : ℚ := (db : ℚ) / dt * 100
    let util := if util < 0 then 0 else util
    if 100 < util then 100 else util

section

open Double

/-- A quotient of at most one stays within a hundred, through three roundings. -/
theorem rawUtilization_bounds {db dt : Nat} (hle : db ≤ dt) (hpos : 0 < dt) (hdt : dt < 2 ^ 63) :
    ∃ q : ℚ, rawUtilization db dt = .fin q ∧ 0 ≤ q ∧ q ≤ 100 := by
  have hone : rounded ((1 : Nat) : ℚ) = (1 : Nat) := rounded_natCast (by decide)
  have hhundred : rounded ((100 : Nat) : ℚ) = (100 : Nat) := rounded_natCast (by decide)
  push_cast at hone hhundred
  have hdbq : (db : ℚ) ≤ dt := by exact_mod_cast hle
  have hdt1 : (1 : ℚ) ≤ dt := by exact_mod_cast hpos
  have hdtq : (dt : ℚ) ≤ 2 ^ 63 := by exact_mod_cast hdt.le
  have hlarge : (2 : ℚ) ^ 63 ≤ 2 ^ 1000 := pow_le_pow_right₀ (by norm_num) (by norm_num)
  have hsmall : (100 : ℚ) ≤ 2 ^ 1000 := le_trans (by norm_num) hlarge
  have hone1000 : (1 : ℚ) ≤ 2 ^ 1000 := le_trans (by norm_num) hsmall
  have hofb : ofInt db = .fin (rounded db) :=
    round_eq (Nat.cast_nonneg db) (hdbq.trans (hdtq.trans hlarge))
  have hoft : ofInt dt = .fin (rounded dt) := round_eq (Nat.cast_nonneg dt) (hdtq.trans hlarge)
  have hb : rounded (db : ℚ) ≤ rounded dt := rounded_mono (Nat.cast_nonneg db) hdbq
  have ht : 1 ≤ rounded (dt : ℚ) := hone.symm.le.trans (rounded_mono zero_le_one hdt1)
  have hb0 := rounded_nonneg (db : ℚ)
  have hquot0 : 0 ≤ rounded (db : ℚ) / rounded dt := div_nonneg hb0 (by linarith)
  have hquot : rounded (db : ℚ) / rounded dt ≤ 1 := (div_le_one (by linarith)).mpr hb
  have hround : rounded (rounded (db : ℚ) / rounded dt) ≤ 1 := 
    (rounded_mono hquot0 hquot).trans hone.le
  have hround0 := rounded_nonneg (rounded (db : ℚ) / rounded dt)
  have hprod : rounded (rounded (db : ℚ) / rounded dt) * 100 ≤ 100 := by linarith
  refine ⟨rounded (rounded (rounded (db : ℚ) / rounded dt) * 100), ?_, rounded_nonneg _, ?_⟩
  · unfold rawUtilization
    rw [hofb, hoft, fin_div_fin hb0 (by linarith) (hquot.trans hone1000),
      fin_mul_fin hround0 (by norm_num) (hprod.trans hsmall)]
  · exact (rounded_mono (mul_nonneg hround0 (by norm_num)) hprod).trans hhundred.le

end

/-- What a step from one reading to the next is reported as. -/
structure StepReported (a b : CpuCounters) : Prop where
  bounds : ∃ q : ℚ, procCpuUtilization a.busy a.total b.busy b.total = .fin q ∧ 0 ≤ q ∧ q ≤ 100
  /-- Neither comparison of the clamp holds. -/
  unclamped : a.total < b.total →
    procCpuUtilization a.busy a.total b.busy b.total
        = rawUtilization (b.busy - a.busy) (b.total - a.total)
      ∧ (rawUtilization (b.busy - a.busy) (b.total - a.total)).lt (.fin 0) = false
      ∧ Double.lt (.fin 100) (rawUtilization (b.busy - a.busy) (b.total - a.total)) = false
  exactUnclamped : a.total < b.total →
    exactUtilization a.busy a.total b.busy b.total
      = ((b.busy : ℚ) - a.busy) / ((b.total : ℚ) - a.total) * 100
  sameJiffy : a.total = b.total →
    procCpuUtilization a.busy a.total b.busy b.total = .fin 0
      ∧ exactUtilization a.busy a.total b.busy b.total = 0 ∧ a.busy = b.busy

section

variable {a b : CpuCounters}

/-- The differences of two readings. -/
theorem delta_eq (h : a.Le b) (hfits : b.total < 2 ^ 63) :
    ∃ db dt : Nat, toInt64 b.busy - toInt64 a.busy = db ∧ totalDelta a.total b.total = dt
      ∧ (b.busy : Int) - a.busy = db ∧ (b.total : Int) - a.total = dt ∧ db ≤ dt ∧ dt < 2 ^ 63 := by
  obtain ⟨hbusy, htotal, hdelta⟩ := CpuCounters.delta_le h
  have hin : b.busy ≤ b.total := Nat.le_add_right _ _
  refine ⟨b.busy - a.busy, b.total - a.total, ?_, ?_, by omega, by omega, hdelta, by omega⟩
  · rw [toInt64_of_lt (by omega), toInt64_of_lt (by omega)]
    omega
  · unfold totalDelta
    rw [toInt64_of_lt (by omega), toInt64_of_lt (by omega)]
    omega

theorem stepReported (h : a.Le b) (hfits : b.total < 2 ^ 63) : StepReported a b := by
  obtain ⟨db, dt, hdb, hdt, hdb', hdt', hle, hlt⟩ := delta_eq h hfits
  rcases Nat.eq_zero_or_pos dt with rfl | hpos
  · -- no time has passed
    have hnone : procCpuUtilization a.busy a.total b.busy b.total = .fin 0 := by
      unfold procCpuUtilization
      dsimp only
      rw [hdt, if_pos (by omega)]
    have hnone' : exactUtilization a.busy a.total b.busy b.total = 0 := by
      unfold exactUtilization
      dsimp only
      rw [hdt, if_pos (by omega)]
    exact ⟨⟨0, hnone, by norm_num, by norm_num⟩, fun h => by omega, fun h => by omega,
      fun _ => ⟨hnone, hnone', by omega⟩⟩
  · obtain ⟨q, hq, hq0, hq100⟩ := rawUtilization_bounds hle hpos hlt
    have hlow : (Double.fin q).lt (.fin 0) = false := decide_eq_false (not_lt.mpr hq0)
    have hhigh : Double.lt (.fin 100) (.fin q) = false := decide_eq_false (not_lt.mpr hq100)
    have hraw : procCpuUtilization a.busy a.total b.busy b.total = rawUtilization db dt := by
      rw [procCpuUtilization_eq (by omega), hdt, hdb, hq, clampUtilization_eq hq0 hq100]
    have hexact : exactUtilization a.busy a.total b.busy b.total = (db : ℚ) / dt * 100 := by
      have hdtq : (0 : ℚ) < dt := by exact_mod_cast hpos
      have hquot0 : 0 ≤ (db : ℚ) / dt := by positivity
      have hquot : (db : ℚ) / dt ≤ 1 := (div_le_one hdtq).mpr (by exact_mod_cast hle)
      unfold exactUtilization
      dsimp only
      rw [hdt, hdb, if_neg (by omega)]
      push_cast
      rw [if_neg (show ¬ (db : ℚ) / dt * 100 < 0 by linarith),
        if_neg (show ¬ 100 < (db : ℚ) / dt * 100 by linarith)]
    refine ⟨⟨q, hraw.trans hq, hq0, hq100⟩, fun _ => ?_, fun _ => ?_, fun h => by omega⟩
    · rw [hdb', hdt', hraw, hq]
      exact ⟨rfl, hlow, hhigh⟩
    · have hbusy := congrArg (Int.cast : Int → ℚ) hdb'
      have htotal := congrArg (Int.cast : Int → ℚ) hdt'
      push_cast at hbusy htotal
      rw [hexact, hbusy, htotal]

/-- The utilization of a step gives its busy time back. -/
theorem exactUtilization_mul (h : a.Le b) (hfits : b.total < 2 ^ 63) :
    exactUtilization a.busy a.total b.busy b.total * ((b.total : ℚ) - a.total)
      = 100 * ((b.busy : ℚ) - a.busy) := by
  have hstep := stepReported h hfits
  rcases (CpuCounters.delta_le h).2.1.eq_or_lt with heq | hlt
  · obtain ⟨-, hzero, hbusy⟩ := hstep.sameJiffy heq
    rw [hzero, hbusy]
    ring
  · have hpos : (0 : ℚ) < (b.total : ℚ) - a.total := by
      have hcast : (a.total : ℚ) < b.total := by exact_mod_cast hlt
      linarith
    rw [hstep.exactUnclamped hlt]
    field_simp

end

/-! ## A run -/

/-- A call of `read_cpu`: what is in `/proc/stat`, and what the clock says. -/
structure CpuCall where
  procStat : Option Bytes
  now : Int
deriving DecidableEq

/-- The answers to calls that do not overlap. -/
def runCpu : CpuPrev → List CpuCall → List (Option (List Series))
  | _, [] => []
  | prev, c :: cs =>
      let r := readCpu c.procStat c.now prev
      r.1 :: runCpu r.2 cs

/-- The counters of the calls. -/
def callCounters (calls : List CpuCall) : List CpuCounters :=
  calls.map fun c => statCounters c.procStat

/-- Each reading behind the one before it, from `first` on. -/
def cpuSteps (first : CpuCounters) (cs : List CpuCounters) : List (CpuCounters × CpuCounters) :=
  (first :: cs).zip cs

/-- The answer to a call. -/
def stepAnswer (c : CpuCall) (p : CpuCounters × CpuCounters) : Option (List Series) :=
  some [⟨some (str "utilization"),
    [⟨c.now, procCpuUtilization p.1.busy p.1.total p.2.busy p.2.total⟩]⟩]

/-- A run reports the steps between its readings. -/
theorem runCpu_eq : ∀ (calls : List CpuCall) (prev : CpuPrev) (first : CpuCounters),
    prev.base = ⟨first.busy, first.total⟩ →
    (∀ c ∈ calls, (readSample c.procStat).isSome) →
    (∀ c ∈ calls, (statCounters c.procStat).total < 2 ^ 63) →
    runCpu prev calls = List.zipWith stepAnswer calls (cpuSteps first (callCounters calls))
  | [], _, _, _, _, _ => rfl
  | c :: calls, prev, first, hbase, hparse, hfits => by
      obtain ⟨s, hs⟩ := Option.isSome_iff_exists.mp (hparse c List.mem_cons_self)
      have hsample := readSample_counters hs (hfits c List.mem_cons_self)
      -- the reading that is stored is the one the next call is compared with
      have hrest := runCpu_eq calls (commitSample prev s).2 (statCounters c.procStat) (by
          rw [hsample]
          rfl) (fun d hd => hparse d (List.mem_cons_of_mem _ hd))
        (fun d hd => hfits d (List.mem_cons_of_mem _ hd))
      have hanswer : (readCpu c.procStat c.now prev).1 = stepAnswer c (first, statCounters c.procStat)
          ∧ (readCpu c.procStat c.now prev).2 = (commitSample prev s).2 := by
        unfold readCpu
        rw [hs]
        refine ⟨?_, rfl⟩
        unfold stepAnswer commitSample
        dsimp only
        rw [hbase, hsample]
      unfold runCpu
      dsimp only
      rw [hanswer.1, hanswer.2, hrest]
      rfl

/-- The steps are between readings that do not decrease. -/
theorem mem_cpuSteps : ∀ {cs : List CpuCounters} {first : CpuCounters},
    (first :: cs).IsChain CpuCounters.Le → ∀ p ∈ cpuSteps first cs, p.1.Le p.2 ∧ p.2 ∈ cs
  | [], _, _, p, hp => by simp [cpuSteps] at hp
  | c :: cs, first, h, p, hp => by
      rw [List.isChain_cons_cons] at h
      rcases List.mem_cons.mp hp with rfl | hp
      · exact ⟨h.1, List.mem_cons_self⟩
      · obtain ⟨hle, hmem⟩ := mem_cpuSteps h.2 p hp
        exact ⟨hle, List.mem_cons_of_mem _ hmem⟩

/-- The busy times of the steps add up. -/
theorem sum_cpuSteps : ∀ (cs : List CpuCounters) (first : CpuCounters),
    (first :: cs).IsChain CpuCounters.Le → (∀ c ∈ cs, c.total < 2 ^ 63) →
    ((cpuSteps first cs).map fun p => exactUtilization p.1.busy p.1.total p.2.busy p.2.total
        * ((p.2.total : ℚ) - p.1.total)).sum
      = 100 * (((cs.getLast?.getD first).busy : ℚ) - first.busy)
  | [], first, _, _ => by simp [cpuSteps]
  | c :: cs, first, h, hfits => by
      rw [List.isChain_cons_cons] at h
      have hrest := sum_cpuSteps cs c h.2 fun d hd => hfits d (List.mem_cons_of_mem _ hd)
      have hstep := exactUtilization_mul h.1 (hfits c List.mem_cons_self)
      have hsteps : cpuSteps first (c :: cs) = (first, c) :: cpuSteps c cs := rfl
      have hlast : (c :: cs).getLast?.getD first = cs.getLast?.getD c := by
        rw [List.getLast?_cons, Option.getD_some]
      rw [hsteps, List.map_cons, List.sum_cons, hrest, hstep, hlast]
      ring

/-- **No CPU time is lost or counted twice**: in a run of calls whose counters never decrease,
every call reports the step from the reading before it, within bounds and without the clamp, and
the exact utilizations times the whole times add up to the busy time of the last reading. -/
theorem cpu_time_conserved (calls : List CpuCall)
    (hparse : ∀ c ∈ calls, (readSample c.procStat).isSome)
    (hfits : ∀ c ∈ callCounters calls, c.total < 2 ^ 63)
    (hmono : (callCounters calls).IsChain CpuCounters.Le) :
    runCpu {} calls = List.zipWith stepAnswer calls (cpuSteps .boot (callCounters calls))
      ∧ (cpuSteps .boot (callCounters calls)).length = calls.length
      ∧ (∀ p ∈ cpuSteps .boot (callCounters calls), StepReported p.1 p.2)
      ∧ ((cpuSteps .boot (callCounters calls)).map fun p =>
          exactUtilization p.1.busy p.1.total p.2.busy p.2.total
            * ((p.2.total : ℚ) - p.1.total)).sum
        = 100 * (((callCounters calls).getLast?.getD .boot).busy : ℚ) := by
  have hchain : (CpuCounters.boot :: callCounters calls).IsChain CpuCounters.Le := by
    cases hcs : callCounters calls with
    | nil => exact List.isChain_singleton _
    | cons c cs =>
        rw [hcs] at hmono
        exact List.isChain_cons_cons.mpr ⟨CpuCounters.boot_le c, hmono⟩
  refine ⟨?_, ?_, ?_, ?_⟩
  · exact runCpu_eq calls {} .boot rfl hparse fun c hc => hfits _ (List.mem_map_of_mem hc)
  · simp [cpuSteps, callCounters]
  · intro p hp
    obtain ⟨hle, hmem⟩ := mem_cpuSteps hchain p hp
    exact stepReported hle (hfits p.2 hmem)
  · rw [sum_cpuSteps _ _ hchain hfits]
    simp [CpuCounters.boot, CpuCounters.busy]

/-- A run on an old kernel, which shows four counters, and on one that shows ten. -/
def twoCalls : List CpuCall :=
  [⟨some (str "cpu  10 0 5 100\n"), 1700000000⟩,
    ⟨some (str "cpu  20 0 5 190 0 0 0 0 3 0\ncpu0 20 0 5 190\n"), 1700000005⟩]

/-- Both steps, of 15 in 115 and of 10 in 100, are counted. -/
theorem cpu_time_two : ((cpuSteps .boot (callCounters twoCalls)).map fun p =>
    exactUtilization p.1.busy p.1.total p.2.busy p.2.total * ((p.2.total : ℚ) - p.1.total)).sum
      = 100 * 25 := by
  have hcounters : callCounters twoCalls
      = [⟨10, 0, 5, 100, 0, 0, 0, 0⟩, ⟨20, 0, 5, 190, 0, 0, 0, 0⟩] := by decide +kernel
  have hparse : ∀ c ∈ twoCalls, (readSample c.procStat).isSome := by decide +kernel
  obtain ⟨-, -, -, hsum⟩ := cpu_time_conserved twoCalls hparse (by rw [hcounters]; decide)
    (by rw [hcounters]; decide)
  rw [hsum, hcounters]
  norm_num [CpuCounters.busy]

end Svgd.Backend
