import Svgd.Backend.Proc
import Svgd.Lib.Runs

/-!
# Sampling the CPU from several threads

A thread reads `/proc/stat` before it takes the lock, so the readings of two threads can be
committed in the other order. Then the stored total goes back, and the late reading is
compared with a later one.

The kernel is a record of counters that never decrease; its text is read back exactly
(`readSample_text`). `epoch` and `latest` are on record for the proofs only: the moment
of a reading, and the latest moment of a reading that was committed.
-/

namespace Svgd.Backend

open Lib

/-! ## What the kernel shows -/

/-- The counters of the first line of `/proc/stat`, and the lines behind it. The guest times
are included in `user` and `nice`; the sum fits a signed number. -/
structure KernelStat where
  user : Nat
  nice : Nat
  system : Nat
  idle : Nat
  iowait : Nat
  irq : Nat
  softirq : Nat
  steal : Nat
  guest : Nat
  guestNice : Nat
  others : Bytes
  guest_le : guest ≤ user
  guestNice_le : guestNice ≤ nice
  fits : user + nice + system + irq + softirq + steal + (idle + iowait) < 2 ^ 63

namespace KernelStat

def busy (k : KernelStat) : Nat := k.user + k.nice + k.system + k.irq + k.softirq + k.steal

def total (k : KernelStat) : Nat := k.busy + (k.idle + k.iowait)

/-- The counters in the order of the file. -/
def counters (k : KernelStat) : List Nat :=
  [k.user, k.nice, k.system, k.idle, k.iowait, k.irq, k.softirq, k.steal, k.guest, k.guestNice]

/-- Counters, each behind a blank. -/
def countersText (ns : List Nat) : Bytes := ns.flatMap fun n => ch ' ' :: printNat n

/-- The file: `cpu`, a blank more than needed, the counters, and the other lines. -/
def text (k : KernelStat) : Bytes :=
  str "cpu " ++ (countersText k.counters ++ ch '\n' :: k.others)

/-- No counter has decreased. -/
def Le (k k' : KernelStat) : Prop :=
  k.user ≤ k'.user ∧ k.nice ≤ k'.nice ∧ k.system ≤ k'.system ∧ k.idle ≤ k'.idle
    ∧ k.iowait ≤ k'.iowait ∧ k.irq ≤ k'.irq ∧ k.softirq ≤ k'.softirq ∧ k.steal ≤ k'.steal
    ∧ k.guest ≤ k'.guest ∧ k.guestNice ≤ k'.guestNice

instance (k k' : KernelStat) : Decidable (k.Le k') := inferInstanceAs (Decidable (_ ∧ _))

theorem total_le {k k' : KernelStat} (h : k.Le k') : k.total ≤ k'.total := by
  unfold Le at h
  unfold total busy
  omega

theorem lt_of_mem_counters {k : KernelStat} {n : Nat} (h : n ∈ k.counters) : n < 2 ^ 63 := by
  obtain ⟨user, nice, system, idle, iowait, irq, softirq, steal, guest, guestNice, _, h1, h2, h3⟩ := k
  simp only [counters, List.mem_cons, List.not_mem_nil, or_false] at h
  omega

/-- A counter is read back. -/
theorem scanULL_counter {n : Nat} (hn : n < 2 ^ 64) {s : Bytes}
    (hs : ∀ b ∈ s.head?, isDigit b = false) : scanULL (ch ' ' :: (printNat n ++ s)) = some (n, s) := by
  have hdigits : ∀ b ∈ printNat n, isDigit b = true := fun _ => isDigit_of_mem_printNat
  obtain ⟨d, ds, hd⟩ := List.exists_cons_of_ne_nil (printNat_ne_nil n)
  have hdig : isDigit d = true := hdigits d (by rw [hd]; simp)
  have htake : (printNat n ++ s).takeWhile isDigit = printNat n := (span_token hdigits hs).1
  have hspace : (ch ' ' :: (printNat n ++ s)).dropWhile isSpace = printNat n ++ s := by
    rw [List.dropWhile_cons_of_pos (by decide), hd, List.cons_append,
      List.dropWhile_cons_of_neg (by simp [isSpace_of_isDigit hdig])]
  have hsign : ∀ c, isDigit c = false → startsWith (printNat n ++ s) [c] = false := by
    intro c hc
    rw [hd]
    have hne : c ≠ d := ne_of_class (f := fun b => !isDigit b) (by simp [hc]) (by simp [hdig])
    simp [hne]
  unfold scanULL
  simp only [hspace, show str "-" = [ch '-'] from rfl, show str "+" = [ch '+'] from rfl]
  rw [hsign (ch '-') (by decide), hsign (ch '+') (by decide)]
  simp only [Bool.or_self, Bool.false_eq_true, if_false, htake, if_neg (printNat_ne_nil n),
    natValue_printNat, List.drop_left]
  rw [if_neg (by omega)]

theorem scanULL_space (s : Bytes) : scanULL (ch ' ' :: s) = scanULL s := by
  unfold scanULL
  rw [List.dropWhile_cons_of_pos (by decide)]

theorem countersText_cons (n : Nat) (ns : List Nat) (s : Bytes) :
    countersText (n :: ns) ++ s = ch ' ' :: (printNat n ++ (countersText ns ++ s)) := by
  simp [countersText]

/-- A format reads the counters in their order. -/
theorem scanULLs_counters {s : Bytes} (hs : ∀ b ∈ s.head?, isDigit b = false) :
    ∀ (i : Nat) (ns : List Nat), (∀ n ∈ ns, n < 2 ^ 64) → i ≤ ns.length →
      scanULLs i (countersText ns ++ s) = ns.take i := by
  intro i
  induction i with
  | zero => exact fun _ _ _ => rfl
  | succ i ih =>
      intro ns hns hlen
      cases ns with
      | nil => simp at hlen
      | cons n ns =>
          have hhead : ∀ b ∈ (countersText ns ++ s).head?, isDigit b = false := by
            cases ns with
            | nil => exact hs
            | cons m ns =>
                rw [countersText_cons]
                intro b hb
                obtain rfl : ch ' ' = b := by simpa using hb
                decide
          rw [countersText_cons]
          unfold scanULLs
          rw [scanULL_counter (hns n (by simp)) hhead]
          dsimp only
          rw [ih ns (fun m hm => hns m (by simp [hm])) (by simpa using hlen), List.take_succ_cons]

theorem mem_countersText {ns : List Nat} {b : UInt8} (h : b ∈ countersText ns) :
    b = ch ' ' ∨ isDigit b = true := by
  obtain ⟨n, _, hb⟩ := List.mem_flatMap.mp h
  rcases List.mem_cons.mp hb with rfl | hb
  · exact .inl rfl
  · exact .inr (isDigit_of_mem_printNat hb)

theorem length_countersText {ns : List Nat} (h : ∀ n ∈ ns, n < 2 ^ 63) :
    (countersText ns).length ≤ 20 * ns.length := by
  induction ns with
  | nil => simp [countersText]
  | cons n ns ih =>
      have hn : (printNat n).length ≤ 19 :=
        length_printNat_le (by decide) (Nat.lt_of_lt_of_le (h n (by simp)) (by decide))
      have hns := ih fun m hm => h m (by simp [hm])
      have hcons : countersText (n :: ns) = ch ' ' :: (printNat n ++ countersText ns) := by
        simpa using countersText_cons n ns []
      rw [hcons, List.length_cons, List.length_append, List.length_cons]
      omega

/-- The first line, without its end. -/
def line (k : KernelStat) : Bytes := str "cpu " ++ countersText k.counters

theorem not_mem_line (k : KernelStat) {c : UInt8} (hc : c ∉ str "cpu ") (hdigit : isDigit c = false) :
    c ∉ k.line := by
  intro h
  rcases List.mem_append.mp h with h | h
  · exact hc h
  · rcases mem_countersText h with rfl | hd
    · exact hc (by decide)
    · rw [hdigit] at hd
      cases hd

theorem length_line (k : KernelStat) : k.line.length ≤ 204 := by
  have h : (countersText k.counters).length ≤ 20 * k.counters.length :=
    length_countersText fun n hn => lt_of_mem_counters hn
  have hcount : k.counters.length = 10 := rfl
  have hcpu : (str "cpu ").length = 4 := rfl
  unfold line
  rw [List.length_append]
  omega

/-- The first line is read whole. -/
theorem readFirstLine_text (k : KernelStat) :
    readFirstLine (some k.text) 512 = some (k.line ++ [ch '\n']) := by
  have htext : k.text = k.line ++ ch '\n' :: k.others := by
    unfold text line
    rw [List.append_assoc]
  have hlen := length_line k
  have hne : ∀ b ∈ k.line, (b != ch '\n') = true := by
    intro b hb
    simp only [bne_iff_ne]
    rintro rfl
    exact not_mem_line k (by decide) (by decide) hb
  have htake : k.text.takeWhile (· != ch '\n') = k.line := by
    rw [htext]
    exact takeWhile_token hne (by decide) _
  have hget : fgets 512 k.text = some (k.line ++ [ch '\n']) := by
    have hnil : k.text ≠ [] := by simp [htext]
    have hcut : k.text.take (k.line.length + 1) = k.line ++ [ch '\n'] := by
      rw [htext, List.take_append, List.take_of_length_le (by omega)]
      simp
    unfold fgets
    simp only [if_neg hnil, htake, hcut]
    rw [List.take_of_length_le]
    rw [List.length_append]
    simp
    omega
  have hcstr : cstr (k.line ++ [ch '\n']) = k.line ++ [ch '\n'] := by
    apply cstr_eq_self
    intro h
    rcases List.mem_append.mp h with h | h
    · exact not_mem_line k (by decide) (by decide) h
    · exact absurd h (by decide)
  unfold readFirstLine
  rw [Option.bind_some, hget]
  dsimp only
  rw [hcstr, if_neg (by simp)]

/-- The first line, as the format finds it. -/
theorem line_cpu (k : KernelStat) : (k.line ++ [ch '\n']).dropWhile
      (fun b => b == ch ' ' || b == ch '\t')
      = str "cpu" ++ (ch ' ' :: (countersText k.counters ++ [ch '\n'])) := by
  have hline : k.line ++ [ch '\n']
      = str "cpu" ++ (ch ' ' :: (countersText k.counters ++ [ch '\n'])) := by
    unfold line
    rw [show str "cpu " = str "cpu" ++ [ch ' '] from rfl, List.append_assoc, List.append_assoc]
    rfl
  rw [hline]
  exact List.dropWhile_cons_of_neg (by decide)

/-- The format reads the first eight counters. -/
theorem scanULLs_line (k : KernelStat) :
    scanULLs 8 (ch ' ' :: (countersText k.counters ++ [ch '\n'])) = k.counters.take 8 := by
  have hspace : scanULLs 8 (ch ' ' :: (countersText k.counters ++ [ch '\n']))
      = scanULLs 8 (countersText k.counters ++ [ch '\n']) := by
    conv_lhs => unfold scanULLs
    conv_rhs => unfold scanULLs
    rw [scanULL_space]
  have hend : ∀ b ∈ [ch '\n'].head?, isDigit b = false := by
    intro b hb
    obtain rfl : ch '\n' = b := by simpa using hb
    decide
  rw [hspace]
  have hlen : 8 ≤ k.counters.length := show 8 ≤ 10 by decide
  apply scanULLs_counters hend 8 k.counters _ hlen
  exact fun n hn => Nat.lt_trans (lt_of_mem_counters hn) (by decide)

/-- **A reading is what the kernel counts.** -/
theorem readSample_text (k : KernelStat) : readSample (some k.text) = some ⟨k.busy, k.total⟩ := by
  have hfits := k.fits
  have hstart : startsWith (str "cpu" ++ (ch ' ' :: (countersText k.counters ++ [ch '\n'])))
      (str "cpu") = true := startsWith_append _ _
  have hdrop : (str "cpu" ++ (ch ' ' :: (countersText k.counters ++ [ch '\n']))).drop 3
      = ch ' ' :: (countersText k.counters ++ [ch '\n']) := rfl
  unfold readSample
  rw [readFirstLine_text, Option.bind_some]
  unfold procParseCpuStat
  simp only [k.line_cpu, hstart, hdrop, Bool.true_eq_false, if_false, k.scanULLs_line]
  have hdigit : ((ch ' ' :: (countersText k.counters ++ [ch '\n'])).head?.map isDigit).getD false
      = false := show isDigit (ch ' ') = false by decide
  rw [if_neg (by rw [hdigit]; decide), if_neg (by simp [counters])]
  have hbusy : (k.user + k.nice + k.system + k.irq + k.softirq + k.steal) % 2 ^ 64 = k.busy :=
    Nat.mod_eq_of_lt (by omega)
  have hidle : (k.idle + k.iowait) % 2 ^ 64 = k.idle + k.iowait := Nat.mod_eq_of_lt (by omega)
  have htotal : (k.busy + (k.idle + k.iowait)) % 2 ^ 64 = k.total :=
    Nat.mod_eq_of_lt (by unfold busy; omega)
  show some (CpuSample.mk ((k.user + k.nice + k.system + k.irq + k.softirq + k.steal) % 2 ^ 64)
    (((k.user + k.nice + k.system + k.irq + k.softirq + k.steal) % 2 ^ 64
      + (k.idle + k.iowait) % 2 ^ 64) % 2 ^ 64)) = _
  rw [hbusy, hidle, htotal]

end KernelStat

/-! ## The threads -/

/-- Where a thread stands in `read_cpu`: outside of it, or with a reading and no lock. -/
inductive CpuPhase where
  | idle
  | holding (s : CpuSample) (epoch : Nat)

/-- The kernel, the shared sample, and the threads. -/
structure CpuSystem (W : Type) where
  kernel : KernelStat
  prev : CpuPrev
  phase : W → CpuPhase
  epoch : Nat
  latest : Nat

/-- What can happen. -/
inductive CpuAction (W : Type) where
  | tick (k : KernelStat)
  | read (w : W) (opened : Bool)
  | commit (w : W)

variable {W : Type}

/-- The counters have grown, or stayed. -/
def CpuSystem.grow (s : CpuSystem W) (k : KernelStat) : CpuSystem W :=
  { s with kernel := k, epoch := if s.kernel.total < k.total then s.epoch + 1 else s.epoch }

section

variable [DecidableEq W]

/-- A thread holds a reading. -/
def CpuSystem.hold (s : CpuSystem W) (w : W) (r : CpuSample) : CpuSystem W :=
  { s with phase := Function.update s.phase w (.holding r s.epoch) }

/-- A thread has compared and replaced the stored sample. -/
def CpuSystem.store (s : CpuSystem W) (w : W) (r : CpuSample) (e : Nat) : CpuSystem W :=
  { s with
    prev := (commitSample s.prev r).2
    phase := Function.update s.phase w .idle
    latest := max s.latest e }

/-- One step: the counters grow, a thread reads the file, or it takes the lock and commits. -/
def CpuSystem.step (s : CpuSystem W) : CpuAction W → Option (CpuSystem W)
  | .tick k => if s.kernel.Le k then some (s.grow k) else none
  | .read w opened =>
      match s.phase w with
      | .holding _ _ => none
      | .idle =>
          match readSample (if opened then some s.kernel.text else none) with
          | none => some s
          | some r => some (s.hold w r)
  | .commit w =>
      match s.phase w with
      | .idle => none
      | .holding r e => some (s.store w r e)

end

/-- The state before any thread has read anything. -/
def CpuSystem.start (W : Type) (k : KernelStat) : CpuSystem W := ⟨k, {}, fun _ => .idle, 0, 0⟩

/-- A thread does not commit a reading behind a later one. -/
def InOrder (s : CpuSystem W) (a : CpuAction W) (_ : CpuSystem W) : Prop :=
  ∀ w r e, a = .commit w → s.phase w = .holding r e → s.latest ≤ e

/-- The stored total does not go back, and no reading is compared with a later one. -/
def NeverBack (s : CpuSystem W) (a : CpuAction W) (s' : CpuSystem W) : Prop :=
  s.prev.total ≤ s'.prev.total
    ∧ ∀ w r e, a = .commit w → s.phase w = .holding r e → 0 ≤ totalDelta s.prev.base.total r.total

/-! ## The invariant -/

/-- A total and the moment it was read: the kernel's own, a thread's, or the stored one. -/
inductive Stamp (s : CpuSystem W) : Nat → Nat → Prop where
  | kernel : Stamp s s.epoch s.kernel.total
  | held {w : W} {r : CpuSample} {e : Nat} : s.phase w = .holding r e → Stamp s e r.total
  | stored : s.prev.have_ = true → Stamp s s.latest s.prev.total

/-- The totals are ordered as the moments are. -/
structure CpuInv (s : CpuSystem W) : Prop where
  ordered : ∀ {e t e' t'}, Stamp s e t → Stamp s e' t' → (e ≤ e' ↔ t ≤ t')
  past : ∀ {e t}, Stamp s e t → e ≤ s.epoch
  fresh : s.prev.have_ = false → s.latest = 0 ∧ s.prev.total = 0

theorem cpuInv_start (k : KernelStat) : CpuInv (CpuSystem.start W k) := by
  have hone : ∀ {e t}, Stamp (CpuSystem.start W k) e t → e = 0 ∧ t = k.total := by
    intro e t h
    cases h with
    | kernel => exact ⟨rfl, rfl⟩
    | held h => cases h
    | stored h => cases h
  constructor
  · intro e t e' t' h h'
    obtain ⟨rfl, rfl⟩ := hone h
    obtain ⟨rfl, rfl⟩ := hone h'
    simp
  · intro e t h
    rw [(hone h).1]
    exact Nat.zero_le _
  · exact fun _ => ⟨rfl, rfl⟩

section

variable {s s' : CpuSystem W}

theorem Stamp.total_lt (hs : CpuInv s) {e t : Nat} (h : Stamp s e t) : t < 2 ^ 63 := by
  have hle : t ≤ s.kernel.total := (hs.ordered h .kernel).mp (hs.past h)
  have hfits := s.kernel.fits
  unfold KernelStat.total KernelStat.busy at hle
  omega

/-- Nothing new was read. -/
theorem CpuInv.mono (hs : CpuInv s) (hepoch : s'.epoch = s.epoch)
    (hstamp : ∀ {e t}, Stamp s' e t → Stamp s e t)
    (hfresh : s'.prev.have_ = false → s'.latest = 0 ∧ s'.prev.total = 0) : CpuInv s' := by
  constructor
  · exact fun h h' => hs.ordered (hstamp h) (hstamp h')
  · intro e t h
    rw [hepoch]
    exact hs.past (hstamp h)
  · exact hfresh

/-- The step that grows the counters. -/
theorem CpuInv.grow (hs : CpuInv s) {k : KernelStat} (hle : s.kernel.Le k) : CpuInv (s.grow k) := by
  by_cases hgrow : s.kernel.total < k.total
  · -- only the kernel's own total is new, and it is above all others
    have hepoch : (s.grow k).epoch = s.epoch + 1 := if_pos hgrow
    have hcases : ∀ {e t}, Stamp (s.grow k) e t → (e = s.epoch + 1 ∧ t = k.total) ∨ Stamp s e t := by
      intro e t h
      cases h with
      | kernel => exact .inl ⟨hepoch, rfl⟩
      | held h => exact .inr (.held h)
      | stored h => exact .inr (.stored h)
    have hbelow : ∀ {e t}, Stamp s e t → e ≤ s.epoch ∧ t ≤ s.kernel.total :=
      fun h => ⟨hs.past h, (hs.ordered h .kernel).mp (hs.past h)⟩
    constructor
    · intro e t e' t' h h'
      rcases hcases h with ⟨rfl, rfl⟩ | h <;> rcases hcases h' with ⟨rfl, rfl⟩ | h'
      · simp
      · have hb := hbelow h'
        omega
      · have hb := hbelow h
        omega
      · exact hs.ordered h h'
    · intro e t h
      rw [hepoch]
      rcases hcases h with ⟨rfl, rfl⟩ | h
      · exact Nat.le_refl _
      · exact Nat.le_succ_of_le (hs.past h)
    · exact hs.fresh
  · have hsame : k.total = s.kernel.total := by
      have hmono := KernelStat.total_le hle
      omega
    have hepoch : (s.grow k).epoch = s.epoch := if_neg hgrow
    refine hs.mono hepoch (fun h => ?_) hs.fresh
    cases h with
    | kernel =>
        rw [hepoch]
        exact hsame ▸ .kernel
    | held h => exact .held h
    | stored h => exact .stored h

variable [DecidableEq W]

/-- The step that reads the file. -/
theorem CpuInv.hold (hs : CpuInv s) (w : W) :
    CpuInv (s.hold w ⟨s.kernel.busy, s.kernel.total⟩) := by
  refine hs.mono rfl (fun h => ?_) hs.fresh
  cases h with
  | kernel => exact .kernel
  | @held v r e h =>
      unfold CpuSystem.hold at h
      dsimp only at h
      by_cases hv : v = w
      · subst hv
        rw [Function.update_self] at h
        cases h
        exact .kernel
      · rw [Function.update_of_ne hv] at h
        exact .held h
  | stored h => exact .stored h

/-- The step that commits, in order. -/
theorem CpuInv.store (hs : CpuInv s) {w : W} {r : CpuSample} {e : Nat}
    (hw : s.phase w = .holding r e) (horder : s.latest ≤ e) : CpuInv (s.store w r e) := by
  have hlatest : (s.store w r e).latest = e := Nat.max_eq_right horder
  refine hs.mono rfl (fun h => ?_) (fun h => by cases h)
  cases h with
  | kernel => exact .kernel
  | @held v r' e' h =>
      unfold CpuSystem.store at h
      dsimp only at h
      by_cases hv : v = w
      · subst hv
        rw [Function.update_self] at h
        cases h
      · rw [Function.update_of_ne hv] at h
        exact .held h
  | stored h =>
      rw [hlatest]
      exact .held hw

/-- What a step does. -/
theorem CpuSystem.step_cases {a : CpuAction W} (h : s.step a = some s') :
    (∃ k, a = .tick k ∧ s.kernel.Le k ∧ s' = s.grow k)
    ∨ (∃ w opened, a = .read w opened ∧ (s' = s ∨ s' = s.hold w ⟨s.kernel.busy, s.kernel.total⟩))
    ∨ (∃ w r e, a = .commit w ∧ s.phase w = .holding r e ∧ s' = s.store w r e) := by
  cases a with
  | tick k =>
      unfold CpuSystem.step at h
      dsimp only at h
      by_cases hle : s.kernel.Le k
      · rw [if_pos hle] at h
        exact .inl ⟨k, rfl, hle, (Option.some.inj h).symm⟩
      · rw [if_neg hle] at h
        cases h
  | read w opened =>
      refine .inr (.inl ⟨w, opened, rfl, ?_⟩)
      unfold CpuSystem.step at h
      dsimp only at h
      cases hphase : s.phase w with
      | holding r e => rw [hphase] at h; cases h
      | idle =>
          rw [hphase] at h
          cases opened with
          | false => exact .inl (Option.some.inj h).symm
          | true =>
              simp only [if_true, KernelStat.readSample_text] at h
              exact .inr (Option.some.inj h).symm
  | commit w =>
      unfold CpuSystem.step at h
      dsimp only at h
      cases hphase : s.phase w with
      | idle => rw [hphase] at h; cases h
      | holding r e =>
          rw [hphase] at h
          exact .inr (.inr ⟨w, r, e, rfl, hphase, (Option.some.inj h).symm⟩)

/-- The invariant is kept by steps in order. -/
theorem cpuInv_step {a : CpuAction W} (hs : CpuInv s) (h : s.step a = some s')
    (horder : InOrder s a s') : CpuInv s' := by
  rcases CpuSystem.step_cases h with ⟨k, rfl, hle, rfl⟩ | ⟨w, opened, rfl, rfl | rfl⟩
    | ⟨w, r, e, rfl, hw, rfl⟩
  · exact hs.grow hle
  · exact hs
  · exact hs.hold w
  · exact hs.store hw (horder w r e rfl hw)

theorem toInt64_of_lt {n : Nat} (h : n < 2 ^ 63) : toInt64 n = n := by
  unfold toInt64
  omega

/-- A commit is in order exactly if it does not go back. -/
theorem inOrder_iff {a : CpuAction W} (hs : CpuInv s) (h : s.step a = some s') :
    InOrder s a s' ↔ NeverBack s a s' := by
  rcases CpuSystem.step_cases h with ⟨k, rfl, hle, rfl⟩ | ⟨w, opened, rfl, rfl | rfl⟩
    | ⟨w, r, e, rfl, hw, rfl⟩
  · exact iff_of_true (fun _ _ _ ha => by cases ha) ⟨Nat.le_refl _, fun _ _ _ ha => by cases ha⟩
  · exact iff_of_true (fun _ _ _ ha => by cases ha) ⟨Nat.le_refl _, fun _ _ _ ha => by cases ha⟩
  · exact iff_of_true (fun _ _ _ ha => by cases ha) ⟨Nat.le_refl _, fun _ _ _ ha => by cases ha⟩
  · have hr := toInt64_of_lt ((Stamp.held hw).total_lt hs)
    -- the commit in question is the one of this step
    have hin : InOrder s (.commit w) (s.store w r e) ↔ s.latest ≤ e := by
      constructor
      · exact fun h => h w r e rfl hw
      · intro h v r' e' ha hv
        cases ha
        rw [hw] at hv
        cases hv
        exact h
    have hback : NeverBack s (.commit w) (s.store w r e)
        ↔ s.prev.total ≤ r.total ∧ 0 ≤ totalDelta s.prev.base.total r.total := by
      constructor
      · exact fun h => ⟨h.1, h.2 w r e rfl hw⟩
      · intro h
        refine ⟨h.1, ?_⟩
        intro v r' e' ha hv
        cases ha
        rw [hw] at hv
        cases hv
        exact h.2
    rw [hin, hback]
    unfold CpuPrev.base totalDelta
    rw [hr]
    cases hhave : s.prev.have_ with
    | false =>
        obtain ⟨hlatest, htotal⟩ := hs.fresh hhave
        rw [hlatest, htotal]
        exact iff_of_true (Nat.zero_le _) ⟨Nat.zero_le _, by simp [toInt64]⟩
    | true =>
        rw [hs.ordered (.stored hhave) (.held hw)]
        simp only [if_true]
        rw [toInt64_of_lt ((Stamp.stored hhave).total_lt hs)]
        omega

end

/-- **The stored total never goes back exactly in the runs that commit in order.** -/
theorem cpu_monotone_iff [DecidableEq W] (k : KernelStat) (actions : List (CpuAction W)) :
    Along CpuSystem.step InOrder (CpuSystem.start W k) actions
      ↔ Along CpuSystem.step NeverBack (CpuSystem.start W k) actions :=
  along_iff (fun _ _ _ hs h horder => cpuInv_step hs h horder)
    (fun _ _ _ hs h => inOrder_iff hs h) actions _ (cpuInv_start k)

/-- A kernel that has idled for some time. -/
def idleStat (n : Nat) (h : n < 2 ^ 63) : KernelStat :=
  ⟨0, 0, 0, n, 0, 0, 0, 0, 0, 0, [], Nat.le_refl _, Nat.le_refl _, by omega⟩

/-- One thread reads, another one reads later and commits, then the first one commits. -/
def lateCommit : List (CpuAction Bool) :=
  [.read false true, .tick (idleStat 200 (by decide)), .read true true, .commit true, .commit false]

/-- The first thread stores a total of 100 over one of 200. -/
theorem lateCommit_goes_back : ¬Along CpuSystem.step NeverBack
    (CpuSystem.start Bool (idleStat 100 (by decide))) lateCommit := by
  intro h
  have h := (h _ rfl).2
  have h := (h _ rfl).2
  have h := (h _ rfl).2
  have h := (h _ rfl).2
  obtain ⟨⟨htotal, _⟩, _⟩ := h _ rfl
  exact absurd htotal (by decide)

end Svgd.Backend
