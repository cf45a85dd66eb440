import Svgd.Backend.Config
import Svgd.Lib.Decimal

/-!
# Live values from `/proc`

`src/proc_source.c`, as far as the CPU goes. `read_cpu` reads the first line of
`/proc/stat`, takes it apart, and only then takes the lock: under the lock it compares
the reading with `g_cpu_prev` and replaces it. The two parts are `readSample` and
`commitSample`; `readCpu` is a call that nothing interrupts. Allocations are taken to
succeed.
-/

namespace Svgd.Backend

open Lib

/-! ## Parsing -/

/-- `fgets(buf, size, f)` at the start of a file. -/
def fgets (size : Nat) (s : Bytes) : Option Bytes :=
  let line := s.take ((s.takeWhile (· != ch '\n')).length + 1)
  if s = [] then none else some (line.take (size - 1))

/-- `read_first_line`, for a file that can be opened or not. -/
def readFirstLine (file : Option Bytes) (size : Nat) : Option Bytes :=
  match file.bind (fgets size) with
  | none => none
  | some got => if cstr got = [] then none else some (cstr got)

/-- The `%llu` of `sscanf`: blanks, a sign, digits; the number is saturated. -/
def scanULL (s : Bytes) : Option (Nat × Bytes) :=
  let t := s.dropWhile isSpace
  let neg := startsWith t (str "-")
  let u := if neg || startsWith t (str "+") then t.drop 1 else t
  let ds := u.takeWhile isDigit
  if ds = [] then none
  else
    let n := natValue ds
    let n := if 2 ^ 64 ≤ n then 2 ^ 64 - 1 else if neg then (2 ^ 64 - n) % 2 ^ 64 else n
    some (n, u.drop ds.length)

/-- The numbers a format of `k` `%llu` reads before the first failure. -/
def scanULLs : Nat → Bytes → List Nat
  | 0, _ => []
  | k + 1, s =>
      match scanULL s with
      | none => []
      | some (n, rest) => n :: scanULLs k rest

/-- A reading: `busy` and `total`. -/
structure CpuSample where
  busy : Nat
  total : Nat
deriving DecidableEq, Repr

/-- `proc_parse_cpu_stat`. -/
def procParseCpuStat (line : Bytes) : Option CpuSample :=
  let p := line.dropWhile fun b => b == ch ' ' || b == ch '\t'
  if startsWith p (str "cpu") = false then none
  else
    let p := p.drop 3
    -- the line of a single core
    if (p.head?.map isDigit).getD false then none
    else
      let v := scanULLs 8 p
      if v.length < 4 then none
      else
        let at' (i : Nat) : Nat := v.getD i 0
        let b := (at' 0 + at' 1 + at' 2 + at' 5 + at' 6 + at' 7) % 2 ^ 64
        let idle := (at' 3 + at' 4) % 2 ^ 64
        some ⟨b, (b + idle) % 2 ^ 64⟩

/-! ## Utilization -/

/-- `dt_ll`, the difference of two totals as signed numbers. -/
def totalDelta (total0 total1 : Nat) : Int := toInt64 total1 - toInt64 total0

/-- `proc_cpu_utilization`. -/
def procCpuUtilization (busy0 total0 busy1 total1 : Nat) : Double :=
  let dt := totalDelta total0 total1
  let db := toInt64 busy1 - toInt64 busy0
  if dt ≤ 0 then .fin 0
  else
    let util := ((Double.ofInt db).div (Double.ofInt dt)).mul (.fin 100)
    let util := if util.lt (.fin 0) then .fin 0 else util
    if Double.lt (.fin 100) util then .fin 100 else util

/-! ## The previous sample -/

/-- `g_cpu_prev`. -/
structure CpuPrev where
  busy : Nat := 0
  total : Nat := 0
  have_ : Bool := false
deriving DecidableEq, Repr

/-- The sample a reading is compared with: none gives the utilization since boot. -/
def CpuPrev.base (prev : CpuPrev) : CpuSample :=
  if prev.have_ then ⟨prev.busy, prev.total⟩ else ⟨0, 0⟩

/-- `read_cpu` before the lock: the first line of `/proc/stat`, taken apart. -/
def readSample (procStat : Option Bytes) : Option CpuSample :=
  (readFirstLine procStat 512).bind procParseCpuStat

/-- `read_cpu` under the lock: the utilization, and what `g_cpu_prev` is afterwards. -/
def commitSample (prev : CpuPrev) (s : CpuSample) : Double × CpuPrev :=
  (procCpuUtilization prev.base.busy prev.base.total s.busy s.total, ⟨s.busy, s.total, true⟩)

/-- `read_cpu`, if no other thread comes in between. -/
def readCpu (procStat : Option Bytes) (now : Int) (prev : CpuPrev) : Option (List Series) × CpuPrev :=
  match readSample procStat with
  | none => (none, prev)
  | some s =>
      let r := commitSample prev s
      (some [⟨some (str "utilization"), [⟨now, r.1⟩]⟩], r.2)

end Svgd.Backend
