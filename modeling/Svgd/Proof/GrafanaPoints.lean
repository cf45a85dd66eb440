import Svgd.Proof.GrafanaJson
import Svgd.Lib.Rounding

/-!
# The points of a Grafana answer

A value is printed with `%g`, which keeps six digits, and its time in milliseconds with `%lld`.
So a counter that is an integer goes through exactly if what follows its first six digits are
zeros, and any time does that is small enough to be multiplied.
-/

namespace Svgd.Backend

open Lib Stacked

/-- The product with 1000 is a `long long`. -/
def FitsMs (timestamp : Int) : Prop := -2 ^ 63 ≤ timestamp * 1000 ∧ timestamp * 1000 < 2 ^ 63

/-- The text of a point denotes a number and the time in milliseconds, and the milliseconds are
computed without an overflow. -/
def PointKept (p : DataPoint) (v : Nat) : Prop :=
  FitsMs p.timestamp
    ∧ decodeJson (pointBody p) = some (.arr [.num v, .num (p.timestamp * 1000 : Int)])

/-- A point with an integer as its value. -/
theorem pointKept_iff {p : DataPoint} {v : Nat} (hp : p.value = .fin v) :
    PointKept p v ↔ HasSixDigits v ∧ FitsMs p.timestamp := by
  have hfinite : p.value.isFinite = true := by
    rw [hp]
    rfl
  have hvalid : validUtf8 (pointItem p) = true := (utf8Piece_point p).valid.mpr trivial
  have hdecode : decodeJson (pointBody p)
      = some (.arr [.num (gLiteral p.value).value, .num (p.timestamp * 1000 : Int)]) := by
    rw [pointBody_eq hfinite]
    exact (readsAs_point p).decode.mpr ⟨trivial, hvalid⟩
  unfold PointKept
  rw [hdecode, hp, ← gLiteral_natCast_iff, and_comm]
  simp

/-- **The integer points of a query answer**: the answer is the list of the emitted series with
the texts of their points, and a point with an integer value is kept exactly if the value has at
most six digits in front of its last zeros, as long as its milliseconds fit. -/
theorem grafana_points_iff (env : GrafanaEnv) (query : Option Bytes) (st st' : List DukVal)
    (targets : List Bytes) (period : Int)
    (hread : readQuery env query st = some (.ok (targets, period), st')) :
    ∃ r, grafanaQuery env query st = some (r, st')
      ∧ r.data = str "[" ++ commaJoin ((emitted env period 0 targets).map seriesText) ++ str "]"
      ∧ ∀ s ∈ emitted env period 0 targets, ∀ p ∈ s.2, ∀ v : Nat, v < 2 ^ 53 → p.value = .fin v →
          (PointKept p v ↔ HasSixDigits v ∧ FitsMs p.timestamp) := by
  refine ⟨queryResult env targets period, ?_, queryResult_data env targets period, ?_⟩
  · unfold grafanaQuery
    rw [bind_run hread]
    rfl
  · intro s _ p _ v _ hp
    exact pointKept_iff hp

/-- A backend with the metric `cpu`, whose source delivers one point. -/
def pointEnv (p : DataPoint) : GrafanaEnv where
  config := (cpuEnv []).config
  jsonDecode := (cpuEnv []).jsonDecode
  fetch := fun _ m _ _ => some ⟨[⟨none, [p]⟩], none, m⟩

theorem readQuery_pointEnv (p : DataPoint) :
    readQuery (pointEnv p) (some (str "body=" ++ cpuQuery)) []
      = some (.ok ([str "cpu"], 3600), []) :=
  readQuery_cpuEnv []

theorem emitted_pointEnv (p : DataPoint) :
    emitted (pointEnv p) 3600 0 [str "cpu"] = [(str "cpu", [p])] := by
  rfl

/-- A round number of bytes is kept. -/
theorem grafana_point_round :
    PointKept ⟨1700000000, .fin (250000000 : Nat)⟩ 250000000 := by
  obtain ⟨r, -, -, hpoints⟩ := grafana_points_iff
    (pointEnv ⟨1700000000, .fin (250000000 : Nat)⟩) _ _ _ _ _ (readQuery_pointEnv _)
  rw [emitted_pointEnv] at hpoints
  have hpoint := hpoints (str "cpu", [⟨1700000000, .fin (250000000 : Nat)⟩]) (by simp)
    ⟨1700000000, .fin (250000000 : Nat)⟩ (by simp) 250000000 (by norm_num) rfl
  exact hpoint.mpr ⟨⟨25, 7, by norm_num, by norm_num⟩, by norm_num [FitsMs]⟩

/-- A counter of seven digits loses the last one. -/
theorem grafana_point_rounded :
    (∃ r, grafanaQuery (pointEnv ⟨1700000000, .fin (1234567 : Nat)⟩)
        (some (str "body=" ++ cpuQuery)) [] = some (r, [])
      ∧ r.data = str "[\x7b\"target\":\"cpu\",\"datapoints\":[[1.23457e+06,1700000000000]]\x7d]")
    ∧ ¬ PointKept ⟨1700000000, .fin (1234567 : Nat)⟩ 1234567 := by
  refine ⟨⟨queryResult (pointEnv ⟨1700000000, .fin (1234567 : Nat)⟩) [str "cpu"] 3600, ?_, ?_⟩, ?_⟩
  · unfold grafanaQuery
    rw [bind_run (readQuery_pointEnv _)]
    rfl
  · decide +kernel
  · rw [pointKept_iff rfl]
    rintro ⟨⟨m, k, hm, hv⟩, -⟩
    rcases k with _ | k
    · omega
    · -- the last digit is no zero
      have hdvd : 10 ∣ 1234567 := ⟨m * 10 ^ k, by rw [hv]; ring⟩
      exact absurd hdvd (by decide)

end Svgd.Backend
