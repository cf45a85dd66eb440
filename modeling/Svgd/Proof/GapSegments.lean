import Svgd.Panel.GenerateSvg
import Svgd.Lib.Binary64
import Svgd.Lib.JsExact
import Mathlib.Data.List.SplitBy
import Mathlib.Algebra.Order.BigOperators.Group.List

/-!
# Gaps

A line is broken where two points are more than three mean steps apart. The mean step is the time
range over the mean number of points of a series. No series has more points than the grid has
instants, so three mean steps are at least three times the part `(n - 1) / n` of a step of the
grid, which is two steps or more from three instants on; rounding to doubles does not change that.

The segments are the list split where two neighbours do not belong together.
-/

namespace Svgd.Panel

open Lib Lib.Js

/-! ## Splitting -/

section

variable {α : Type} {r : α → α → Bool} {a b : α}

/-- Two neighbours of a list are neighbours in one of its parts. -/
def SamePart (parts : List (List α)) (pre : List α) (a b : α) (post : List α) : Prop :=
  ∃ before p q after, parts = before ++ (p ++ a :: b :: q) :: after
    ∧ before.flatten ++ p = pre ∧ q ++ after.flatten = post

/-- If nothing that belongs together is split, neighbours that belong together stay together. -/
theorem samePart_of_isChain (hab : r a b = true) : ∀ {parts : List (List α)} {pre post : List α},
    [] ∉ parts →
    parts.IsChain (fun s s' => ∃ hs hs', r (s.getLast hs) (s'.head hs') = false) →
    parts.flatten = pre ++ a :: b :: post → SamePart parts pre a b post
  | [], pre, post, _, _, h => absurd h (by simp)
  | s :: parts, pre, post, hne, hchain, h => by
      have hne' : [] ∉ parts := fun hmem => hne (List.mem_cons_of_mem _ hmem)
      have hlater : ∀ pre', pre = s ++ pre' → parts.flatten = pre' ++ a :: b :: post →
          SamePart (s :: parts) pre a b post := by
        rintro pre' rfl hflat
        obtain ⟨before, p, q, after, rfl, rfl, rfl⟩ :=
          samePart_of_isChain hab hne' hchain.tail hflat
        exact ⟨s :: before, p, q, after, rfl, by simp, rfl⟩
      rw [List.flatten_cons] at h
      rcases List.append_eq_append_iff.mp h with ⟨pre', hpre, hflat⟩ | ⟨c, hs, hc⟩
      · exact hlater pre' hpre hflat
      · match c, hc with
        | [], hc => exact hlater [] (by simpa using hs.symm) (by simpa using hc.symm)
        | [x], hc =>
            -- the neighbours would be the end of one part and the start of the next
            obtain ⟨rfl, hrest⟩ := List.cons.inj hc
            match parts, hne', hchain with
            | [], _, _ => exact absurd hrest (by simp)
            | [] :: _, hne', _ => exact absurd List.mem_cons_self hne'
            | (y :: t) :: parts, _, hchain =>
                rw [List.flatten_cons, List.cons_append] at hrest
                obtain ⟨rfl, -⟩ := List.cons.inj hrest
                rw [List.isChain_cons_cons] at hchain
                obtain ⟨hs', _, hfalse⟩ := hchain.1
                have hlast : s.getLast hs' = a := by simp [hs]
                rw [hlast, List.head_cons, hab] at hfalse
                cases hfalse
        | x :: y :: q, hc =>
            obtain ⟨rfl, hrest⟩ := List.cons.inj hc
            obtain ⟨rfl, hpost⟩ := List.cons.inj hrest
            exact ⟨[], pre, q, parts, by rw [hs]; rfl, rfl, hpost.symm⟩

theorem samePart_splitBy (hab : r a b = true) (pre post : List α) :
    SamePart ((pre ++ a :: b :: post).splitBy r) pre a b post :=
  samePart_of_isChain hab (List.nil_notMem_splitBy _ _) (List.isChain_getLast_head_splitBy _ _)
    (List.flatten_splitBy _ _)

end

section

variable {N : Type} [Num N]

/-- Two points that are no gap apart. -/
def joined (gap : N) (a b : Point N) : Bool := !Num.lt gap (b.timestamp - a.timestamp)

/-- The loop splits what is left behind the segment it is in. -/
theorem segmentsFrom_eq (gap : N) : ∀ (rest : List (Point N)) (segs : List (List (Point N)))
    (cur : List (Point N)) (previous : Point N), cur.getLast? = some previous →
    cur.IsChain (fun a b => joined gap a b = true) →
    segmentsFrom gap segs cur previous rest = segs ++ (cur ++ rest).splitBy (joined gap)
  | [], segs, cur, previous, hlast, hchain => by
      have hne : cur ≠ [] := by
        rintro rfl
        cases hlast
      rw [List.append_nil, List.splitBy_of_isChain hne hchain]
      rfl
  | d :: rest, segs, cur, previous, hlast, hchain => by
      have hne : cur ≠ [] := by
        rintro rfl
        cases hlast
      unfold segmentsFrom
      cases hgap : Num.lt gap (d.timestamp - previous.timestamp) with
      | true =>
          rw [if_pos rfl, segmentsFrom_eq gap rest (segs ++ [cur]) [d] d rfl (List.isChain_singleton d)]
          have hsplit : (cur ++ d :: rest).splitBy (joined gap)
              = cur.splitBy (joined gap) ++ (d :: rest).splitBy (joined gap) := by
            apply List.splitBy_append_cons
            intro x hx
            obtain rfl : previous = x := Option.some.inj (hlast.symm.trans hx)
            unfold joined
            rw [hgap]
            rfl
          rw [hsplit, List.splitBy_of_isChain hne hchain, List.append_assoc]
          rfl
      | false =>
          have hchain' : (cur ++ [d]).IsChain (fun a b => joined gap a b = true) := by
            rw [List.isChain_append]
            refine ⟨hchain, List.isChain_singleton d, ?_⟩
            intro x hx y hy
            obtain rfl : previous = x := Option.some.inj (hlast.symm.trans hx)
            obtain rfl : d = y := by simpa using hy
            unfold joined
            rw [hgap]
            rfl
          rw [if_neg (by decide), segmentsFrom_eq gap rest segs (cur ++ [d]) d (by simp) hchain',
            List.append_assoc]
          rfl

/-- **The segments are the points, split at the gaps.** -/
theorem segments_eq (gap : N) (points : List (Point N)) :
    segments gap points = points.splitBy (joined gap) := by
  cases points with
  | nil => rfl
  | cons d rest =>
      show segmentsFrom gap [] [d] d rest = _
      rw [segmentsFrom_eq gap rest [] [d] d rfl (List.isChain_singleton d)]
      rfl

/-- What gap detection does to a line: nothing is lost, and points that are close stay together. -/
structure LineKept (close : Point N → Point N → Prop) (gap : N) (points : List (Point N)) : Prop where
  flatten : (segments gap points).flatten = points
  together : ∀ pre a b post, points = pre ++ a :: b :: post → close a b →
    SamePart (segments gap points) pre a b post

theorem lineKept {close : Point N → Point N → Prop} {gap : N} (points : List (Point N))
    (hclose : ∀ a b, close a b → joined gap a b = true) : LineKept close gap points := by
  constructor
  · rw [segments_eq]
    exact List.flatten_splitBy _ _
  · intro pre a b post hpoints hab
    rw [segments_eq, hpoints]
    exact samePart_splitBy (hclose a b hab) pre post

/-! ## Series on a grid -/

/-- The rationals as numbers of the script, as far as comparisons go. -/
structure Embeds (emb : ℚ → N) : Prop where
  lt : ∀ p q, Num.lt (emb p) (emb q) = decide (p < q)
  lt_infinity : ∀ p, Num.lt (emb p) Num.infinity = true
  negInfinity_lt : ∀ p, Num.lt Num.negInfinity (emb p) = true

/-- Series sampled on one grid of `n` instants, with samples missing anywhere, but not the first
instant and the last one in all of them. -/
structure Sampled (emb : ℚ → N) (t0 h : ℚ) (n : Nat) (series : List (Series N)) : Prop where
  onGrid : ∀ s ∈ series, ∃ idx : List Nat, idx.Pairwise (· < ·) ∧ (∀ i ∈ idx, i < n)
    ∧ s.data.map (·.timestamp) = idx.map fun i : Nat => emb (t0 + i * h)
  valid : ∀ s ∈ series, ∀ d ∈ s.data, isValid d.value = true
  first : ∃ s ∈ series, ∃ d ∈ s.data, d.timestamp = emb t0
  last : ∃ s ∈ series, ∃ d ∈ s.data, d.timestamp = emb (t0 + (n - 1 : Nat) * h)

/-- Two points at most two steps apart. -/
def Close (emb : ℚ → N) (h : ℚ) (a b : Point N) : Prop :=
  ∃ p q : ℚ, a.timestamp = emb p ∧ b.timestamp = emb q ∧ q - p ≤ 2 * h

/-- The lines of a chart are kept. -/
def LinesKept (emb : ℚ → N) (h : ℚ) (options : PanelOptions N) (series : List (Series N)) : Prop :=
  ∀ s ∈ series, LineKept (Close emb h) (gapThreshold options series) (validData options s)

variable {emb : ℚ → N} {t0 h : ℚ} {n : Nat} {series : List (Series N)} (options : PanelOptions N)

/-- The loop over times that lie between two bounds. -/
theorem foldl_times (hemb : Embeds emb) (isPercentage : Bool) {lo hi : ℚ} :
    ∀ (l : List (Point N)) (e : Extent N) (a b : ℚ), e.minTime = emb a → e.maxTime = emb b →
    lo ≤ a → b ≤ hi → (∀ d ∈ l, ∃ t, d.timestamp = emb t ∧ lo ≤ t ∧ t ≤ hi) →
    ∃ a' b' : ℚ, (l.foldl (Extent.widen isPercentage) e).minTime = emb a'
      ∧ (l.foldl (Extent.widen isPercentage) e).maxTime = emb b'
      ∧ lo ≤ a' ∧ a' ≤ a ∧ b ≤ b' ∧ b' ≤ hi
      ∧ ∀ d ∈ l, ∃ t, d.timestamp = emb t ∧ a' ≤ t ∧ t ≤ b'
  | [], e, a, b, ha, hb, hlo, hhi, _ => ⟨a, b, ha, hb, hlo, le_refl a, le_refl b, hhi, by simp⟩
  | d :: l, e, a, b, ha, hb, hlo, hhi, hl => by
      obtain ⟨t, ht, hlot, hthi⟩ := hl d List.mem_cons_self
      have hmin : (e.widen isPercentage d).minTime = emb (min a t) := by
        show (if Num.lt d.timestamp e.minTime then d.timestamp else e.minTime) = _
        rw [ht, ha, hemb.lt]
        rcases lt_or_ge t a with hlt | hge
        · rw [if_pos (by simpa using hlt), min_eq_right hlt.le]
        · rw [if_neg (by simpa using hge), min_eq_left hge]
      have hmax : (e.widen isPercentage d).maxTime = emb (max b t) := by
        show (if Num.lt e.maxTime d.timestamp then d.timestamp else e.maxTime) = _
        rw [ht, hb, hemb.lt]
        rcases lt_or_ge b t with hlt | hge
        · rw [if_pos (by simpa using hlt), max_eq_right hlt.le]
        · rw [if_neg (by simpa using hge), max_eq_left hge]
      obtain ⟨a', b', ha', hb', hlo', hle, hge, hhi', hrest⟩ :=
        foldl_times hemb isPercentage l _ _ _ hmin hmax (le_min hlo hlot) (max_le hhi hthi)
          fun d hd => hl d (List.mem_cons_of_mem _ hd)
      refine ⟨a', b', ha', hb', hlo', hle.trans (min_le_left _ _), (le_max_left _ _).trans hge, hhi', ?_⟩
      intro d' hd'
      rcases List.mem_cons.mp hd' with rfl | hd'
      · exact ⟨t, ht, hle.trans (min_le_right _ _), (le_max_right _ _).trans hge⟩
      · exact hrest d' hd'

theorem Embeds.injective (hemb : Embeds emb) {p q : ℚ} (heq : emb p = emb q) : p = q := by
  have h1 := hemb.lt p q
  have h2 := hemb.lt q p
  rw [heq, hemb.lt] at h1 h2
  simp only [lt_self_iff_false, decide_false, Bool.false_eq, decide_eq_false_iff_not, not_lt] at h1 h2
  exact le_antisymm h2 h1

/-- The least and the greatest time, if both occur. -/
theorem foldl_times_start (hemb : Embeds emb) (isPercentage : Bool) {lo hi : ℚ}
    {l : List (Point N)} (hl : ∀ d ∈ l, ∃ t, d.timestamp = emb t ∧ lo ≤ t ∧ t ≤ hi)
    (hfirst : ∃ d ∈ l, d.timestamp = emb lo) (hlast : ∃ d ∈ l, d.timestamp = emb hi) :
    (l.foldl (Extent.widen isPercentage) (startExtent isPercentage)).minTime = emb lo
      ∧ (l.foldl (Extent.widen isPercentage) (startExtent isPercentage)).maxTime = emb hi := by
  obtain ⟨d, hd, hlo⟩ := hfirst
  obtain ⟨d', hd', hhi⟩ := hlast
  cases l with
  | nil => cases hd
  | cons c l =>
      obtain ⟨t, ht, hlot, hthi⟩ := hl c List.mem_cons_self
      have hstart : (startExtent isPercentage : Extent N).minTime = Num.infinity
          ∧ (startExtent isPercentage : Extent N).maxTime = Num.negInfinity := by
        cases isPercentage <;> exact ⟨rfl, rfl⟩
      have hmin : ((startExtent isPercentage : Extent N).widen isPercentage c).minTime = emb t := by
        show (if Num.lt c.timestamp (startExtent isPercentage).minTime then c.timestamp else _) = _
        rw [ht, hstart.1, hemb.lt_infinity, if_pos rfl]
      have hmax : ((startExtent isPercentage : Extent N).widen isPercentage c).maxTime = emb t := by
        show (if Num.lt (startExtent isPercentage).maxTime c.timestamp then c.timestamp else _) = _
        rw [ht, hstart.2, hemb.negInfinity_lt, if_pos rfl]
      obtain ⟨a, b, ha, hb, hloa, hat, htb, hbhi, hrest⟩ :=
        foldl_times hemb isPercentage l _ _ _ hmin hmax hlot hthi
          fun d hd => hl d (List.mem_cons_of_mem _ hd)
      have hall : ∀ d ∈ c :: l, ∃ t, d.timestamp = emb t ∧ a ≤ t ∧ t ≤ b := by
        intro d hd
        rcases List.mem_cons.mp hd with rfl | hd
        · exact ⟨t, ht, hat, htb⟩
        · exact hrest d hd
      rw [List.foldl_cons, ha, hb]
      obtain ⟨p, hp, hap, -⟩ := hall d hd
      obtain ⟨q, hq, -, hqb⟩ := hall d' hd'
      have hplo : p = lo := hemb.injective (hp.symm.trans hlo)
      have hqhi : q = hi := hemb.injective (hq.symm.trans hhi)
      rw [le_antisymm (hplo ▸ hap) hloa, le_antisymm hbhi (hqhi ▸ hqb)]
      exact ⟨rfl, rfl⟩

/-- A point on the grid is between its ends. -/
theorem Sampled.between (hs : Sampled emb t0 h n series) (hh : 0 < h) {s : Series N}
    (hmem : s ∈ series) {d : Point N} (hd : d ∈ s.data) :
    ∃ t, d.timestamp = emb t ∧ t0 ≤ t ∧ t ≤ t0 + (n - 1 : Nat) * h := by
  obtain ⟨idx, -, hlt, hmap⟩ := hs.onGrid s hmem
  have htime : d.timestamp ∈ s.data.map (·.timestamp) := List.mem_map_of_mem hd
  rw [hmap] at htime
  obtain ⟨i, hi, ht⟩ := List.mem_map.mp htime
  have hin : (i : ℚ) ≤ (n - 1 : Nat) := by
    have := hlt i hi
    exact_mod_cast (by omega : i ≤ n - 1)
  refine ⟨t0 + i * h, ht.symm, ?_, ?_⟩
  · have := mul_nonneg (Nat.cast_nonneg (α := ℚ) i) hh.le
    linarith
  · have := mul_le_mul_of_nonneg_right hin hh.le
    linarith

/-- All points count for the mean. -/
theorem Sampled.mem_rangeData (hs : Sampled emb t0 h n series) {s : Series N} (hmem : s ∈ series)
    {d : Point N} (hd : d ∈ s.data) :
    ⟨d.timestamp, chartTransform options d.value⟩ ∈ rangeData options series :=
  List.mem_map.mpr ⟨d, List.mem_flatMap.mpr ⟨s, hmem,
    List.mem_filter.mpr ⟨hd, hs.valid s hmem d hd⟩⟩, rfl⟩

/-- **The time range is the length of the grid.** -/
theorem Sampled.timeRange (hemb : Embeds emb) (hs : Sampled emb t0 h n series) (hh : 0 < h) :
    (plot options series).timeRange
      = if Num.eq (emb (t0 + (n - 1 : Nat) * h) - emb t0) (num 0) then num 1
        else emb (t0 + (n - 1 : Nat) * h) - emb t0 := by
  have hbetween : ∀ d ∈ rangeData options series,
      ∃ t, d.timestamp = emb t ∧ t0 ≤ t ∧ t ≤ t0 + (n - 1 : Nat) * h := by
    intro d hd
    obtain ⟨d', hd', rfl⟩ := List.mem_map.mp hd
    obtain ⟨s, hmem, hd'⟩ := List.mem_flatMap.mp hd'
    obtain ⟨t, ht, hlo, hhi⟩ := hs.between hh hmem (List.mem_filter.mp hd').1
    exact ⟨t, ht, hlo, hhi⟩
  obtain ⟨s, hmem, d, hd, hfirst⟩ := hs.first
  obtain ⟨s', hmem', d', hd', hlast⟩ := hs.last
  obtain ⟨hmin, hmax⟩ := foldl_times_start hemb options.isPercentage hbetween
    ⟨_, hs.mem_rangeData options hmem hd, hfirst⟩ ⟨_, hs.mem_rangeData options hmem' hd', hlast⟩
  have hpadded : ∀ e : Extent N, (e.padded options.isPercentage).minTime = e.minTime
      ∧ (e.padded options.isPercentage).maxTime = e.maxTime := by
    intro e
    unfold Extent.padded
    split <;> exact ⟨rfl, rfl⟩
  unfold plot
  dsimp only
  rw [(hpadded _).1, (hpadded _).2, hmin, hmax]

/-- No series has more points than the grid has instants. -/
theorem Sampled.length_le (hs : Sampled emb t0 h n series) :
    0 < (rangeData options series).length
      ∧ (rangeData options series).length ≤ series.length * n := by
  constructor
  · obtain ⟨s, hmem, d, hd, -⟩ := hs.first
    exact List.length_pos_of_mem (hs.mem_rangeData options hmem hd)
  · have hseries : ∀ k ∈ series.map fun s => (s.data.filter fun d => isValid d.value).length, k ≤ n := by
      intro k hk
      obtain ⟨s, hmem, rfl⟩ := List.mem_map.mp hk
      obtain ⟨idx, hinc, hlt, hmap⟩ := hs.onGrid s hmem
      have hsubset : idx ⊆ List.range n := fun i hi => List.mem_range.mpr (hlt i hi)
      have hidx := (List.subperm_of_subset (hinc.imp fun hij => Nat.ne_of_lt hij) hsubset).length_le
      have hlength := congrArg List.length hmap
      rw [List.length_map, List.length_map] at hlength
      rw [List.length_range] at hidx
      have hfilter := List.length_filter_le (fun d : Point N => isValid d.value) s.data
      omega
    have hsum := List.sum_le_card_nsmul _ n hseries
    unfold rangeData collected
    rw [List.length_map, List.length_flatMap]
    rw [List.length_map, nsmul_eq_mul] at hsum
    exact hsum

/-- There is a series. -/
theorem Sampled.length_pos (hs : Sampled emb t0 h n series) : 0 < series.length := by
  obtain ⟨s, hmem, -⟩ := hs.first
  exact List.length_pos_of_mem hmem

end

/-! ## The threshold -/

theorem embeds_exact : Embeds Exact.fin := ⟨Exact.lt_fin, Exact.lt_infinity, Exact.negInfinity_lt⟩

/-- In exact arithmetic the threshold is two steps or more. -/
theorem gapThreshold_exact (options : PanelOptions Exact) {series : List (Series Exact)} {t0 h : ℚ}
    {n : Nat} (hn : 3 ≤ n) (hh : 0 < h) (hs : Sampled Exact.fin t0 h n series) :
    ∃ g : ℚ, gapThreshold options series = .fin g ∧ 2 * h ≤ g := by
  obtain ⟨hpos, hle⟩ := hs.length_le options
  have hm : (0 : ℚ) < (rangeData options series).length := by exact_mod_cast hpos
  have hk : (0 : ℚ) < series.length := by exact_mod_cast hs.length_pos
  have hmean : ((rangeData options series).length : ℚ) / series.length ≤ n := by
    rw [div_le_iff₀ hk, mul_comm]
    exact_mod_cast hle
  have hmean0 : (0 : ℚ) < (rangeData options series).length / series.length := div_pos hm hk
  have hn3 : (3 : ℚ) ≤ n := by exact_mod_cast hn
  have hlength : ((n - 1 : Nat) : ℚ) = n - 1 := by
    rw [Nat.cast_sub (by omega), Nat.cast_one]
  have hrange : (plot options series).timeRange = .fin ((n - 1) * h) := by
    have hne : ((n : ℚ) - 1) * h ≠ 0 := mul_ne_zero (by linarith) hh.ne'
    rw [hs.timeRange options embeds_exact hh, Exact.fin_sub, Exact.num_eq, Exact.eq_fin,
      add_sub_cancel_left, hlength, if_neg (by simpa using hne)]
  refine ⟨(n - 1) * h / ((rangeData options series).length / series.length) * 3, ?_, ?_⟩
  · have hlen : len (rangeData options series) / len series
        = Exact.fin ((rangeData options series).length / series.length) := Exact.fin_div _ hk.ne'
    unfold gapThreshold
    dsimp only
    rw [hrange, hlen, Exact.fin_div _ hmean0.ne', Exact.num_eq, Exact.fin_mul]
  · have hquot : (n - 1) * h / n
        ≤ (n - 1) * h / ((rangeData options series).length / series.length) :=
      div_le_div_of_nonneg_left (mul_nonneg (by linarith) hh.le) hmean0 hmean
    have hgrid : 2 * h ≤ (n - 1) * h / n * 3 := by
      rw [div_mul_eq_mul_div, le_div_iff₀ (by linarith)]
      nlinarith
    linarith

theorem embeds_double : Embeds Double.fin :=
  ⟨fun _ _ => rfl, fun _ => rfl, fun _ => rfl⟩

/-- A difference of doubles, up to the case in which nothing is subtracted. -/
theorem double_sub (p q : ℚ) :
    Double.fin q - Double.fin p = if p = 0 then .fin q else Double.round (q - p) := by
  have hneg : Double.neg (.fin p) = if p = 0 then .negZero else .fin (-p) := rfl
  show Double.add (.fin q) (Double.neg (.fin p)) = _
  rw [hneg]
  split_ifs with hp
  · rfl
  · show Double.round (q + -p) = _
    rw [sub_eq_add_neg]

/-- A difference that is at most a whole number is not above it. -/
theorem not_lt_double_sub {p q g : ℚ} {k : Nat} (hk : k ≤ 2 ^ 53) (hkg : (k : ℚ) ≤ g)
    (hle : q - p ≤ k) : Num.lt (Double.fin g) (Double.fin q - Double.fin p) = false := by
  have hg : 0 ≤ g := (Nat.cast_nonneg k).trans hkg
  rw [double_sub]
  split_ifs with hp
  · exact decide_eq_false (not_lt.mpr (show q ≤ g by linarith))
  rcases lt_or_ge (q - p) 0 with hneg | hnonneg
  · exact Double.not_lt_round hg hneg
  · have hlarge : q - p ≤ 2 ^ 1000 := by
      have h53 : (k : ℚ) ≤ 2 ^ 53 := by exact_mod_cast hk
      exact hle.trans (h53.trans (Double.pow_two_le (by norm_num)))
    rw [Double.round_eq hnonneg hlarge]
    have hround := Double.rounded_mono hnonneg hle
    rw [Double.rounded_natCast hk] at hround
    exact decide_eq_false (not_lt.mpr (show Double.rounded (q - p) ≤ g by linarith))

/-- The length of a grid of whole seconds is exact. -/
theorem timeRange_double (options : PanelOptions Double) {series : List (Series Double)} {t0 : Int}
    {h n : Nat} (hn : 3 ≤ n) (hh : 0 < h) (hs : Sampled Double.fin t0 h n series)
    (hlength : (n - 1) * h ≤ 2 ^ 53) :
    (plot options series).timeRange = .fin ((n - 1) * h : Nat) := by
  have hspan : ((t0 : ℚ) + (n - 1 : Nat) * (h : ℚ)) - t0 = ((n - 1) * h : Nat) := by
    push_cast
    ring
  have hpos : (0 : ℚ) < ((n - 1) * h : Nat) := by
    exact_mod_cast Nat.mul_pos (by omega : 0 < n - 1) hh
  have hdiff : Double.fin ((t0 : ℚ) + (n - 1 : Nat) * (h : ℚ)) - Double.fin (t0 : ℚ)
      = .fin ((n - 1) * h : Nat) := by
    rw [double_sub]
    split_ifs with hzero
    · rw [hzero, sub_zero] at hspan
      rw [hzero, hspan]
    · rw [hspan, Double.round_natCast hlength]
  have hne : Num.eq (Double.fin ((n - 1) * h : Nat)) (num 0) = false := by
    have hzero : (num 0 : Double) = .fin 0 := Double.round_natCast (n := 0) (Nat.zero_le _)
    have hlt : Double.lt (.fin 0) (.fin ((n - 1) * h : Nat)) = true := decide_eq_true hpos
    rw [hzero]
    show (!Double.lt (.fin ((n - 1) * h : Nat)) (.fin 0)
      && !Double.lt (.fin 0) (.fin ((n - 1) * h : Nat))) = false
    rw [hlt, Bool.not_true, Bool.and_false]
  rw [hs.timeRange options embeds_double (by exact_mod_cast hh), hdiff, hne, if_neg (by decide)]

/-- In doubles the threshold is two steps or more as well. -/
theorem gapThreshold_double (options : PanelOptions Double) {series : List (Series Double)}
    {t0 : Int} {h n : Nat} (hn : 3 ≤ n) (hh : 0 < h)
    (hs : Sampled Double.fin t0 h n series) (hlength : (n - 1) * h ≤ 2 ^ 53)
    (hdata : (collected series).length ≤ 2 ^ 53) (hseries : series.length ≤ 2 ^ 53) :
    ∃ g : ℚ, gapThreshold options series = .fin g ∧ (2 * h : ℚ) ≤ g := by
  obtain ⟨hpos, hle⟩ := hs.length_le options
  have hcount : (rangeData options series).length = (collected series).length := by
    rw [rangeData, List.length_map]
  have hk0 := hs.length_pos
  rw [hcount] at hpos hle
  obtain ⟨halow, han⟩ := Double.rounded_mean hpos hk0 hdata hseries hle
  -- the mean number of points of a series
  obtain ⟨a, ha⟩ : ∃ a, Double.rounded (((collected series).length : ℚ) / series.length) = a :=
    ⟨_, rfl⟩
  rw [ha] at halow han
  have ha0 : 0 < a := lt_of_lt_of_le (by positivity) halow
  have hmean : len (rangeData options series) / len series = Double.fin a := by
    have hdata53 : ((collected series).length : ℚ) ≤ 2 ^ 53 := by exact_mod_cast hdata
    show Double.div (Double.round ((rangeData options series).length : ℚ))
      (Double.round (series.length : ℚ)) = _
    rw [hcount, Double.round_natCast hdata, Double.round_natCast hseries,
      Double.fin_div_fin (Nat.cast_nonneg _) (by exact_mod_cast hk0), ha]
    exact (div_le_self (Nat.cast_nonneg _) (by exact_mod_cast hk0)).trans
      (hdata53.trans (Double.pow_two_le (by norm_num)))
  -- the quotient and the product stay far below the largest double
  have hspan : (((n - 1) * h : Nat) : ℚ) ≤ 2 ^ 53 := by exact_mod_cast hlength
  have hquot0 : 0 ≤ (((n - 1) * h : Nat) : ℚ) / a := div_nonneg (Nat.cast_nonneg _) ha0.le
  have hquot : (((n - 1) * h : Nat) : ℚ) / a ≤ 2 ^ 106 := by
    rw [div_le_iff₀ ha0]
    calc (((n - 1) * h : Nat) : ℚ) ≤ 2 ^ 53 := hspan
      _ = 2 ^ 106 * 2 ^ (-53 : Int) := by norm_num
      _ ≤ 2 ^ 106 * a := mul_le_mul_of_nonneg_left halow (by positivity)
  have hround : Double.rounded ((((n - 1) * h : Nat) : ℚ) / a) ≤ 2 ^ 106 :=
    Double.rounded_two_pow (k := 106) ▸ Double.rounded_mono hquot0 hquot
  have hproduct : Double.rounded ((((n - 1) * h : Nat) : ℚ) / a) * 3 ≤ 2 ^ 1000 := by
    calc Double.rounded ((((n - 1) * h : Nat) : ℚ) / a) * 3 ≤ 2 ^ 106 * 3 := by linarith
      _ ≤ 2 ^ 108 := by norm_num
      _ ≤ 2 ^ 1000 := Double.pow_two_le (by norm_num)
  have hthree : (num 3 : Double) = .fin 3 := Double.round_natCast (n := 3) (by norm_num)
  refine ⟨Double.rounded (Double.rounded ((((n - 1) * h : Nat) : ℚ) / a) * 3), ?_,
    Double.le_rounded_step hn hh hlength ha0 han⟩
  unfold gapThreshold
  dsimp only
  rw [timeRange_double options hn hh hs hlength, hmean, hthree]
  show Double.mul (Double.div _ _) _ = _
  rw [Double.fin_div_fin (Nat.cast_nonneg _) ha0 (hquot.trans (Double.pow_two_le (by norm_num))),
    Double.fin_mul_fin (Double.rounded_nonneg _) (by norm_num) hproduct]

/-- **Gap detection neither loses points nor breaks healthy lines**, in exact arithmetic, and in
doubles for whole seconds whose differences a double holds. -/
theorem gap_lines_kept :
    (∀ (options : PanelOptions Exact) (series : List (Series Exact)) (t0 h : ℚ) (n : Nat),
        3 ≤ n → 0 < h → Sampled Exact.fin t0 h n series → LinesKept Exact.fin h options series)
      ∧ ∀ (options : PanelOptions Double) (series : List (Series Double)) (t0 : Int) (h n : Nat),
        3 ≤ n → 0 < h → Sampled Double.fin t0 h n series → (n - 1) * h ≤ 2 ^ 53 →
        (collected series).length ≤ 2 ^ 53 → series.length ≤ 2 ^ 53 →
        LinesKept Double.fin h options series := by
  constructor
  · intro options series t0 h n hn hh hs s _
    obtain ⟨g, hg, hle⟩ := gapThreshold_exact options hn hh hs
    apply lineKept
    rintro a b ⟨p, q, hp, hq, hpq⟩
    unfold joined
    rw [hp, hq, hg, Exact.fin_sub, Exact.lt_fin, decide_eq_false (not_lt.mpr (hpq.trans hle))]
    rfl
  · intro options series t0 h n hn hh hs hlength hdata hseries s _
    obtain ⟨g, hg, hle⟩ := gapThreshold_double options hn hh hs hlength hdata hseries
    have h2 : 2 * h ≤ 2 ^ 53 := Nat.le_trans (Nat.mul_le_mul_right h (by omega)) hlength
    apply lineKept
    rintro a b ⟨p, q, hp, hq, hpq⟩
    unfold joined
    rw [hp, hq, hg, not_lt_double_sub h2 (by push_cast; exact hle) (by push_cast; exact hpq)]
    rfl

/-- Two series of four instants, with three of the eight samples missing. -/
def gappySeries : List (Series Double) :=
  [⟨txt "rx", [⟨.fin 0, .fin 1⟩, ⟨.fin 30, .fin 2⟩]⟩,
    ⟨txt "tx", [⟨.fin 15, .fin 1⟩, ⟨.fin 30, .fin 0⟩, ⟨.fin 45, .fin 1⟩]⟩]

theorem sampled_gappySeries : Sampled Double.fin ((0 : Int) : ℚ) ((15 : Nat) : ℚ) 4 gappySeries := by
  constructor
  · intro s hs
    rcases List.mem_pair.mp hs with rfl | rfl
    · refine ⟨[0, 2], by decide, by decide, ?_⟩
      norm_num
    · refine ⟨[1, 2, 3], by decide, by decide, ?_⟩
      norm_num
  · decide +kernel
  · exact ⟨_, List.mem_cons_self, _, List.mem_cons_self, by norm_num⟩
  · refine ⟨_, List.mem_cons_of_mem _ List.mem_cons_self, ⟨.fin 45, .fin 1⟩, by simp, ?_⟩
    norm_num

/-- The samples of the first series are two steps apart, and stay in one segment. -/
theorem gap_lines_gappy : LineKept (Close Double.fin ((15 : Nat) : ℚ)) (gapThreshold {} gappySeries)
    (validData {} ⟨txt "rx", [⟨.fin 0, .fin 1⟩, ⟨.fin 30, .fin 2⟩]⟩) :=
  gap_lines_kept.2 {} gappySeries 0 15 4 (by decide) (by decide) sampled_gappySeries (by norm_num)
    (by decide +kernel) (by decide +kernel) _ List.mem_cons_self

end Svgd.Panel
