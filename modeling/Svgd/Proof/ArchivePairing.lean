import Svgd.Proof.ArchiveScan
import Mathlib.Tactic.Set

/-!
# Archives and their fields

An archive is in the array under its own fields if the `.cf` that commits it is its own,
or reads the same (`elements_right_iff`). The array has twenty elements, so a list of
twenty archives must not store anything behind the last `.cf` (`inBounds_iff`).
-/

namespace Svgd.Backend

open Lib

/-! ## When every archive is paired -/

/-- An archive the source means to keep. -/
def Archive.Kept (baseStep : Nat) (a : Archive) : Prop :=
  0 < a.pdpPerRow * baseStep ∧ a.pdpPerRow * baseStep ≤ 1000000

instance (baseStep : Nat) (a : Archive) : Decidable (a.Kept baseStep) :=
  inferInstanceAs (Decidable (_ ∧ _))

/-- The element of an archive, as it should be. -/
def Archive.own (baseStep : Nat) (a : Archive) : Element :=
  ⟨a.index, a.pdpPerRow, a.pdpPerRow * baseStep, a.cf⟩

/-- The array holds each archive that is kept once, under its own fields, and nothing else. -/
structure PairsFields (baseStep : Nat) (archives : List Archive) (rras : List RraInfo) : Prop where
  each : ∀ a ∈ archives, a.index < 20 → a.Kept baseStep →
    (rras.map RraInfo.element).count (a.own baseStep) = 1
  only : ∀ r ∈ rras, ∃ a ∈ archives, a.index < 20 ∧ a.Kept baseStep ∧ r.element = a.own baseStep

/-- The product of an archive does not fit an `unsigned long`, and what is left of it passes. -/
def Archive.Wraps (baseStep : Nat) (a : Archive) : Prop :=
  ¬a.Kept baseStep ∧ acceptsStep baseStep a.pdpPerRow = true

/-- An archive is paired with its own function, in front of the archives `rest`. -/
structure Archive.Paired (baseStep : Nat) (a : Archive) (rest : List Archive) : Prop where
  /-- A number behind the own `.cf` meets the same text in the next archive. -/
  kept : a.Kept baseStep →
    a.pdpFirst = true ∨ ∃ b ∈ rest.head?, b.ownFirst = false ∧ b.cf = a.cf
  /-- A product that wraps around is overwritten before the next `.cf`. -/
  wraps : a.Wraps baseStep → a.pdpFirst = false ∧ ∀ b ∈ rest.head?, b.ownFirst = true

/-- Every archive of a list is paired. -/
def AllPaired (baseStep : Nat) : List Archive → Prop
  | [] => True
  | a :: rest => a.Paired baseStep rest ∧ AllPaired baseStep rest

section

variable {baseStep : Nat} {a : Archive} {archives rest : List Archive}

theorem toULong_of_kept (h : a.Kept baseStep) :
    toULong (a.pdpPerRow * baseStep : Nat) = a.pdpPerRow * baseStep := by
  unfold toULong
  have hle := h.2
  omega

theorem acceptsStep_of_kept (h : a.Kept baseStep) : acceptsStep baseStep a.pdpPerRow = true := by
  unfold acceptsStep
  rw [toULong_of_kept h]
  obtain ⟨h0, h1⟩ := h
  simp only [bne_iff_ne, Bool.and_eq_true, decide_eq_true_eq]
  omega

theorem nextCf_eq_some {cf : Bytes} :
    nextCf rest = some cf ↔ ∃ b ∈ rest.head?, b.ownFirst = false ∧ b.cf = cf := by
  cases rest with
  | nil => simp [nextCf]
  | cons b rest =>
      unfold nextCf
      cases b.ownFirst <;> simp

theorem nextCf_eq_none : nextCf rest = none ↔ ∀ b ∈ rest.head?, b.ownFirst = true := by
  cases rest with
  | nil => simp [nextCf]
  | cons b rest =>
      unfold nextCf
      cases b.ownFirst <;> simp

/-- An archive is paired if it is read as its own function, or is rightly not read. -/
theorem paired_iff : a.Paired baseStep rest ↔
    (a.Kept baseStep → a.readAs baseStep rest = some a.cf)
      ∧ (¬a.Kept baseStep → a.readAs baseStep rest = none) := by
  have hacc : a.Kept baseStep → a.readAs baseStep rest
      = if a.pdpFirst then some a.cf else nextCf rest := fun h => by
    unfold Archive.readAs
    rw [acceptsStep_of_kept h]
    rfl
  constructor
  · intro h
    constructor
    · intro hk
      rw [hacc hk]
      rcases h.kept hk with hfirst | hnext
      · rw [hfirst]
        rfl
      · cases a.pdpFirst with
        | true => rfl
        | false => exact nextCf_eq_some.mpr hnext
    · intro hk
      unfold Archive.readAs
      cases haccepts : acceptsStep baseStep a.pdpPerRow with
      | false => rfl
      | true =>
          obtain ⟨hfirst, hnext⟩ := h.wraps ⟨hk, haccepts⟩
          rw [hfirst]
          exact nextCf_eq_none.mpr hnext
  · intro h
    obtain ⟨hkept, hother⟩ := h
    constructor
    · intro hk
      have hread := hkept hk
      rw [hacc hk] at hread
      cases hfirst : a.pdpFirst with
      | true => exact .inl rfl
      | false =>
          rw [hfirst] at hread
          exact .inr (nextCf_eq_some.mp hread)
    · intro hw
      obtain ⟨hk, haccepts⟩ := hw
      have hread := hother hk
      unfold Archive.readAs at hread
      rw [haccepts] at hread
      cases hfirst : a.pdpFirst with
      | true =>
          rw [hfirst] at hread
          cases hread
      | false =>
          rw [hfirst] at hread
          exact ⟨rfl, nextCf_eq_none.mp hread⟩

theorem elements_cons : elements baseStep (a :: rest)
    = ((a.readAs baseStep rest).map (a.element baseStep)).toList ++ elements baseStep rest := by
  unfold elements
  rw [readArchives, List.map_append]
  cases a.readAs baseStep rest <;> rfl

/-- An element has the index of an archive in the list. -/
theorem index_of_mem_elements {e : Element} (h : e ∈ elements baseStep archives) :
    ∃ a ∈ archives, e.index = a.index := by
  induction archives with
  | nil => cases h
  | cons a rest ih =>
      rw [elements_cons] at h
      rcases List.mem_append.mp h with h | h
      · rw [Option.mem_toList, Option.map_eq_some_iff] at h
        obtain ⟨cf, _, rfl⟩ := h
        exact ⟨a, by simp, rfl⟩
      · obtain ⟨b, hb, hi⟩ := ih h
        exact ⟨b, by simp [hb], hi⟩

/-- What one archive adds is right if it is paired. -/
theorem head_paired : a.Paired baseStep rest ↔
    (a.Kept baseStep →
      ((a.readAs baseStep rest).map (a.element baseStep)).toList.count (a.own baseStep) = 1)
    ∧ ∀ e ∈ ((a.readAs baseStep rest).map (a.element baseStep)).toList,
        a.Kept baseStep ∧ e = a.own baseStep := by
  have helem : ∀ cf, a.Kept baseStep →
      (a.element baseStep cf = a.own baseStep ↔ cf = a.cf) := fun cf hk => by
    unfold Archive.element Archive.own
    rw [toULong_of_kept hk]
    simp
  rw [paired_iff]
  cases hread : a.readAs baseStep rest with
  | none => by_cases hk : a.Kept baseStep <;> simp [hk]
  | some cf =>
      by_cases hk : a.Kept baseStep
      · have hcf := helem cf hk
        simp only [hk, Option.some.injEq, forall_true_left, not_true_eq_false, false_implies,
          and_true, Option.map_some, Option.toList_some, List.mem_singleton, forall_eq, true_and,
          hcf]
        constructor
        · intro h
          exact ⟨by rw [hcf.mpr h]; simp, h⟩
        · exact fun h => h.2
      · simp [hk]

/-- The elements are right if all archives are paired. -/
theorem elements_right_iff (hnd : (archives.map Archive.index).Nodup) :
    ((∀ a ∈ archives, a.Kept baseStep → (elements baseStep archives).count (a.own baseStep) = 1)
      ∧ ∀ e ∈ elements baseStep archives, ∃ a ∈ archives, a.Kept baseStep ∧ e = a.own baseStep)
    ↔ AllPaired baseStep archives := by
  induction archives with
  | nil => simp [elements, readArchives, AllPaired]
  | cons a rest ih =>
      rw [List.map_cons, List.nodup_cons] at hnd
      obtain ⟨hnot, hnd⟩ := hnd
      have hne : ∀ b ∈ rest, b.index ≠ a.index := fun b hb he =>
        hnot (List.mem_map.mpr ⟨b, hb, he⟩)
      set hd := ((a.readAs baseStep rest).map (a.element baseStep)).toList with hhd
      have hhd_index : ∀ e ∈ hd, e.index = a.index := by
        intro e he
        rw [hhd, Option.mem_toList, Option.map_eq_some_iff] at he
        obtain ⟨cf, _, rfl⟩ := he
        rfl
      -- neither part holds elements of the other
      have hcount : (elements baseStep rest).count (a.own baseStep) = 0 := by
        rw [List.count_eq_zero]
        intro hmem
        obtain ⟨b, hb, hi⟩ := index_of_mem_elements hmem
        have hi' : (a.index : Int) = b.index := hi
        exact hne b hb (by omega)
      have hcount' : ∀ b ∈ rest, hd.count (b.own baseStep) = 0 := by
        intro b hb
        rw [List.count_eq_zero]
        intro hmem
        have hi : (b.index : Int) = a.index := hhd_index _ hmem
        exact hne b hb (by omega)
      show _ ↔ a.Paired baseStep rest ∧ AllPaired baseStep rest
      rw [elements_cons, ← hhd, head_paired, ← hhd, ← ih hnd]
      simp only [List.count_append]
      constructor
      · intro h
        obtain ⟨heach, honly⟩ := h
        refine ⟨⟨?_, ?_⟩, ?_, ?_⟩
        · intro hk
          have := heach a (by simp) hk
          omega
        · intro e he
          obtain ⟨b, hb, hk, rfl⟩ := honly e (by simp [he])
          have hi : (b.index : Int) = a.index := hhd_index _ he
          rcases List.mem_cons.mp hb with rfl | hb
          · exact ⟨hk, rfl⟩
          · exact absurd (by omega) (hne b hb)
        · intro b hb hk
          have := heach b (by simp [hb]) hk
          have := hcount' b hb
          omega
        · intro e he
          obtain ⟨b, hb, hk, rfl⟩ := honly e (by simp [he])
          rcases List.mem_cons.mp hb with rfl | hb
          · exact absurd he (List.count_eq_zero.mp hcount)
          · exact ⟨b, hb, hk, rfl⟩
      · intro h
        obtain ⟨⟨hkept, hhead⟩, heach, honly⟩ := h
        constructor
        · intro b hb hk
          rcases List.mem_cons.mp hb with rfl | hb
          · have := hkept hk
            omega
          · have := heach b hb hk
            have := hcount' b hb
            omega
        · intro e he
          rcases List.mem_append.mp he with he | he
          · exact ⟨a, by simp, hhead e he⟩
          · obtain ⟨b, hb, hk, heq⟩ := honly e he
            exact ⟨b, by simp [hb], hk, heq⟩

theorem mem_indexed : a ∈ indexed archives ↔ a ∈ archives ∧ a.index < 20 := by
  unfold indexed
  rw [List.mem_filter, decide_eq_true_eq]

/-- The array is right if all archives are paired. -/
theorem pairsFields_iff {info : List RrdInfo} (h : ListsArchives archives info)
    (hnd : (archives.map Archive.index).Nodup) :
    PairsFields baseStep archives (readRras info baseStep)
      ↔ AllPaired baseStep (indexed archives) := by
  have helem := readRras_elements h baseStep
  have hnd' : ((indexed archives).map Archive.index).Nodup := hnd.sublist (List.filter_sublist.map _)
  rw [← elements_right_iff hnd', ← helem]
  constructor
  · intro hp
    refine ⟨fun a ha hk => ?_, fun e he => ?_⟩
    · exact hp.each a (mem_indexed.mp ha).1 (mem_indexed.mp ha).2 hk
    · obtain ⟨r, hr, rfl⟩ := List.mem_map.mp he
      obtain ⟨a, ha, hidx, hk, heq⟩ := hp.only r hr
      exact ⟨a, mem_indexed.mpr ⟨ha, hidx⟩, hk, heq⟩
  · intro hp
    refine ⟨fun a ha hidx hk => hp.1 a (mem_indexed.mpr ⟨ha, hidx⟩) hk, fun r hr => ?_⟩
    obtain ⟨a, ha, hk, heq⟩ := hp.2 r.element (List.mem_map_of_mem hr)
    exact ⟨a, (mem_indexed.mp ha).1, (mem_indexed.mp ha).2, hk, heq⟩

end

/-! ## Staying inside the array -/

/-- The keys behind the `.cf`. -/
def Archive.behind (a : Archive) : List ArchiveKey := (a.order.dropWhile (· != .cf)).tail

/-- If the array is full, the last group ends with its `.cf`. -/
def LastRoom (baseStep : Nat) (archives : List Archive) : Prop :=
  archives.length = 20 → (∀ a ∈ archives, a.Kept baseStep) →
    ∀ a ∈ archives.getLast?, a.order.getLast? = some .cf

section

variable {baseStep : Nat} {a : Archive} {archives : List Archive}

theorem length_slot (s : RraScan) : s.slot.filled.length = s.filled.length := by
  simp [RraScan.slot]

theorem length_step_of_ne (hidx : a.index < 20) (s : RraScan) {k : ArchiveKey} (hk : k ≠ .cf) :
    (rraScanStep baseStep s (a.info k)).filled.length = s.filled.length := by
  rw [← length_slot, slot_scanStep hidx, ← length_slot]
  cases k with
  | cf => exact absurd rfl hk
  | rows => rfl
  | pdpPerRow =>
      unfold Slot.step
      by_cases hz : a.pdpPerRow = 0
      · simp only [if_pos hz]
      · simp only [if_neg hz]

theorem length_step_cf (hidx : a.index < 20) (s : RraScan) :
    (rraScanStep baseStep s (a.info .cf)).filled.length ≤ s.filled.length + 1 := by
  rw [← length_slot, slot_scanStep hidx, ← length_slot]
  unfold Slot.step
  dsimp only
  split
  · simp
  · omega

theorem inBounds_info (hidx : a.index < 20) (s : RraScan) (k : ArchiveKey) :
    rraScanStepInBounds baseStep s (a.info k)
      = if a.writes k && decide (20 ≤ s.filled.length) then none
        else some (rraScanStep baseStep s (a.info k)) := by
  unfold rraScanStepInBounds
  rw [writesElement_info hidx]

/-- Keys other than `.cf` leave the number of elements as it is. -/
theorem length_foldl_of_ne (hidx : a.index < 20) {ks : List ArchiveKey} (hks : .cf ∉ ks) :
    ∀ s, ((ks.map a.info).foldl (rraScanStep baseStep) s).filled.length = s.filled.length := by
  induction ks with
  | nil => exact fun _ => rfl
  | cons k ks ih =>
      intro s
      have hk : k ≠ .cf := fun h => hks (by simp [h])
      rw [List.map_cons, List.foldl_cons, ih (fun h => hks (by simp [h])),
        length_step_of_ne hidx s hk]

/-- They fail together if the array is full and one of them is written. -/
theorem foldlM_of_ne (hidx : a.index < 20) {ks : List ArchiveKey} (hks : .cf ∉ ks) : ∀ s,
    (ks.map a.info).foldlM (rraScanStepInBounds baseStep) s
      = if ks.any a.writes && decide (20 ≤ s.filled.length) then none
        else some ((ks.map a.info).foldl (rraScanStep baseStep) s) := by
  induction ks with
  | nil => exact fun _ => rfl
  | cons k ks ih =>
      intro s
      have hk : k ≠ .cf := fun h => hks (by simp [h])
      rw [List.map_cons, List.foldlM_cons, inBounds_info hidx, List.any_cons, List.foldl_cons]
      have ih := ih (fun h => hks (by simp [h])) (rraScanStep baseStep s (a.info k))
      rw [length_step_of_ne hidx s hk] at ih
      cases hw : a.writes k <;> cases hroom : decide (20 ≤ s.filled.length)
      · simpa [hroom] using ih
      · simpa [hroom] using ih
      · simpa [hroom] using ih
      · rfl

theorem order_split (a : Archive) : ∃ u, a.order = u ++ .cf :: a.behind ∧ .cf ∉ u ∧ .cf ∉ a.behind := by
  unfold Archive.behind
  rcases orders a.perm with h | h | h | h | h | h <;> rw [h]
  · exact ⟨[], by decide⟩
  · exact ⟨[], by decide⟩
  · exact ⟨[.rows], by decide⟩
  · exact ⟨[.rows, .pdpPerRow], by decide⟩
  · exact ⟨[.pdpPerRow], by decide⟩
  · exact ⟨[.pdpPerRow, .rows], by decide⟩

/-- A group adds at most one element. -/
theorem length_group (hidx : a.index < 20) (s : RraScan) :
    (a.infos.foldl (rraScanStep baseStep) s).filled.length ≤ s.filled.length + 1 := by
  obtain ⟨u, horder, hu, hbehind⟩ := order_split a
  unfold Archive.infos
  rw [horder, List.map_append, List.map_cons, List.foldl_append, List.foldl_cons,
    length_foldl_of_ne hidx hbehind, ← length_foldl_of_ne hidx hu s]
  exact length_step_cf hidx _

/-- A group leaves the array if it fills the last element and writes on. -/
theorem group_inBounds (hidx : a.index < 20) {s : RraScan} (hs : s.filled.length ≤ 19) :
    a.infos.foldlM (rraScanStepInBounds baseStep) s
      = if a.behind.any a.writes
            && decide (20 ≤ (a.infos.foldl (rraScanStep baseStep) s).filled.length) then none
        else some (a.infos.foldl (rraScanStep baseStep) s) := by
  obtain ⟨u, horder, hu, hbehind⟩ := order_split a
  have hulen : ((u.map a.info).foldl (rraScanStep baseStep) s).filled.length = s.filled.length :=
    length_foldl_of_ne hidx hu s
  have hroom : ∀ s' : RraScan, s'.filled.length = s.filled.length →
      decide (20 ≤ s'.filled.length) = false := fun s' h => by simp; omega
  unfold Archive.infos
  rw [horder, List.map_append, List.map_cons, List.foldlM_append, foldlM_of_ne hidx hu,
    hroom s rfl, Bool.and_false, List.foldl_append, List.foldl_cons]
  simp only [Bool.false_eq_true, if_false, Option.bind_eq_bind, Option.bind_some,
    List.foldlM_cons]
  rw [inBounds_info hidx, hroom _ hulen, Bool.and_false]
  simp only [Bool.false_eq_true, if_false, Option.bind_some]
  rw [foldlM_of_ne hidx hbehind, length_foldl_of_ne hidx hbehind]

/-- The groups leave the array if the last one does. -/
theorem groups_inBounds (hall : ∀ a ∈ archives, a.index < 20) : ∀ s : RraScan,
    s.filled.length + archives.length ≤ 20 →
      archives.foldlM (fun s a => a.infos.foldlM (rraScanStepInBounds baseStep) s) s
        = if archives.getLast?.any (fun a => a.behind.any a.writes) && decide (20 ≤
              (archives.foldl (fun s a => a.infos.foldl (rraScanStep baseStep) s) s).filled.length)
          then none
          else some (archives.foldl (fun s a => a.infos.foldl (rraScanStep baseStep) s) s) := by
  induction archives with
  | nil => exact fun _ _ => rfl
  | cons a rest ih =>
      intro s hlen
      have hidx := hall a (by simp)
      rw [List.length_cons] at hlen
      rw [List.foldlM_cons, group_inBounds hidx (by omega), List.foldl_cons]
      cases rest with
      | nil =>
          rw [List.getLast?_singleton, Option.any_some, List.foldl_nil]
          generalize (a.behind.any a.writes && _) = c
          cases c <;> rfl
      | cons b rest =>
          have hadd : (a.infos.foldl (rraScanStep baseStep) s).filled.length ≤ s.filled.length + 1 :=
            length_group hidx s
          have hroom : decide (20 ≤ (a.infos.foldl (rraScanStep baseStep) s).filled.length) = false := by
            rw [List.length_cons] at hlen
            simp
            omega
          rw [hroom, Bool.and_false]
          simp only [Bool.false_eq_true, if_false, Option.bind_eq_bind, Option.bind_some]
          rw [ih (fun c hc => hall c (by simp [hc])) _ (by omega), List.getLast?_cons_cons]

theorem foldlM_skipped {is : List RrdInfo} (h : ∀ i ∈ is, Skipped i) (s : RraScan) :
    is.foldlM (rraScanStepInBounds baseStep) s = some s := by
  induction is with
  | nil => rfl
  | cons i is ih =>
      rw [List.foldlM_cons]
      unfold rraScanStepInBounds
      rw [writesElement_skip (h i (by simp)), scanStep_skip (h i (by simp))]
      exact ih (fun j hj => h j (by simp [hj]))

theorem foldlM_archiveKeys (info : List RrdInfo) : ∀ s,
    info.foldlM (rraScanStepInBounds baseStep) s
      = (info.filter fun i => isArchiveKey i.key).foldlM (rraScanStepInBounds baseStep) s := by
  induction info with
  | nil => exact fun _ => rfl
  | cons i info ih =>
      intro s
      rw [List.filter_cons]
      cases hkey : isArchiveKey i.key with
      | true =>
          simp only [if_true, List.foldlM_cons, ih]
      | false =>
          have hskip : rraScanStepInBounds baseStep s i = some s := by
            unfold rraScanStepInBounds
            rw [writesElement_skip (.inl hkey), scanStep_skip (.inl hkey)]
            rfl
          simp only [Bool.false_eq_true, if_false, List.foldlM_cons, hskip, Option.bind_eq_bind,
            Option.bind_some, ih]

theorem foldlM_groups (archives : List Archive) : ∀ s,
    (archives.flatMap Archive.infos).foldlM (rraScanStepInBounds baseStep) s
      = (indexed archives).foldlM
          (fun s a => a.infos.foldlM (rraScanStepInBounds baseStep) s) s := by
  induction archives with
  | nil => exact fun _ => rfl
  | cons a archives ih =>
      intro s
      rw [List.flatMap_cons, List.foldlM_append]
      by_cases h : a.index < 20
      · rw [show indexed (a :: archives) = a :: indexed archives from
          List.filter_cons_of_pos (by simpa using h), List.foldlM_cons]
        simp only [ih]
      · rw [show indexed (a :: archives) = indexed archives from
          List.filter_cons_of_neg (by simpa using h), foldlM_skipped (skipped_infos h)]
        exact ih s

/-- There are at most twenty small indices. -/
theorem length_indexed (hnd : (archives.map Archive.index).Nodup) :
    (indexed archives).length ≤ 20 := by
  have hnd' : ((indexed archives).map Archive.index).Nodup := hnd.sublist (List.filter_sublist.map _)
  have hsub : (indexed archives).map Archive.index ⊆ List.range 20 := by
    intro i hi
    obtain ⟨a, ha, rfl⟩ := List.mem_map.mp hi
    exact List.mem_range.mpr (mem_indexed.mp ha).2
  have hle := (List.subperm_of_subset hnd' hsub).length_le
  simpa using hle

/-- The scan stays in the array, or the last archive leaves it. -/
theorem readRrasInBounds_eq {info : List RrdInfo} (h : ListsArchives archives info)
    (hnd : (archives.map Archive.index).Nodup) :
    readRrasInBounds info baseStep
      = if (indexed archives).getLast?.any (fun a => a.behind.any a.writes)
            && decide (20 ≤ (elements baseStep (indexed archives)).length) then none
        else some (readRras info baseStep) := by
  have hidx : ∀ a ∈ indexed archives, a.index < 20 := fun a => index_lt_of_mem_indexed
  have hlen : (readRras info baseStep).length = (elements baseStep (indexed archives)).length := by
    rw [← readRras_elements h, List.length_map]
  rw [← hlen]
  unfold readRrasInBounds readRras
  rw [foldlM_archiveKeys, foldl_archiveKeys, h, foldlM_groups, foldl_groups,
    groups_inBounds hidx _ (by simpa using length_indexed hnd)]
  split <;> rfl

/-- Paired archives fill one element each. -/
theorem length_elements (h : AllPaired baseStep archives) :
    (elements baseStep archives).length = archives.countP (fun a => decide (a.Kept baseStep)) := by
  induction archives with
  | nil => rfl
  | cons a rest ih =>
      obtain ⟨hkept, hother⟩ := paired_iff.mp h.1
      rw [elements_cons, List.length_append, ih h.2, List.countP_cons]
      by_cases hk : a.Kept baseStep
      · rw [hkept hk]
        simp [hk]
        omega
      · rw [hother hk]
        simp [hk]

theorem AllPaired.getLast (h : AllPaired baseStep archives) (ha : a ∈ archives.getLast?) :
    a.Paired baseStep [] := by
  induction archives with
  | nil => cases ha
  | cons b rest ih =>
      cases rest with
      | nil =>
          obtain rfl : b = a := by simpa using ha
          exact h.1
      | cons c rest =>
          rw [List.getLast?_cons_cons] at ha
          exact ih h.2 ha

/-- A key behind the `.cf` of an archive with its number in front. -/
theorem behind_writes (hfirst : a.pdpFirst = true) :
    a.behind.any a.writes = false ↔ a.order.getLast? = some .cf := by
  unfold Archive.pdpFirst at hfirst
  unfold Archive.behind
  rcases orders a.perm with h | h | h | h | h | h <;> rw [h] at hfirst ⊢
  · exact absurd hfirst (by decide)
  · exact absurd hfirst (by decide)
  · exact absurd hfirst (by decide)
  · exact iff_of_true rfl rfl
  · exact iff_of_false Bool.true_eq_false.mp (by decide)
  · exact iff_of_true rfl rfl

/-- The scan of paired archives stays in the array if the last one leaves room. -/
theorem inBounds_iff {info : List RrdInfo} (h : ListsArchives archives info)
    (hnd : (archives.map Archive.index).Nodup) (hp : AllPaired baseStep (indexed archives)) :
    readRrasInBounds info baseStep = some (readRras info baseStep)
      ↔ LastRoom baseStep (indexed archives) := by
  have hcount := length_elements hp
  have hle := length_indexed hnd
  have hcle := List.countP_le_length (p := fun a : Archive => decide (a.Kept baseStep))
    (l := indexed archives)
  have hfull : 20 ≤ (elements baseStep (indexed archives)).length ↔
      (indexed archives).length = 20 ∧ ∀ a ∈ indexed archives, a.Kept baseStep := by
    rw [hcount]
    constructor
    · intro h20
      have heq : (indexed archives).countP (fun a => decide (a.Kept baseStep))
          = (indexed archives).length := by omega
      refine ⟨by omega, fun a ha => ?_⟩
      simpa using List.countP_eq_length.mp heq a ha
    · intro hk
      rw [List.countP_eq_length.mpr (fun a ha => by simpa using hk.2 a ha)]
      omega
  rw [readRrasInBounds_eq h hnd]
  unfold LastRoom
  constructor
  · intro hsome hlen hk a ha
    have hlast := hp.getLast ha
    have hmem : a ∈ indexed archives := List.mem_of_getLast? ha
    have hfirst : a.pdpFirst = true := by
      rcases hlast.kept (hk a hmem) with hf | ⟨b, hb, _⟩
      · exact hf
      · cases hb
    rw [Option.mem_def] at ha
    rw [← behind_writes hfirst]
    by_contra hw
    have hw' : a.behind.any a.writes = true := eq_true_of_ne_false hw
    rw [ha, Option.any_some, hw', decide_eq_true (hfull.mpr ⟨hlen, hk⟩)] at hsome
    cases hsome
  · intro hroom
    by_cases h20 : 20 ≤ (elements baseStep (indexed archives)).length
    · obtain ⟨hlen, hk⟩ := hfull.mp h20
      cases hlast : (indexed archives).getLast? with
      | none => rfl
      | some a =>
          have hmem : a ∈ indexed archives := List.mem_of_getLast? hlast
          have hfirst : a.pdpFirst = true := by
            rcases (hp.getLast hlast).kept (hk a hmem) with hf | ⟨b, hb, _⟩
            · exact hf
            · cases hb
          rw [Option.any_some, (behind_writes hfirst).mpr (hroom hlen hk a hlast)]
          rfl
    · rw [decide_eq_false h20, Bool.and_false]
      rfl

end

/-! ## The main result -/

/-- **The array holds every archive under its own fields, exactly if the list pairs them.**
An archive that is kept has its number in front of its `.cf`, or else the next archive has
the same function and does not overwrite the number; a product that wraps around is
overwritten in time; and twenty kept archives end with a `.cf`. -/
theorem archives_paired_iff {archives : List Archive} {info : List RrdInfo}
    (h : ListsArchives archives info) (hnd : (archives.map Archive.index).Nodup) :
    (readRrasInBounds info (readBaseStep info 15) = some (readRras info (readBaseStep info 15))
        ∧ PairsFields (readBaseStep info 15) archives (readRras info (readBaseStep info 15)))
      ↔ AllPaired (readBaseStep info 15) (indexed archives)
        ∧ LastRoom (readBaseStep info 15) (indexed archives) := by
  rw [pairsFields_iff h hnd, and_comm]
  constructor
  · intro hright
    obtain ⟨hp, hroom⟩ := hright
    exact ⟨hp, (inBounds_iff h hnd hp).mp hroom⟩
  · intro hcond
    obtain ⟨hp, hroom⟩ := hcond
    exact ⟨hp, (inBounds_iff h hnd hp).mpr hroom⟩

/-- A file of two archives of averages, listed in some order of the keys. -/
def twoArchives (order : List ArchiveKey) (h : order.Perm [.cf, .rows, .pdpPerRow]) :
    List Archive :=
  [⟨0, str "AVERAGE", 360, 1, order, h⟩, ⟨1, str "AVERAGE", 1440, 6, order, h⟩]

theorem archives_paired_numberFirst :
    PairsFields 10 (twoArchives [.pdpPerRow, .rows, .cf] (by decide))
      (readRras (infoOf 10 (twoArchives [.pdpPerRow, .rows, .cf] (by decide))) 10) :=
  ((archives_paired_iff
    (listsArchives_infoOf 10 (twoArchives [.pdpPerRow, .rows, .cf] (by decide))) (by decide)).mpr
    ⟨⟨⟨fun _ => .inl (by decide), fun h => absurd (by decide) h.1⟩,
      ⟨fun _ => .inl (by decide), fun h => absurd (by decide) h.1⟩, trivial⟩,
      fun h => absurd h (by decide)⟩).2

/-- librrd lists `.cf` first: the second archive of the file is not in the array. -/
theorem archives_not_paired_cfFirst :
    ListsArchives (twoArchives [.cf, .rows, .pdpPerRow] (by decide))
        (infoOf 10 (twoArchives [.cf, .rows, .pdpPerRow] (by decide)))
      ∧ ((twoArchives [.cf, .rows, .pdpPerRow] (by decide)).map Archive.index).Nodup
      ∧ readBaseStep (infoOf 10 (twoArchives [.cf, .rows, .pdpPerRow] (by decide))) 15 = 10
      ∧ ¬PairsFields 10 (twoArchives [.cf, .rows, .pdpPerRow] (by decide))
        (readRras (infoOf 10 (twoArchives [.cf, .rows, .pdpPerRow] (by decide))) 10) := by
  refine ⟨listsArchives_infoOf 10 _, by decide, by decide, fun h => ?_⟩
  have hcount := h.each ⟨1, str "AVERAGE", 1440, 6, [.cf, .rows, .pdpPerRow], by decide⟩
    (by simp [twoArchives]) (by decide) (by decide)
  exact absurd hcount (by decide +kernel)

end Svgd.Backend
