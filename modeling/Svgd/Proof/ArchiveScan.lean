import Svgd.Backend.Reader

/-!
# Which archives the scan sees

The loop over the info list fills a slot and commits it at the key `.cf`. What is
committed there is the last `.pdp_per_row` so far, so an archive whose keys come in
librrd's order is committed with the next archive's function, or not at all.

The list is taken by groups, one for each archive, with the three keys in any order and
other keys anywhere in between (`ListsArchives`). A group leaves one thing behind for the
next one, an archive that is yet to be committed (`Carries`), and `scan_group` says what a
group adds to the array.
-/

namespace Svgd.Backend

open Lib

/-! ## The keys of an archive -/

/-- The three keys of an archive that the loop reads. -/
inductive ArchiveKey where
  | cf
  | rows
  | pdpPerRow
deriving DecidableEq, Repr

/-- The key as librrd prints it. -/
def ArchiveKey.name : ArchiveKey → Bytes
  | .cf => str "cf"
  | .rows => str "rows"
  | .pdpPerRow => str "pdp_per_row"

/-- `rra[index].name`. -/
def archiveKey (index : Nat) (k : ArchiveKey) : Bytes :=
  str "rra[" ++ (printNat index ++ (str "]." ++ k.name))

/-- An archive of a file, and the order in which its keys are listed. -/
structure Archive where
  index : Nat
  cf : Bytes
  rows : Nat
  pdpPerRow : Nat
  order : List ArchiveKey
  /-- Each key is listed once. -/
  perm : order.Perm [.cf, .rows, .pdpPerRow]

/-- The entry under a key. -/
def Archive.info (a : Archive) : ArchiveKey → RrdInfo
  | .cf => { key := archiveKey a.index .cf, uStr := a.cf }
  | .rows => { key := archiveKey a.index .rows, uCnt := a.rows }
  | .pdpPerRow => { key := archiveKey a.index .pdpPerRow, uCnt := a.pdpPerRow }

@[simp] theorem Archive.info_key (a : Archive) (k : ArchiveKey) :
    (a.info k).key = archiveKey a.index k := by
  cases k <;> rfl

/-- The entries of an archive. -/
def Archive.infos (a : Archive) : List RrdInfo := a.order.map a.info

/-- Whether `.pdp_per_row` is listed before `.cf`. -/
def Archive.pdpFirst (a : Archive) : Bool :=
  decide (a.order.idxOf .pdpPerRow < a.order.idxOf .cf)

/-- The keys of archives among all keys. -/
def isArchiveKey (key : Bytes) : Bool :=
  startsWith key (str "rra[") && ((strstr key (str ".pdp_per_row")).isSome
    || (strstr key (str ".rows")).isSome || (strstr key (str ".cf")).isSome)

/-- An info list holds the keys of the archives by groups; other keys stand anywhere. -/
def ListsArchives (archives : List Archive) (info : List RrdInfo) : Prop :=
  info.filter (fun i => isArchiveKey i.key) = archives.flatMap Archive.infos

/-! ## What the loop makes of one key -/

theorem dot_not_mem_printNat (n : Nat) : ch '.' ∉ printNat n := by
  intro h
  exact absurd (isDigit_of_mem_printNat h) (by decide)

/-- The name of a key is found behind the index. -/
theorem strstr_archiveKey (index : Nat) (k : ArchiveKey) (p : Bytes) :
    strstr (archiveKey index k) (ch '.' :: p) = strstr (str "]." ++ k.name) (ch '.' :: p) := by
  unfold archiveKey
  rw [strstr_skip_head (by decide), strstr_skip_head (dot_not_mem_printNat index)]

theorem strstr_archiveKey_pdp (index : Nat) (k : ArchiveKey) :
    (strstr (archiveKey index k) (str ".pdp_per_row")).isSome = decide (k = .pdpPerRow) := by
  rw [show str ".pdp_per_row" = ch '.' :: str "pdp_per_row" from rfl, strstr_archiveKey]
  cases k <;> decide

theorem strstr_archiveKey_rows (index : Nat) (k : ArchiveKey) :
    (strstr (archiveKey index k) (str ".rows")).isSome = decide (k = .rows) := by
  rw [show str ".rows" = ch '.' :: str "rows" from rfl, strstr_archiveKey]
  cases k <;> decide

theorem strstr_archiveKey_cf (index : Nat) (k : ArchiveKey) :
    (strstr (archiveKey index k) (str ".cf")).isSome = decide (k = .cf) := by
  rw [show str ".cf" = ch '.' :: str "cf" from rfl, strstr_archiveKey]
  cases k <;> decide

theorem isArchiveKey_archiveKey (index : Nat) (k : ArchiveKey) :
    isArchiveKey (archiveKey index k) = true := by
  unfold isArchiveKey
  rw [strstr_archiveKey_pdp, strstr_archiveKey_rows, strstr_archiveKey_cf]
  have hstart : startsWith (archiveKey index k) (str "rra[") = true := startsWith_append _ _
  rw [hstart]
  cases k <;> rfl

/-- The list of a file with its archives. -/
def infoOf (step : Nat) (archives : List Archive) : List RrdInfo :=
  { key := str "step", uCnt := step } :: archives.flatMap Archive.infos

theorem listsArchives_infoOf (step : Nat) (archives : List Archive) :
    ListsArchives archives (infoOf step archives) := by
  have hstep : isArchiveKey (str "step") = false := by decide
  unfold ListsArchives infoOf
  rw [List.filter_cons, if_neg (by rw [hstep]; decide), List.filter_eq_self]
  intro i hi
  obtain ⟨a, _, hi⟩ := List.mem_flatMap.mp hi
  obtain ⟨k, _, rfl⟩ := List.mem_map.mp hi
  rw [Archive.info_key]
  exact isArchiveKey_archiveKey a.index k

theorem printInt_natCast (n : Nat) : printInt n = printNat n := by
  unfold printInt
  rw [if_neg (by omega)]
  rfl

/-- The number in front of a bracket is read back. -/
theorem strtol_printNat (n : Nat) (s : Bytes) :
    strtol (printNat n ++ (ch ']' :: s)) = (saturate64 n, ch ']' :: s) := by
  have hdigits : ∀ b ∈ printNat n, isDigit b = true := fun _ => isDigit_of_mem_printNat
  obtain ⟨d, ds, hd⟩ := List.exists_cons_of_ne_nil (printNat_ne_nil n)
  have hdig : isDigit d = true := hdigits d (by rw [hd]; simp)
  have hval : strtoll (printNat n ++ (ch ']' :: s)) = some (saturate64 n) := by
    rw [← printInt_natCast]
    exact strtoll_printInt n (by simp; decide)
  have hspace : (printNat n ++ (ch ']' :: s)).dropWhile isSpace = printNat n ++ (ch ']' :: s) := by
    rw [hd, List.cons_append, List.dropWhile_cons_of_neg (by simp [isSpace_of_isDigit hdig])]
  have hsign : ∀ c, isDigit c = false → startsWith (printNat n ++ (ch ']' :: s)) [c] = false := by
    intro c hc
    rw [hd]
    have hne : c ≠ d := ne_of_class (f := fun b => !isDigit b) (by simp [hc]) (by simp [hdig])
    simp [hne]
  unfold strtol
  simp only [hval, hspace, show str "-" = [ch '-'] from rfl, show str "+" = [ch '+'] from rfl]
  rw [hsign (ch '-') (by decide), hsign (ch '+') (by decide)]
  simp only [Bool.or_self, Bool.false_eq_true, if_false]
  rw [dropWhile_token hdigits (by decide)]

/-- An archive is seen if its index is small enough. -/
theorem rraIndex_archiveKey (index : Nat) (k : ArchiveKey) :
    rraIndex (archiveKey index k) = if index < 20 then some (index : Int) else none := by
  have hstart : startsWith (archiveKey index k) (str "rra[") = true := startsWith_append _ _
  have hdrop : (archiveKey index k).drop 4 = printNat index ++ (ch ']' :: ch '.' :: k.name) := rfl
  unfold rraIndex
  rw [if_pos hstart, hdrop]
  simp only [strtol_printNat, show str "]" = [ch ']'] from rfl, startsWith_cons_cons,
    startsWith_nil, beq_self_eq_true, Bool.and_self, Bool.true_eq_false, or_false]
  unfold saturate64
  by_cases h : index < 20
  · rw [if_neg (by omega), if_pos h]
    congr 1
    omega
  · rw [if_pos (by omega), if_neg h]

/-! ## What the loop makes of one archive -/

/-- The test of the source on a product. -/
def acceptsStep (baseStep pdpPerRow : Nat) : Bool :=
  toULong (pdpPerRow * baseStep : Nat) != 0 && decide (toULong (pdpPerRow * baseStep : Nat) ≤ 1000000)

/-- An element without its rows, which nothing reads. -/
structure Element where
  index : Int
  pdpPerRow : Nat
  effectiveStep : Nat
  cf : Bytes
deriving DecidableEq, Repr

def RraInfo.element (r : RraInfo) : Element := ⟨r.index, r.pdpPerRow, r.effectiveStep, r.cf⟩

/-- The element that holds an archive under some function. -/
def Archive.element (baseStep : Nat) (a : Archive) (cf : Bytes) : Element :=
  ⟨a.index, a.pdpPerRow, toULong (a.pdpPerRow * baseStep : Nat), cf⟩

/-- The scan as far as the elements depend on it. -/
structure Slot where
  filled : List Element
  pdpPerRow : Nat
  index : Int

def RraScan.slot (s : RraScan) : Slot :=
  ⟨s.filled.map RraInfo.element, s.current.pdpPerRow, s.current.index⟩

/-- One key of an archive. -/
def Slot.step (baseStep : Nat) (a : Archive) (v : Slot) : ArchiveKey → Slot
  | .rows => v
  | .pdpPerRow => if a.pdpPerRow = 0 then v else ⟨v.filled, a.pdpPerRow, a.index⟩
  | .cf =>
      if acceptsStep baseStep v.pdpPerRow then
        ⟨v.filled ++ [⟨v.index, v.pdpPerRow, toULong (v.pdpPerRow * baseStep : Nat), a.cf⟩], 0, 0⟩
      else v

/-- Whether a key writes to the slot. -/
def Archive.writes (a : Archive) : ArchiveKey → Bool
  | .pdpPerRow => a.pdpPerRow != 0
  | _ => true

section

variable {baseStep : Nat} {a : Archive}

theorem acceptsStep_zero : acceptsStep baseStep 0 = false := by
  unfold acceptsStep
  rw [Nat.zero_mul]
  rfl

theorem acceptsStep_eq_false {p : Nat} : acceptsStep baseStep p = false ↔
    toULong (p * baseStep : Nat) = 0 ∨ 1000000 < toULong (p * baseStep : Nat) := by
  unfold acceptsStep
  generalize toULong (p * baseStep : Nat) = n
  simp only [Bool.and_eq_false_iff, bne_eq_false_iff_eq, decide_eq_false_iff_not, Nat.not_le]

theorem ne_zero_of_acceptsStep {p : Nat} (h : acceptsStep baseStep p = true) : p ≠ 0 := by
  rintro rfl
  rw [acceptsStep_zero] at h
  cases h

/-- The loop steps through the slots. -/
theorem slot_scanStep (hidx : a.index < 20) (s : RraScan) (k : ArchiveKey) :
    (rraScanStep baseStep s (a.info k)).slot = s.slot.step baseStep a k := by
  cases k with
  | rows =>
      simp only [rraScanStep, Archive.info_key, rraIndex_archiveKey, if_pos hidx, strstr_archiveKey_pdp,
        strstr_archiveKey_rows, reduceCtorEq, decide_false, decide_true, Bool.false_eq_true,
        if_false, if_true]
      rfl
  | pdpPerRow =>
      simp only [rraScanStep, Archive.info_key, rraIndex_archiveKey, if_pos hidx, strstr_archiveKey_pdp,
        decide_true, if_true]
      by_cases hz : (a.info .pdpPerRow).uCnt = 0
      · rw [if_pos hz]
        exact (if_pos hz).symm
      · rw [if_neg hz]
        exact (if_neg hz).symm
  | cf =>
      simp only [rraScanStep, Archive.info_key, rraIndex_archiveKey, if_pos hidx, strstr_archiveKey_pdp,
        strstr_archiveKey_rows, strstr_archiveKey_cf, reduceCtorEq, decide_false, decide_true,
        Bool.false_eq_true, if_false, if_true]
      show _ = if acceptsStep baseStep s.current.pdpPerRow then _ else _
      cases hacc : acceptsStep baseStep s.current.pdpPerRow with
      | false =>
          rw [if_pos (acceptsStep_eq_false.mp hacc), if_neg (by decide)]
          rfl
      | true =>
          have hne : ¬(toULong (s.current.pdpPerRow * baseStep : Nat) = 0
              ∨ 1000000 < toULong (s.current.pdpPerRow * baseStep : Nat)) := by
            intro h
            rw [acceptsStep_eq_false.mpr h] at hacc
            cases hacc
          rw [if_neg hne, if_pos rfl]
          simp [RraScan.slot, RraInfo.element, Archive.info]

theorem writesElement_info (hidx : a.index < 20) (k : ArchiveKey) :
    writesElement (a.info k) = a.writes k := by
  unfold writesElement
  rw [Archive.info_key, rraIndex_archiveKey, if_pos hidx, strstr_archiveKey_pdp,
    strstr_archiveKey_rows, strstr_archiveKey_cf]
  cases k <;> rfl

/-- A key with an index that is not an archive's has none of the three names. -/
theorem names_of_not_archiveKey {key : Bytes} {i : Int} (hidx : rraIndex key = some i)
    (h : isArchiveKey key = false) : (strstr key (str ".pdp_per_row")).isSome = false
      ∧ (strstr key (str ".rows")).isSome = false ∧ (strstr key (str ".cf")).isSome = false := by
  have hstart : startsWith key (str "rra[") = true := by
    by_contra hs
    unfold rraIndex at hidx
    rw [if_neg hs] at hidx
    cases hidx
  unfold isArchiveKey at h
  simp only [hstart, Bool.true_and, Bool.or_eq_false_iff] at h
  exact ⟨h.1.1, h.1.2, h.2⟩

/-- Whether the loop passes over an entry. -/
def Skipped (info : RrdInfo) : Prop := isArchiveKey info.key = false ∨ rraIndex info.key = none

theorem skipped_cases {info : RrdInfo} (h : Skipped info) :
    rraIndex info.key = none ∨ ((strstr info.key (str ".pdp_per_row")).isSome = false
      ∧ (strstr info.key (str ".rows")).isSome = false
      ∧ (strstr info.key (str ".cf")).isSome = false) := by
  rcases Option.eq_none_or_eq_some (rraIndex info.key) with hidx | ⟨i, hidx⟩
  · exact .inl hidx
  · exact .inr (names_of_not_archiveKey hidx (h.resolve_right (by rw [hidx]; simp)))

theorem scanStep_skip {info : RrdInfo} (h : Skipped info) (s : RraScan) :
    rraScanStep baseStep s info = s := by
  unfold rraScanStep
  rcases skipped_cases h with hidx | ⟨hpdp, hrows, hcf⟩
  · rw [hidx]
  · rw [hpdp, hrows, hcf]
    split <;> rfl

theorem writesElement_skip {info : RrdInfo} (h : Skipped info) : writesElement info = false := by
  unfold writesElement
  rcases skipped_cases h with hidx | ⟨hpdp, hrows, hcf⟩
  · rw [hidx]
  · rw [hpdp, hrows, hcf]
    split <;> rfl

end

/-! ## What a group adds to the array -/

/-- The slot holds an archive that the next `.cf` commits, or nothing that is accepted. -/
def Carries (baseStep : Nat) (v : Slot) : Option Archive → Prop
  | none => acceptsStep baseStep v.pdpPerRow = false
  | some a => v.pdpPerRow = a.pdpPerRow ∧ v.index = a.index
      ∧ acceptsStep baseStep a.pdpPerRow = true

/-- Whether the archive's own number is stored when its `.cf` is read. -/
def Archive.ownFirst (a : Archive) : Bool := a.pdpFirst && a.pdpPerRow != 0

/-- What the `.cf` of an archive commits, if `q` was left in the slot. -/
def Archive.commits (baseStep : Nat) (a : Archive) (q : Option Archive) :
    Option (Archive × Bytes) :=
  if a.ownFirst then if acceptsStep baseStep a.pdpPerRow then some (a, a.cf) else none
  else q.map fun b => (b, a.cf)

/-- What an archive leaves in the slot. -/
def Archive.leaves (baseStep : Nat) (a : Archive) : Option Archive :=
  if !a.pdpFirst && acceptsStep baseStep a.pdpPerRow then some a else none

section

variable {baseStep : Nat} {a : Archive} {v : Slot} {q : Option Archive}

theorem orders {order : List ArchiveKey} (h : order.Perm [.cf, .rows, .pdpPerRow]) :
    order = [.cf, .rows, .pdpPerRow] ∨ order = [.cf, .pdpPerRow, .rows]
      ∨ order = [.rows, .cf, .pdpPerRow] ∨ order = [.rows, .pdpPerRow, .cf]
      ∨ order = [.pdpPerRow, .cf, .rows] ∨ order = [.pdpPerRow, .rows, .cf] := by
  have hlen := h.length_eq
  rcases order with _ | ⟨x, _ | ⟨y, _ | ⟨z, _ | ⟨_, _⟩⟩⟩⟩
  · simp at hlen
  · simp at hlen
  · simp at hlen
  · cases x <;> cases y <;> cases z <;> revert h <;> decide
  · simp at hlen

/-- Only two of the three keys matter, in their order. -/
theorem foldl_order (a : Archive) (v : Slot) : a.order.foldl (Slot.step baseStep a) v
    = if a.pdpFirst then (v.step baseStep a .pdpPerRow).step baseStep a .cf
      else (v.step baseStep a .cf).step baseStep a .pdpPerRow := by
  unfold Archive.pdpFirst
  rcases orders a.perm with h | h | h | h | h | h <;> rw [h] <;> rfl

/-- A `.cf` commits what is in the slot and empties it. -/
theorem step_cf (hv : Carries baseStep v q) :
    (v.step baseStep a .cf).filled
        = v.filled ++ (q.map fun b => b.element baseStep a.cf).toList
      ∧ Carries baseStep (v.step baseStep a .cf) none := by
  unfold Slot.step
  cases q with
  | none =>
      have hacc : acceptsStep baseStep v.pdpPerRow = false := hv
      simp only [hacc, Bool.false_eq_true, if_false]
      exact ⟨by simp, hacc⟩
  | some b =>
      obtain ⟨hp, hi, hacc⟩ := hv
      simp only [hp, hi, hacc, if_true]
      exact ⟨rfl, acceptsStep_zero⟩

/-- The archive's own number in the slot. -/
theorem carries_own {filled : List Element} :
    Carries baseStep ⟨filled, a.pdpPerRow, a.index⟩
      (if acceptsStep baseStep a.pdpPerRow then some a else none) := by
  cases hacc : acceptsStep baseStep a.pdpPerRow with
  | true => exact ⟨rfl, rfl, hacc⟩
  | false => exact hacc

/-- A number that is accepted is carried. -/
theorem step_pdp (hv : Carries baseStep v none) :
    (v.step baseStep a .pdpPerRow).filled = v.filled
      ∧ Carries baseStep (v.step baseStep a .pdpPerRow)
        (if acceptsStep baseStep a.pdpPerRow then some a else none) := by
  by_cases hz : a.pdpPerRow = 0
  · have hstep : v.step baseStep a .pdpPerRow = v := if_pos hz
    rw [hstep, hz, acceptsStep_zero]
    exact ⟨rfl, hv⟩
  · have hstep : v.step baseStep a .pdpPerRow = ⟨v.filled, a.pdpPerRow, a.index⟩ := if_neg hz
    rw [hstep]
    exact ⟨rfl, carries_own⟩

/-- What a group adds to the array, and what it leaves in the slot. -/
theorem scan_group (a : Archive) (hv : Carries baseStep v q) :
    (a.order.foldl (Slot.step baseStep a) v).filled
        = v.filled ++ ((a.commits baseStep q).map fun c => c.1.element baseStep c.2).toList
      ∧ Carries baseStep (a.order.foldl (Slot.step baseStep a) v) (a.leaves baseStep) := by
  rw [foldl_order]
  unfold Archive.commits Archive.leaves Archive.ownFirst
  cases hfirst : a.pdpFirst with
  | false =>
      obtain ⟨hcf, hnone⟩ := step_cf (a := a) hv
      obtain ⟨hpdp, hleft⟩ := step_pdp (a := a) hnone
      refine ⟨?_, hleft⟩
      show ((v.step baseStep a .cf).step baseStep a .pdpPerRow).filled = _
      rw [hpdp, hcf]
      simp only [Bool.false_and, Bool.false_eq_true, if_false, Option.map_map]
      rfl
  | true =>
      show ((v.step baseStep a .pdpPerRow).step baseStep a .cf).filled = _
        ∧ Carries baseStep ((v.step baseStep a .pdpPerRow).step baseStep a .cf) none
      by_cases hz : a.pdpPerRow = 0
      · have hpdp : v.step baseStep a .pdpPerRow = v := if_pos hz
        rw [hpdp]
        obtain ⟨hcf, hnone⟩ := step_cf (a := a) hv
        refine ⟨?_, hnone⟩
        rw [hcf, hz]
        simp only [bne_self_eq_false, Bool.and_false, Bool.false_eq_true, if_false, Option.map_map]
        rfl
      · have hpdp : v.step baseStep a .pdpPerRow = ⟨v.filled, a.pdpPerRow, a.index⟩ := if_neg hz
        -- whatever was carried is overwritten
        have hown : Carries baseStep ⟨v.filled, a.pdpPerRow, a.index⟩
            (if acceptsStep baseStep a.pdpPerRow then some a else none) := carries_own
        obtain ⟨hcf, hnone⟩ := step_cf (a := a) hown
        rw [hpdp]
        refine ⟨?_, hnone⟩
        rw [hcf]
        have hne : (a.pdpPerRow != 0) = true := by simpa using hz
        simp only [hne, Bool.and_self, if_true]
        split <;> rfl

end

/-! ## What the list adds to the array -/

/-- What the archive in the slot is committed as by the next one. -/
def nextCf : List Archive → Option Bytes
  | [] => none
  | a :: _ => if a.ownFirst then none else some a.cf

/-- The function an archive is committed with, if it is. -/
def Archive.readAs (baseStep : Nat) (a : Archive) (rest : List Archive) : Option Bytes :=
  if acceptsStep baseStep a.pdpPerRow then if a.pdpFirst then some a.cf else nextCf rest else none

/-- The archives that are committed, with the function each is committed with. -/
def readArchives (baseStep : Nat) : List Archive → List (Archive × Bytes)
  | [] => []
  | a :: rest => ((a.readAs baseStep rest).map fun cf => (a, cf)).toList ++ readArchives baseStep rest

/-- The elements of the array. -/
def elements (baseStep : Nat) (archives : List Archive) : List Element :=
  (readArchives baseStep archives).map fun c => c.1.element baseStep c.2

section

variable {baseStep : Nat}

/-- A group commits what was left before it, and leaves itself or nothing. -/
theorem commits_leaves (a : Archive) (rest : List Archive) (q : Option Archive) :
    (a.commits baseStep q).toList
        ++ ((a.leaves baseStep).bind fun b => (nextCf rest).map fun cf => (b, cf)).toList
      = (q.bind fun b => (nextCf (a :: rest)).map fun cf => (b, cf)).toList
        ++ ((a.readAs baseStep rest).map fun cf => (a, cf)).toList := by
  unfold Archive.commits Archive.leaves Archive.readAs nextCf
  cases hown : a.ownFirst with
  | true =>
      have hfirst : a.pdpFirst = true := by
        unfold Archive.ownFirst at hown
        simp only [Bool.and_eq_true] at hown
        exact hown.1
      cases hacc : acceptsStep baseStep a.pdpPerRow <;> simp [hfirst, hown]
  | false =>
      cases hacc : acceptsStep baseStep a.pdpPerRow with
      | false => cases q <;> simp [hown]
      | true =>
          have hfirst : a.pdpFirst = false := by
            have hne := ne_zero_of_acceptsStep hacc
            unfold Archive.ownFirst at hown
            simpa [hne] using hown
          cases q <;> cases rest <;> simp [hfirst, hown]

/-- The array after all groups. -/
theorem scan_archives (archives : List Archive) : ∀ (v : Slot) (q : Option Archive),
    Carries baseStep v q →
      (archives.foldl (fun v a => a.order.foldl (Slot.step baseStep a) v) v).filled
        = v.filled ++ ((q.bind fun b => (nextCf archives).map fun cf => (b, cf)).toList
            ++ readArchives baseStep archives).map fun c => c.1.element baseStep c.2 := by
  induction archives with
  | nil =>
      intro v q _
      cases q <;> simp [nextCf, readArchives]
  | cons a rest ih =>
      intro v q hv
      obtain ⟨hfilled, hleft⟩ := scan_group a hv
      rw [List.foldl_cons, ih _ _ hleft, hfilled]
      have hopt : ((a.commits baseStep q).map fun c => c.1.element baseStep c.2).toList
          = (a.commits baseStep q).toList.map fun c => c.1.element baseStep c.2 := by
        cases a.commits baseStep q <;> rfl
      rw [hopt, List.append_assoc, ← List.map_append, ← List.append_assoc, commits_leaves,
        List.append_assoc]
      rfl

theorem slot_infos {a : Archive} (hidx : a.index < 20) (s : RraScan) :
    (a.infos.foldl (rraScanStep baseStep) s).slot = a.order.foldl (Slot.step baseStep a) s.slot := by
  unfold Archive.infos
  rw [List.foldl_map]
  exact (List.foldl_hom RraScan.slot (fun s k => (slot_scanStep hidx s k).symm)).symm

/-- The archives whose index is small enough. -/
def indexed (archives : List Archive) : List Archive := archives.filter fun a => decide (a.index < 20)

/-- An archive with a large index is passed over. -/
theorem skipped_infos {a : Archive} (h : ¬a.index < 20) : ∀ i ∈ a.infos, Skipped i := by
  intro i hi
  obtain ⟨k, _, rfl⟩ := List.mem_map.mp hi
  exact .inr (by rw [Archive.info_key, rraIndex_archiveKey, if_neg h])

theorem foldl_skipped {is : List RrdInfo} (h : ∀ i ∈ is, Skipped i) (s : RraScan) :
    is.foldl (rraScanStep baseStep) s = s := by
  induction is generalizing s with
  | nil => rfl
  | cons i is ih =>
      rw [List.foldl_cons, scanStep_skip (h i (by simp))]
      exact ih (fun j hj => h j (by simp [hj])) s

theorem foldl_archiveKeys (info : List RrdInfo) : ∀ s, info.foldl (rraScanStep baseStep) s
    = (info.filter fun i => isArchiveKey i.key).foldl (rraScanStep baseStep) s := by
  induction info with
  | nil => exact fun _ => rfl
  | cons i info ih =>
      intro s
      cases hkey : isArchiveKey i.key with
      | true =>
          rw [List.filter_cons, if_pos hkey, List.foldl_cons, List.foldl_cons, ih]
      | false =>
          rw [List.filter_cons, if_neg (by simp [hkey]), List.foldl_cons,
            scanStep_skip (.inl hkey), ih]

theorem foldl_groups (archives : List Archive) : ∀ s,
    (archives.flatMap Archive.infos).foldl (rraScanStep baseStep) s
      = (indexed archives).foldl (fun s a => a.infos.foldl (rraScanStep baseStep) s) s := by
  induction archives with
  | nil => exact fun _ => rfl
  | cons a archives ih =>
      intro s
      rw [List.flatMap_cons, List.foldl_append, ih]
      by_cases h : a.index < 20
      · rw [show indexed (a :: archives) = a :: indexed archives from
          List.filter_cons_of_pos (by simpa using h)]
        rfl
      · rw [show indexed (a :: archives) = indexed archives from
          List.filter_cons_of_neg (by simpa using h), foldl_skipped (skipped_infos h)]

theorem index_lt_of_mem_indexed {archives : List Archive} {a : Archive}
    (h : a ∈ indexed archives) : a.index < 20 := by
  simpa using (List.mem_filter.mp h).2

theorem slot_groups (baseStep : Nat) {archives : List Archive}
    (h : ∀ a ∈ archives, a.index < 20) : ∀ s : RraScan, (archives.foldl (fun s (a : Archive) => a.infos.foldl (rraScanStep baseStep) s) s).slot
      = archives.foldl (fun v a => a.order.foldl (Slot.step baseStep a) v) s.slot := by
  induction archives with
  | nil => exact fun _ => rfl
  | cons a archives ih =>
      intro s
      rw [List.foldl_cons, List.foldl_cons, ih (fun b hb => h b (by simp [hb])),
        slot_infos (h a (by simp))]

/-- **The array holds the archives that are committed.** -/
theorem readRras_elements {archives : List Archive} {info : List RrdInfo}
    (h : ListsArchives archives info) (baseStep : Nat) :
    (readRras info baseStep).map RraInfo.element = elements baseStep (indexed archives) := by
  have hidx : ∀ a ∈ indexed archives, a.index < 20 := fun a => index_lt_of_mem_indexed
  have hempty : Carries baseStep (RraScan.slot {}) none := acceptsStep_zero
  have hslot := slot_groups baseStep hidx {}
  have hrun := scan_archives (indexed archives) (RraScan.slot {}) none hempty
  unfold readRras
  rw [foldl_archiveKeys, h, foldl_groups]
  show (RraScan.slot _).filled = _
  rw [hslot, hrun]
  rfl

end

end Svgd.Backend
