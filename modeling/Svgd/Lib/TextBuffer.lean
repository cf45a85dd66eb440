import Svgd.Lib.CString
import Mathlib.Algebra.Ring.Nat
import Mathlib.Tactic.Common

/-!
# A buffer that `snprintf` fills

The memory of an allocation, its size, and the offset of the next piece. A call to
`snprintf` writes what fits and a terminator, but returns the length of the whole piece; so
a piece that is cut moves the offset behind the terminator, and what is written after that
is no longer part of the string. `Holds` is a buffer in which nothing was cut so far, `Cut`
one in which something was, and a buffer never leaves `Cut` again.

The last part is about a buffer that is doubled as soon as less than a reserve is left.
-/

namespace Lib

/-- The memory, `size` bytes of it allocated, and the offset of the next piece. -/
structure TextBuffer where
  mem : Nat → UInt8
  size : Nat
  offset : Nat

namespace TextBuffer

/-- What `snprintf(json + pos, room, ...)` leaves of a piece, with the terminator. -/
def written (room : Nat) (piece : Bytes) : Bytes := Lib.snprintf room piece ++ [0]

/-- The memory after bytes have been written. -/
def store (mem : Nat → UInt8) (pos : Nat) (bytes : Bytes) (i : Nat) : UInt8 :=
  if i < pos then mem i else bytes.getD (i - pos) (mem i)

/-- `offset += snprintf(json + offset, size - offset, ...)`. Without room for the terminator
there is no such call: `size - offset` is zero or wraps. -/
def snprintf (b : TextBuffer) (piece : Bytes) : Option TextBuffer :=
  if b.offset < b.size then
    some { b with
      mem := store b.mem b.offset (written (b.size - b.offset) piece)
      offset := b.offset + piece.length }
  else none

/-- `dest[j++] = c`; there is no such element behind the end. -/
def put (b : TextBuffer) (c : UInt8) : Option TextBuffer :=
  if b.offset < b.size then some { b with mem := store b.mem b.offset [c], offset := b.offset + 1 }
  else none

/-- `dest[j] = 0`. -/
def terminate (b : TextBuffer) : Option TextBuffer :=
  if b.offset < b.size then some { b with mem := store b.mem b.offset [0] } else none

/-- `realloc` to another size. -/
def resize (b : TextBuffer) (size : Nat) : TextBuffer := { b with size }

@[simp] theorem resize_size (b : TextBuffer) (size : Nat) : (b.resize size).size = size := rfl

@[simp] theorem resize_offset (b : TextBuffer) (size : Nat) : (b.resize size).offset = b.offset :=
  rfl

/-- The string in the buffer. -/
def text (b : TextBuffer) : Bytes := cstr ((List.range b.size).map b.mem)

/-- The pieces so far are in the memory. -/
structure Holds (b : TextBuffer) (t : Bytes) : Prop where
  offset : b.offset = t.length
  fits : t.length < b.size
  bytes : ∀ i (h : i < t.length), b.mem i = t[i]

/-- There is a terminator in front of the offset. -/
def Cut (b : TextBuffer) : Prop := ∃ i, i < b.offset ∧ i < b.size ∧ b.mem i = 0

variable {b b' : TextBuffer} {t piece : Bytes}

theorem snprintf_some (h : b.snprintf piece = some b') :
    b.offset < b.size ∧ b'.size = b.size ∧ b'.offset = b.offset + piece.length
      ∧ b'.mem = store b.mem b.offset (written (b.size - b.offset) piece) := by
  unfold snprintf at h
  by_cases hlt : b.offset < b.size
  · rw [if_pos hlt] at h
    obtain rfl := Option.some.inj h
    exact ⟨hlt, rfl, rfl, rfl⟩
  · rw [if_neg hlt] at h
    cases h

theorem store_below {mem : Nat → UInt8} {pos i : Nat} (h : i < pos) (bytes : Bytes) :
    store mem pos bytes i = mem i := if_pos h

theorem store_inside {mem : Nat → UInt8} {pos j : Nat} {bytes : Bytes} {c : UInt8}
    (h : bytes[j]? = some c) : store mem pos bytes (pos + j) = c := by
  unfold store
  rw [if_neg (by omega), Nat.add_sub_cancel_left, List.getD_eq_getElem?_getD, h, Option.getD_some]

theorem written_of_fits {room : Nat} (h : piece.length < room) : written room piece = piece ++ [0] := by
  unfold written
  rw [snprintf_of_lt h]

/-- There is a terminator behind a piece that fits. -/
theorem snprintf_end (h : b.snprintf piece = some b') (hfits : b'.offset < b'.size) :
    b'.mem b'.offset = 0 := by
  obtain ⟨hlt, hsize, hoffset, hmem⟩ := snprintf_some h
  rw [hmem, hoffset, written_of_fits (by omega)]
  apply store_inside
  rw [List.getElem?_append_right (Nat.le_refl _), Nat.sub_self]
  rfl

theorem store_outside {mem : Nat → UInt8} {pos i : Nat} {bytes : Bytes} (h : pos + bytes.length ≤ i) :
    store mem pos bytes i = mem i := by
  unfold store
  split
  · rfl
  · rw [List.getD_eq_getElem?_getD, List.getElem?_eq_none (by omega), Option.getD_none]

/-- What was written from the start of the memory, read back. -/
theorem map_store_zero {mem : Nat → UInt8} {bytes : Bytes} {n : Nat} (h : n ≤ bytes.length) :
    (List.range n).map (store mem 0 bytes) = bytes.take n := by
  apply List.ext_getElem
  · rw [List.length_map, List.length_range, List.length_take, Nat.min_eq_left h]
  · intro i h₁ h₂
    have hlt : i < bytes.length := by
      rw [List.length_take] at h₂
      omega
    rw [List.getElem_map, List.getElem_range, List.getElem_take]
    have hi : bytes[i]? = some bytes[i] := List.getElem?_eq_getElem hlt
    have hinside : store mem 0 bytes (0 + i) = bytes[i] := store_inside hi
    rwa [Nat.zero_add] at hinside

/-- Bytes that start with a piece add it. -/
theorem Holds.store (h : b.Holds t) (hfits : t.length + piece.length < b.size) {bytes : Bytes}
    (hbytes : piece <+: bytes) {offset : Nat} (hoff : offset = b.offset + piece.length) :
    Holds ⟨store b.mem b.offset bytes, b.size, offset⟩ (t ++ piece) := by
  have hoffset := h.offset
  refine ⟨?_, ?_, fun i hi => ?_⟩
  · rw [List.length_append, ← hoffset]
    exact hoff
  · rw [List.length_append]
    exact hfits
  · show TextBuffer.store b.mem b.offset bytes i = _
    by_cases hold : i < t.length
    · rw [store_below (by omega), List.getElem_append_left hold]
      exact h.bytes i hold
    · obtain ⟨j, rfl⟩ : ∃ j, i = b.offset + j := ⟨i - b.offset, by omega⟩
      have hj : j < piece.length := by
        rw [List.length_append] at hi
        omega
      obtain ⟨rest, rfl⟩ := hbytes
      apply store_inside
      rw [List.getElem?_append_left hj, List.getElem?_eq_getElem hj,
        List.getElem_append_right (by omega)]
      congr 2
      omega

/-- A piece that fits is added. -/
theorem Holds.snprintf (h : b.Holds t) (hfits : t.length + piece.length < b.size) :
    ∃ b', b.snprintf piece = some b' ∧ b'.size = b.size ∧ b'.Holds (t ++ piece) := by
  have hoffset := h.offset
  have hwritten : written (b.size - b.offset) piece = piece ++ [0] := written_of_fits (by omega)
  refine ⟨_, if_pos (by omega), rfl, h.store hfits ?_ rfl⟩
  rw [hwritten]
  exact List.prefix_append _ _

/-- A piece that does not fit is cut. -/
theorem Holds.cut (h : b.Holds t) (hlong : b.size ≤ t.length + piece.length)
    (hb : b.snprintf piece = some b') : b'.Cut := by
  obtain ⟨hlt, hsize, hoff, hmem⟩ := snprintf_some hb
  have hoffset := h.offset
  have hkept : (Lib.snprintf (b.size - b.offset) piece).length = b.size - b.offset - 1 := by
    unfold Lib.snprintf
    rw [List.length_take]
    omega
  refine ⟨b.size - 1, by omega, by omega, ?_⟩
  have hpos : b.size - 1 = b.offset + (b.size - b.offset - 1) := by omega
  rw [hmem, hpos]
  apply store_inside
  unfold written
  rw [List.getElem?_append_right (by omega), hkept, Nat.sub_self]
  rfl

/-- What is cut stays cut. -/
theorem Cut.snprintf (h : b.Cut) (hb : b.snprintf piece = some b') : b'.Cut := by
  obtain ⟨hlt, hsize, hoff, hmem⟩ := snprintf_some hb
  obtain ⟨i, hi, hisize, hzero⟩ := h
  refine ⟨i, by omega, by omega, ?_⟩
  rw [hmem, store_below hi]
  exact hzero

theorem Cut.resize (h : b.Cut) {size : Nat} (hsize : b.size ≤ size) : (b.resize size).Cut := by
  obtain ⟨i, hi, hisize, hzero⟩ := h
  exact ⟨i, hi, Nat.lt_of_lt_of_le hisize hsize, hzero⟩

theorem Holds.resize (h : b.Holds t) {size : Nat} (hsize : b.size ≤ size) :
    (b.resize size).Holds t :=
  ⟨h.offset, Nat.lt_of_lt_of_le h.fits hsize, h.bytes⟩

/-- The string is what was written, if nothing was cut. -/
theorem Holds.text (h : b.Holds t) (hend : b.mem b.offset = 0) (hnul : (0 : UInt8) ∉ t) :
    b.text = t := by
  have hfits := h.fits
  have hoffset := h.offset
  obtain ⟨k, hk⟩ : ∃ k, b.size = t.length + (k + 1) := ⟨b.size - t.length - 1, by omega⟩
  have hlow : (List.range t.length).map b.mem = t := by
    apply List.ext_getElem (by simp)
    intro i h1 h2
    rw [List.getElem_map, List.getElem_range]
    exact h.bytes i h2
  unfold TextBuffer.text
  rw [hk, List.range_add, List.map_append, hlow, cstr_append hnul, List.range_succ_eq_map]
  have hzero : b.mem (t.length + 0) = 0 := by
    rw [Nat.add_zero, ← hoffset]
    exact hend
  simp only [List.map_cons, hzero]
  show t ++ cstr (0 :: _) = t
  rw [show ∀ s : Bytes, cstr (0 :: s) = [] from fun s => List.takeWhile_cons_of_neg (by decide),
    List.append_nil]

/-- The string ends in front of the offset, if something was cut. -/
theorem Cut.length_text (h : b.Cut) : b.text.length < b.offset := by
  obtain ⟨i, hi, hisize, hzero⟩ := h
  obtain ⟨k, hk⟩ : ∃ k, b.size = (i + 1) + k := ⟨b.size - (i + 1), by omega⟩
  have hmem : (0 : UInt8) ∈ (List.range (i + 1)).map b.mem :=
    List.mem_map.mpr ⟨i, List.mem_range.mpr (Nat.lt_succ_self i), hzero⟩
  have hnul : cstr ((List.range (i + 1)).map b.mem) ≠ (List.range (i + 1)).map b.mem := by
    intro heq
    exact cstr_no_nul _ (heq ▸ hmem)
  have hle : (cstr ((List.range (i + 1)).map b.mem)).length ≤ i + 1 := by
    have hpre : cstr ((List.range (i + 1)).map b.mem) <+: (List.range (i + 1)).map b.mem :=
      List.takeWhile_prefix _
    simpa using hpre.length_le
  have hne : (cstr ((List.range (i + 1)).map b.mem)).length ≠ i + 1 := by
    intro heq
    have hpre : cstr ((List.range (i + 1)).map b.mem) <+: (List.range (i + 1)).map b.mem :=
      List.takeWhile_prefix _
    exact hnul (hpre.eq_of_length (by simpa using heq))
  unfold TextBuffer.text
  rw [hk, List.range_add, List.map_append, cstr_append_of_mem hmem]
  omega

/-! ### Writing within the buffer -/

/-- The text was written within the buffer: the memory behind its end is as it was. -/
structure Wrote (b b' : TextBuffer) (t : Bytes) : Prop where
  size : b'.size = b.size
  outside : ∀ i, b.size ≤ i → b'.mem i = b.mem i
  holds : b'.Holds t

theorem Wrote.refl (h : b.Holds t) : Wrote b b t := ⟨rfl, fun _ _ => rfl, h⟩

theorem Wrote.trans {b'' : TextBuffer} {u : Bytes} (h : Wrote b b' t) (h' : Wrote b' b'' u) :
    Wrote b b'' u where
  size := h'.size.trans h.size
  outside i hi := by rw [h'.outside i (by rw [h.size]; exact hi), h.outside i hi]
  holds := h'.holds

theorem Holds.put (h : b.Holds t) (hfits : t.length + 1 < b.size) (c : UInt8) :
    ∃ b', b.put c = some b' ∧ Wrote b b' (t ++ [c]) := by
  have hoffset := h.offset
  have hfits : t.length + [c].length < b.size := hfits
  have hholds : Holds ⟨TextBuffer.store b.mem b.offset [c], b.size, b.offset + 1⟩ (t ++ [c]) :=
    h.store hfits (List.prefix_refl _) rfl
  refine ⟨_, if_pos (by omega), rfl, fun i hi => ?_, hholds⟩
  exact store_outside (by rw [List.length_singleton]; omega)

theorem Holds.print (h : b.Holds t) (hfits : t.length + piece.length < b.size) :
    ∃ b', b.snprintf piece = some b' ∧ Wrote b b' (t ++ piece) := by
  have hoffset := h.offset
  obtain ⟨b', hb, hsize, hholds⟩ := h.snprintf hfits
  refine ⟨b', hb, hsize, fun i hi => ?_, hholds⟩
  rw [(snprintf_some hb).2.2.2, written_of_fits (by omega)]
  exact store_outside (by rw [List.length_append, List.length_singleton]; omega)

theorem Holds.terminate (h : b.Holds t) :
    ∃ b', b.terminate = some b' ∧ Wrote b b' t ∧ b'.mem b'.offset = 0 := by
  have hoffset := h.offset
  have hfits := h.fits
  refine ⟨_, if_pos (by omega), ⟨rfl, fun i hi => ?_, h.offset, h.fits, fun i hi => ?_⟩, ?_⟩
  · exact store_outside (by rw [List.length_singleton]; omega)
  · exact (store_below (by omega) _).trans (h.bytes i hi)
  · exact store_inside (j := 0) rfl

end TextBuffer

/-! ## Doubling -/

/-- The size behind a piece: doubled if no more than the reserve is left. -/
def doubled (reserve size offset : Nat) : Nat :=
  if size - reserve ≤ offset then size * 2 else size

theorem doubled_of_le {reserve size offset : Nat} (h : size - reserve ≤ offset) :
    doubled reserve size offset = size * 2 := if_pos h

theorem doubled_of_lt {reserve size offset : Nat} (h : offset < size - reserve) :
    doubled reserve size offset = size := if_neg (by omega)

theorem le_doubled (reserve size offset : Nat) : size ≤ doubled reserve size offset := by
  by_cases h : size - reserve ≤ offset
  · rw [doubled_of_le h]
    omega
  · rw [doubled_of_lt (by omega)]

/-- Pieces of these lengths fit, if the buffer is checked behind each of them. -/
def PiecesFit (reserve : Nat) : List Nat → Nat → Nat → Prop
  | [], _, _ => True
  | l :: ls, offset, size =>
      offset + l < size ∧ PiecesFit reserve ls (offset + l) (doubled reserve size (offset + l))

variable {reserve start : Nat}

/-- The size is the first doubling of `start` with more than the reserve left. -/
structure Tight (reserve start size offset : Nat) : Prop where
  room : offset + reserve < size
  least : ∀ k, offset + reserve < start * 2 ^ k → size ≤ start * 2 ^ k
  doubling : ∃ k, size = start * 2 ^ k

/-- A piece that fits leaves the size tight again. -/
theorem Tight.doubled {size offset l : Nat} (h : Tight reserve start size offset)
    (hreserve : reserve ≤ start) (hfits : offset + l < size) :
    Tight reserve start (doubled reserve size (offset + l)) (offset + l) := by
  obtain ⟨k, hk⟩ := h.doubling
  have hstart : start ≤ size := by
    rw [hk]
    exact Nat.le_mul_of_pos_right _ (Nat.two_pow_pos k)
  by_cases hgrow : size - reserve ≤ offset + l
  · rw [doubled_of_le hgrow]
    refine ⟨by omega, fun j hj => ?_, k + 1, by rw [hk, Nat.pow_succ, Nat.mul_assoc]⟩
    -- a doubling above `size` is twice it at least
    have hlt : start * 2 ^ k < start * 2 ^ j := by omega
    have hkj : k < j := by
      by_contra hle
      have hpow : 2 ^ j ≤ 2 ^ k := Nat.pow_le_pow_right (by decide) (by omega)
      have := Nat.mul_le_mul_left start hpow
      omega
    have hpow : 2 ^ (k + 1) ≤ 2 ^ j := Nat.pow_le_pow_right (by decide) hkj
    calc size * 2 = start * 2 ^ (k + 1) := by rw [hk, Nat.pow_succ, Nat.mul_assoc]
      _ ≤ start * 2 ^ j := Nat.mul_le_mul_left start hpow
  · rw [doubled_of_lt (by omega)]
    exact ⟨by omega, fun j hj => h.least j (by omega), k, hk⟩

/-- **Pieces fit exactly if each of them fits into the first doubling that left more than the
reserve behind the pieces before it.** -/
theorem piecesFit_iff (hreserve : reserve ≤ start) : ∀ (ls : List Nat) {size offset : Nat},
    Tight reserve start size offset →
      (PiecesFit reserve ls offset size ↔ ∀ i < ls.length, ∀ k,
        offset + (ls.take i).sum + reserve < start * 2 ^ k
          → offset + (ls.take (i + 1)).sum < start * 2 ^ k) := by
  intro ls
  induction ls with
  | nil => exact fun _ => ⟨fun _ i hi => absurd hi (by simp), fun _ => trivial⟩
  | cons l ls ih =>
      intro size offset h
      have hshift : ∀ i, offset + ((l :: ls).take (i + 1)).sum = offset + l + (ls.take i).sum := by
        intro i
        rw [List.take_succ_cons, List.sum_cons, Nat.add_assoc]
      unfold PiecesFit
      constructor
      · intro hfit i hi k hk
        obtain ⟨hfirst, hrest⟩ := hfit
        cases i with
        | zero =>
            have hle : size ≤ start * 2 ^ k := h.least k (by simpa using hk)
            simp only [List.take_succ_cons, List.take_zero, List.sum_singleton]
            omega
        | succ i =>
            rw [hshift] at hk ⊢
            exact (ih (h.doubled hreserve hfirst)).mp hrest i (by simpa using hi) k hk
      · intro hall
        obtain ⟨k, hk⟩ := h.doubling
        have hfirst : offset + l < size := by
          have h0 := hall 0 (by simp) k
            (by simp only [List.take_zero, List.sum_nil, Nat.add_zero]; rw [← hk]; exact h.room)
          simpa [← hk] using h0
        refine ⟨hfirst, (ih (h.doubled hreserve hfirst)).mpr fun i hi j hj => ?_⟩
        have hnext := hall (i + 1) (by simpa using hi) j (by rw [hshift]; exact hj)
        rw [hshift] at hnext
        exact hnext

end Lib
