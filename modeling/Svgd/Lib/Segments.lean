import Mathlib.Data.List.Infix
import Mathlib.Tactic.Common

/-!
# Reading a stream piece by piece

A stream arrives in pieces that the receiver does not choose. A reader appends each piece
to what it has and asks whether that is enough. Only the pieces decide where it asks, so it
reads the whole text for every way of cutting it exactly if no shorter beginning of the text
is ever enough.
-/

namespace Lib

variable {α : Type*}

/-- The pieces make up the text, and none is empty. -/
structure Cuts (pieces : List (List α)) (text : List α) : Prop where
  joined : pieces.flatten = text
  nonempty : ∀ p ∈ pieces, p ≠ []

/-- Append piece after piece until it is enough. -/
def readUntil (enough : List α → Bool) : List (List α) → List α → List α
  | [], buf => buf
  | p :: ps, buf => if enough (buf ++ p) then buf ++ p else readUntil enough ps (buf ++ p)

/-- The text in one piece. -/
theorem cuts_single {text : List α} (h : text ≠ []) : Cuts [text] text :=
  ⟨by simp, by simpa using h⟩

variable {enough : List α → Bool}

/-- If nothing shorter is enough, everything is read. -/
theorem readUntil_whole {pieces : List (List α)} (hne : ∀ p ∈ pieces, p ≠ []) {buf : List α}
    (hshort : ∀ s, s <+: buf ++ pieces.flatten → buf.length < s.length →
      s ≠ buf ++ pieces.flatten → enough s = false) :
    readUntil enough pieces buf = buf ++ pieces.flatten := by
  induction pieces generalizing buf with
  | nil => simp [readUntil]
  | cons p ps ih =>
      have htext : buf ++ (p :: ps).flatten = (buf ++ p) ++ ps.flatten := by simp
      have hlen : buf.length < (buf ++ p).length := by
        have := List.length_pos_iff.mpr (hne p (by simp))
        rw [List.length_append]
        omega
      rw [readUntil]
      split
      · rename_i henough
        by_contra hmore
        have := hshort (buf ++ p) (htext ▸ List.prefix_append ..) hlen hmore
        rw [this] at henough
        exact absurd henough (by simp)
      · rw [htext]
        refine ih (fun q hq => hne q (by simp [hq])) fun s hs hlong hmore => ?_
        exact hshort s (htext ▸ hs) (by omega) (htext ▸ hmore)

/-- **Reading does not depend on the pieces exactly if no shorter beginning is enough.** -/
theorem readUntil_whole_iff {text : List α} :
    (∀ pieces, Cuts pieces text → readUntil enough pieces [] = text)
      ↔ ∀ s, s <+: text → s ≠ [] → s ≠ text → enough s = false := by
  constructor
  · intro h s hs hne hmore
    obtain ⟨rest, rfl⟩ := hs
    have hrest : rest ≠ [] := by
      intro hnil
      exact hmore (by rw [hnil, List.append_nil])
    -- cut behind `s`
    have hcut := h [s, rest] ⟨by simp, by simp [hne, hrest]⟩
    rw [readUntil, List.nil_append] at hcut
    rw [Bool.eq_false_iff]
    intro henough
    rw [if_pos henough] at hcut
    exact hmore hcut
  · intro h pieces hcuts
    have htext : [] ++ pieces.flatten = text := hcuts.joined
    rw [← htext]
    refine readUntil_whole hcuts.nonempty fun s hs hlen hmore => ?_
    rw [htext] at hs hmore
    exact h s hs (List.length_pos_iff.mp hlen) hmore

end Lib
