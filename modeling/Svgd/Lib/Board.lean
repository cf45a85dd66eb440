import Mathlib.Logic.Function.Basic
import Mathlib.Data.List.Nodup
import Mathlib.Tactic.Common

/-!
# Slots that show the last answer

Requests are made for the slots of a board, and each answer is shown in the slot it was asked
for, whatever is shown there already. Answers may overtake each other.

If for each slot the answers arrive in the order of the requests (`InOrder`), a slot without
outstanding requests shows the answer to the last request that was made for it (`Tidy.last`).
Without that order it shows the answer that arrived last.
-/

namespace Lib

variable {κ ρ α : Type*} [DecidableEq κ]

/-- A request on its way. -/
structure Outstanding (κ ρ : Type*) where
  slot : κ
  /-- The number of requests that were made before it. -/
  serial : Nat
  request : ρ

/-- A board of slots. -/
structure Board (κ ρ α : Type*) where
  /-- What a slot shows, and the request it is the answer to. -/
  shown : κ → Option (ρ × α) := fun _ => none
  flying : List (Outstanding κ ρ) := []
  /-- The last request that was made for a slot, with its number. -/
  latest : κ → Option (Nat × ρ) := fun _ => none
  sent : Nat := 0

namespace Board

/-- A request is made for a slot, which shows nothing from then on. -/
def ask (b : Board κ ρ α) (k : κ) (r : ρ) : Board κ ρ α where
  shown := Function.update b.shown k none
  flying := b.flying ++ [⟨k, b.sent, r⟩]
  latest := Function.update b.latest k (some (b.sent, r))
  sent := b.sent + 1

/-- The answer to the outstanding request at `i` arrives. -/
def answer (b : Board κ ρ α) (i : Nat) (a : α) : Board κ ρ α :=
  match b.flying[i]? with
  | some f => { b with
      shown := Function.update b.shown f.slot (some (f.request, a))
      flying := b.flying.eraseIdx i }
  | none => b

/-- No request for the same slot was made before the one at `i` and is still outstanding. -/
def InOrder (b : Board κ ρ α) (i : Nat) : Prop :=
  ∀ f ∈ b.flying[i]?, ∀ g ∈ b.flying, g.slot = f.slot → f.serial ≤ g.serial

/-- Numbers are given once. -/
structure Numbered (b : Board κ ρ α) : Prop where
  below : ∀ f ∈ b.flying, f.serial < b.sent
  distinct : (b.flying.map (·.serial)).Nodup

/-- A slot waits for its last request, or shows the answer to it and waits for nothing. -/
structure Tidy (b : Board κ ρ α) : Prop extends b.Numbered where
  bound : ∀ f ∈ b.flying, ∃ s r, b.latest f.slot = some (s, r) ∧ f.serial ≤ s
  last : ∀ k s r, b.latest k = some (s, r) →
    (⟨k, s, r⟩ : Outstanding κ ρ) ∈ b.flying
      ∨ (∃ a, b.shown k = some (r, a)) ∧ ∀ f ∈ b.flying, f.slot ≠ k

variable {b : Board κ ρ α} {k : κ} {r : ρ} {i : Nat} {a : α} {f : Outstanding κ ρ}

omit [DecidableEq κ] in
theorem tidy_empty : (({} : Board κ ρ α)).Tidy where
  below := by simp
  distinct := by simp
  bound := by simp
  last := by simp

/-! ## Asking -/

theorem latest_ask (b : Board κ ρ α) (k : κ) (r : ρ) : (b.ask k r).latest k = some (b.sent, r) :=
  Function.update_self ..

theorem latest_ask_of_ne {k' : κ} (h : k' ≠ k) : (b.ask k r).latest k' = b.latest k' :=
  Function.update_of_ne h ..

theorem shown_ask_of_ne {k' : κ} (h : k' ≠ k) : (b.ask k r).shown k' = b.shown k' :=
  Function.update_of_ne h ..

theorem mem_flying_ask : f ∈ (b.ask k r).flying ↔ f ∈ b.flying ∨ f = ⟨k, b.sent, r⟩ := by
  unfold ask
  dsimp only
  rw [List.mem_append, List.mem_singleton]

theorem Numbered.ask (h : b.Numbered) : (b.ask k r).Numbered where
  below g hg := by
    have hsent : (b.ask k r).sent = b.sent + 1 := rfl
    rw [hsent]
    rcases mem_flying_ask.mp hg with hg | rfl
    · have := h.below g hg
      omega
    · exact Nat.lt_succ_self _
  distinct := by
    have hflying : (b.ask k r).flying = b.flying ++ [⟨k, b.sent, r⟩] := rfl
    rw [hflying, List.map_append, List.map_singleton, List.nodup_append]
    refine ⟨h.distinct, List.nodup_singleton _, ?_⟩
    intro s hs t ht
    obtain ⟨g, hg, rfl⟩ := List.mem_map.mp hs
    rw [List.mem_singleton.mp ht]
    exact Nat.ne_of_lt (h.below g hg)

theorem Tidy.ask (h : b.Tidy) : (b.ask k r).Tidy where
  toNumbered := h.toNumbered.ask
  bound g hg := by
    rcases mem_flying_ask.mp hg with hg | rfl
    · by_cases hk : g.slot = k
      · rw [hk, latest_ask]
        exact ⟨_, _, rfl, Nat.le_of_lt (h.below g hg)⟩
      · rw [latest_ask_of_ne hk]
        exact h.bound g hg
    · exact ⟨_, _, latest_ask b k r, Nat.le_refl _⟩
  last k' s t hl := by
    by_cases hk : k' = k
    · subst hk
      rw [latest_ask] at hl
      obtain ⟨rfl, rfl⟩ := Prod.mk.inj (Option.some.inj hl)
      exact .inl (mem_flying_ask.mpr (.inr rfl))
    · rw [latest_ask_of_ne hk] at hl
      rcases h.last k' s t hl with hf | ⟨hshown, hnone⟩
      · exact .inl (mem_flying_ask.mpr (.inl hf))
      · refine .inr ⟨by rwa [shown_ask_of_ne hk], fun g hg => ?_⟩
        rcases mem_flying_ask.mp hg with hg | rfl
        · exact hnone g hg
        · exact fun he => hk he.symm

/-! ## Answering -/

theorem answer_of_some (hf : b.flying[i]? = some f) (a : α) :
    b.answer i a = { b with
      shown := Function.update b.shown f.slot (some (f.request, a))
      flying := b.flying.eraseIdx i } := by
  unfold answer
  rw [hf]

theorem latest_answer (b : Board κ ρ α) (i : Nat) (a : α) : (b.answer i a).latest = b.latest := by
  unfold answer
  split <;> rfl

theorem sent_answer (b : Board κ ρ α) (i : Nat) (a : α) : (b.answer i a).sent = b.sent := by
  unfold answer
  split <;> rfl

theorem mem_of_mem_answer {g : Outstanding κ ρ} (h : g ∈ (b.answer i a).flying) : g ∈ b.flying := by
  unfold answer at h
  split at h
  · exact List.mem_of_mem_eraseIdx h
  · exact h

/-- What a slot shows behind an answer was shown before, or is that answer. -/
theorem shown_answer_cases {p : ρ × α} (h : (b.answer i a).shown k = some p) :
    b.shown k = some p ∨ ∃ f ∈ b.flying, f.slot = k ∧ p = (f.request, a) := by
  unfold answer at h
  split at h
  · rename_i f hf
    by_cases hk : k = f.slot
    · subst hk
      dsimp only at h
      rw [Function.update_self] at h
      exact .inr ⟨f, List.mem_of_getElem? hf, rfl, (Option.some.inj h).symm⟩
    · dsimp only at h
      rw [Function.update_of_ne hk] at h
      exact .inl h
  · exact .inl h

theorem Numbered.answer (h : b.Numbered) : (b.answer i a).Numbered where
  below g hg := by
    rw [sent_answer]
    exact h.below g (mem_of_mem_answer hg)
  distinct := by
    unfold Board.answer
    split
    · exact ((b.flying.eraseIdx_sublist i).map _).nodup h.distinct
    · exact h.distinct

/-- An outstanding request stays outstanding, unless it is the one that is answered. -/
theorem mem_flying_answer (hf : b.flying[i]? = some f) {g : Outstanding κ ρ}
    (hg : g ∈ b.flying) : g.serial = f.serial ∨ g ∈ (b.answer i a).flying := by
  rw [answer_of_some hf]
  by_cases hs : g.serial = f.serial
  · exact .inl hs
  · refine .inr (List.mem_eraseIdx_iff_getElem?.mpr ?_)
    obtain ⟨j, hj⟩ := List.getElem?_of_mem hg
    refine ⟨j, ?_, hj⟩
    rintro rfl
    rw [hf] at hj
    exact hs (congrArg Outstanding.serial (Option.some.inj hj)).symm

/-- The answered request is outstanding no more. -/
theorem serial_ne_of_mem_answer (h : b.Numbered) (hf : b.flying[i]? = some f) {g : Outstanding κ ρ}
    (hg : g ∈ (b.answer i a).flying) : g.serial ≠ f.serial := by
  rw [answer_of_some hf] at hg
  obtain ⟨j, hji, hj⟩ := List.mem_eraseIdx_iff_getElem?.mp hg
  intro hs
  have hlen : j < b.flying.length := (List.getElem?_eq_some_iff.mp hj).1
  have hget : (b.flying.map (·.serial))[j]? = (b.flying.map (·.serial))[i]? := by
    rw [List.getElem?_map, List.getElem?_map, hj, hf, Option.map_some, Option.map_some, hs]
  exact hji ((List.getElem?_inj (by rwa [List.length_map]) h.distinct).mp hget)

/-- **Answers in order keep the board tidy.** -/
theorem Tidy.answer (h : b.Tidy) (hin : b.InOrder i) : (b.answer i a).Tidy where
  toNumbered := h.toNumbered.answer
  bound g hg := by
    rw [latest_answer]
    exact h.bound g (mem_of_mem_answer hg)
  last k s t hl := by
    rw [latest_answer] at hl
    cases hf : b.flying[i]? with
    | none =>
        unfold Board.answer
        rw [hf]
        exact h.last k s t hl
    | some f =>
        have hmem : f ∈ b.flying := List.mem_of_getElem? hf
        rcases h.last k s t hl with hlast | ⟨⟨a', hshown⟩, hnone⟩
        · rcases mem_flying_answer (a := a) hf hlast with hs | hstill
          · -- the last request for its slot: nothing else is outstanding there
            have hfk : f = ⟨k, s, t⟩ :=
              List.inj_on_of_nodup_map h.distinct hmem hlast hs.symm
            refine .inr ⟨⟨a, ?_⟩, fun g hg hgk => ?_⟩
            · rw [answer_of_some hf, hfk]
              exact Function.update_self ..
            · have hgmem := mem_of_mem_answer hg
              obtain ⟨s', t', hl', hle⟩ := h.bound g hgmem
              rw [hgk, hl] at hl'
              obtain ⟨rfl, -⟩ := Prod.mk.inj (Option.some.inj hl')
              have hge := hin f hf g hgmem (by rw [hgk, hfk])
              have hne := serial_ne_of_mem_answer h.toNumbered hf hg
              have hs : s = f.serial := hs
              omega
          · exact .inl hstill
        · refine .inr ⟨⟨a', ?_⟩, fun g hg => hnone g (mem_of_mem_answer hg)⟩
          rw [answer_of_some hf]
          exact (Function.update_of_ne (hnone f hmem).symm ..).trans hshown

end Board

end Lib
