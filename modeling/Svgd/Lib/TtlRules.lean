import Svgd.Lib.ChainTable

/-!
# Rules for maps whose entries expire

Two kinds of statement about a `TtlMap` survive a put, and between them they carry the
arguments about caches that are shared.

`Within S` looks backwards: every binding is one that `S` allows, for instance one that
somebody is on record as having made. A put keeps it if the new binding is allowed.

`LastsUntil k t` looks forwards: whatever is bound to `k`, it does not expire before
`t`. A put of another key keeps it, and so does a put of `k` itself whose expiry is not
earlier. Under a clock that never goes back and a constant lifetime every later put is
such a put, so what one party stored for a while stays readable for that while, even
though the value may be replaced by somebody else's.
-/

namespace Lib.TtlMap

variable {K V : Type}

/-- Every binding is one that `S` allows. -/
def Within (m : TtlMap K V) (S : K → V → Int → Prop) : Prop :=
  ∀ k v e, m k = some (v, e) → S k v e

/-- The key is bound, and its binding does not expire before `t`. -/
def LastsUntil (m : TtlMap K V) (k : K) (t : Int) : Prop :=
  ∃ v e, m k = some (v, e) ∧ t ≤ e

variable {m : TtlMap K V} {S T : K → V → Int → Prop} {k k' : K} {v : V} {e t now : Int}

theorem within_empty : (empty : TtlMap K V).Within S := by
  intro k v e h
  exact absurd h (by simp [empty])

theorem Within.imp (h : m.Within S) (hST : ∀ k v e, S k v e → T k v e) : m.Within T :=
  fun k v e hm => hST k v e (h k v e hm)

/-- What a lookup returns is bound, and has not expired. -/
theorem get_eq_some : m.get now k = some v ↔ ∃ e, m k = some (v, e) ∧ now < e := by
  unfold get
  cases hm : m k with
  | none => simp
  | some p =>
      obtain ⟨v', e'⟩ := p
      by_cases hlt : now < e'
      · simp [hlt]
      · simp [hlt]

theorem LastsUntil.get (h : m.LastsUntil k t) (hnow : now < t) : ∃ v, m.get now k = some v := by
  obtain ⟨v, e, hm, hte⟩ := h
  exact ⟨v, get_eq_some.mpr ⟨e, hm, by omega⟩⟩

variable [DecidableEq K]

theorem put_self : (m.put k v e) k = some (v, e) := if_pos rfl

theorem put_of_ne (h : k' ≠ k) : (m.put k' v e) k = m k := if_neg h

/-- A put keeps what is known of the past, if it is itself allowed. -/
theorem Within.put (h : m.Within S) (hnew : S k v e) : (m.put k v e).Within S := by
  intro k' v' e' hm
  by_cases hk : k = k'
  · rw [← hk, put_self] at hm
    injection hm with hm
    obtain ⟨rfl, rfl⟩ := Prod.mk.inj hm
    exact hk ▸ hnew
  · rw [put_of_ne hk] at hm
    exact h k' v' e' hm

theorem lastsUntil_put : (m.put k v e).LastsUntil k e := ⟨v, e, put_self, le_rfl⟩

/-- **A put of anything keeps what is promised of the future**, unless it binds the same key
for a shorter time. -/
theorem LastsUntil.put (h : m.LastsUntil k t) (hnew : k' = k → t ≤ e) :
    (m.put k' v e).LastsUntil k t := by
  obtain ⟨v₀, e₀, hm, hte⟩ := h
  by_cases hk : k' = k
  · subst hk
    exact ⟨v, e, put_self, hnew rfl⟩
  · exact ⟨v₀, e₀, (put_of_ne hk).trans hm, hte⟩

end Lib.TtlMap
