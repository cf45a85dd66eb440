import Mathlib.Data.List.Infix
import Mathlib.Data.List.TakeWhile
import Mathlib.Tactic.Common

/-!
# C strings as byte lists

A C string is the list of bytes before its NUL. A pointer into one is the suffix
it points at, so `strchr` and `strstr` return suffixes, `p + n` is `drop n`, and
the text between two pointers is `upTo p q`.

The lemmas come in pairs: what a successful search says about the text it was
run on, and what a search does on a text of known shape. Every parser built on
these functions is verified through that pair and never by unfolding them.
-/

namespace Lib

/-- A byte string. -/
abbrev Bytes := List UInt8

/-- The byte of an ASCII character. -/
def ch (c : Char) : UInt8 := UInt8.ofNat c.toNat

/-- The bytes of an ASCII literal. -/
def str (s : String) : Bytes := s.toList.map ch

/-- What the string functions see of a buffer: everything before the first NUL. -/
def cstr (b : Bytes) : Bytes := b.takeWhile (· ≠ 0)

/-- `strncmp(s, p, strlen(p)) == 0`. -/
def startsWith (s p : Bytes) : Bool := p.isPrefixOf s

/-- The suffix that starts at the first `c`. -/
def strchr : Bytes → UInt8 → Option Bytes
  | [], _ => none
  | b :: s, c => if b = c then some (b :: s) else strchr s c

/-- The suffix that starts at the first occurrence of `p`. -/
def strstr : Bytes → Bytes → Option Bytes
  | [], p => if p = [] then some [] else none
  | b :: s, p => if startsWith (b :: s) p then some (b :: s) else strstr s p

/-- The offset of the last `c`. -/
def strrchr : Bytes → UInt8 → Option Nat
  | [], _ => none
  | b :: s, c =>
      match strrchr s c with
      | some i => some (i + 1)
      | none => if b = c then some 0 else none

/-- The text from pointer `p` up to pointer `q`, a later pointer into the same string. -/
def upTo (p q : Bytes) : Bytes := p.take (p.length - q.length)

/-- The text from `s` up to the earlier of `stop` and the end of the string. -/
def untilOr (s : Bytes) (stop : Option Bytes) : Bytes :=
  match stop with
  | some t => upTo s t
  | none => s

/-- `snprintf(buf, n, "%s", s)`: at most `n - 1` bytes are kept. -/
def snprintf (n : Nat) (s : Bytes) : Bytes := s.take (n - 1)

/-! ## Literals and views -/

theorem cstr_no_nul (b : Bytes) : (0 : UInt8) ∉ cstr b := by
  intro h
  have := List.mem_takeWhile_imp h
  simp at this

theorem cstr_eq_self {b : Bytes} (h : (0 : UInt8) ∉ b) : cstr b = b := by
  unfold cstr
  rw [List.takeWhile_eq_self_iff]
  intro x hx
  simp only [ne_eq, decide_eq_true_eq]
  intro he
  exact h (he ▸ hx)

theorem cstr_append {a : Bytes} (h : (0 : UInt8) ∉ a) (b : Bytes) : cstr (a ++ b) = a ++ cstr b := by
  unfold cstr
  refine List.takeWhile_append_of_pos ?_
  intro x hx
  simp only [ne_eq, decide_eq_true_eq]
  intro he
  exact h (he ▸ hx)

/-- Behind a NUL nothing is seen. -/
theorem cstr_append_of_mem {a : Bytes} (h : (0 : UInt8) ∈ a) (b : Bytes) : cstr (a ++ b) = cstr a := by
  obtain ⟨p, s, rfl, hp⟩ := List.eq_append_cons_of_mem h
  rw [List.append_assoc, cstr_append hp, cstr_append hp]
  rfl

theorem startsWith_iff {s p : Bytes} : startsWith s p = true ↔ ∃ t, s = p ++ t := by
  unfold startsWith
  rw [List.isPrefixOf_iff_prefix]
  constructor
  · rintro ⟨t, rfl⟩; exact ⟨t, rfl⟩
  · rintro ⟨t, rfl⟩; exact ⟨t, rfl⟩

@[simp] theorem startsWith_nil (s : Bytes) : startsWith s [] = true := rfl

@[simp] theorem nil_startsWith (c : UInt8) (p : Bytes) : startsWith [] (c :: p) = false := rfl

@[simp] theorem startsWith_cons_cons (b c : UInt8) (s p : Bytes) :
    startsWith (b :: s) (c :: p) = (c == b && startsWith s p) := rfl

@[simp] theorem startsWith_append (p t : Bytes) : startsWith (p ++ t) p = true :=
  startsWith_iff.mpr ⟨t, rfl⟩

@[simp] theorem upTo_append (p q : Bytes) : upTo (p ++ q) q = p := by
  simp [upTo]

theorem snprintf_of_lt {n : Nat} {s : Bytes} (h : s.length < n) : snprintf n s = s := by
  unfold snprintf
  rw [List.take_of_length_le (by omega)]

theorem length_snprintf_le (n : Nat) (s : Bytes) : (snprintf n s).length ≤ n - 1 := by
  unfold snprintf
  rw [List.length_take]
  exact Nat.min_le_left _ _

/-! ## Tokens -/

/-- A byte of a class is none outside it. -/
theorem ne_of_class {f : UInt8 → Bool} {b c : UInt8} (hb : f b = true) (hc : f c = false) : b ≠ c := by
  intro he
  rw [he, hc] at hb
  exact absurd hb (by simp)

section

variable {p : UInt8 → Bool} {c : UInt8}

/-- A byte that ends a token hides what follows it. -/
theorem takeWhile_append_stop (hc : p c = false) (x s : Bytes) :
    (x ++ c :: s).takeWhile p = x.takeWhile p := by
  induction x with
  | nil => simp [hc]
  | cons b x ih =>
      rw [List.cons_append, List.takeWhile_cons, List.takeWhile_cons, ih]

theorem dropWhile_append_stop (hc : p c = false) (x s : Bytes) :
    (x ++ c :: s).dropWhile p = x.dropWhile p ++ c :: s := by
  induction x with
  | nil => simp [hc]
  | cons b x ih =>
      rw [List.cons_append, List.dropWhile_cons, List.dropWhile_cons, ih]
      split <;> rfl

/-- A token in front of a byte that ends it. -/
theorem takeWhile_token {x : Bytes} (hx : ∀ b ∈ x, p b = true) (hc : p c = false) (s : Bytes) :
    (x ++ c :: s).takeWhile p = x := by
  rw [takeWhile_append_stop hc, List.takeWhile_eq_self_iff]
  exact hx

theorem dropWhile_token {x : Bytes} (hx : ∀ b ∈ x, p b = true) (hc : p c = false) (s : Bytes) :
    (x ++ c :: s).dropWhile p = c :: s := by
  rw [dropWhile_append_stop hc, List.dropWhile_eq_nil_iff.mpr hx, List.nil_append]

/-- A token in front of a text that does not go on with it. -/
theorem span_token {x r : Bytes} (hx : ∀ b ∈ x, p b = true) (hr : ∀ b ∈ r.head?, p b = false) :
    (x ++ r).takeWhile p = x ∧ (x ++ r).dropWhile p = r := by
  cases r with
  | nil =>
      rw [List.append_nil]
      exact ⟨List.takeWhile_eq_self_iff.mpr hx, List.dropWhile_eq_nil_iff.mpr hx⟩
  | cons c s =>
      have hc := hr c (by simp)
      exact ⟨takeWhile_token hx hc s, dropWhile_token hx hc s⟩

end

/-! ## Lines -/

/-- A text is empty, a last line, or a line and the text behind its end. -/
theorem lines_induction {q : UInt8} {P : Bytes → Prop} (nil : P [])
    (last : ∀ l, q ∉ l → l ≠ [] → P l) (line : ∀ l s, q ∉ l → P s → P (l ++ q :: s)) (t : Bytes) :
    P t := by
  induction h : t.length using Nat.strongRecOn generalizing t with
  | ind n ih =>
      by_cases hq : q ∈ t
      · obtain ⟨l, s, rfl, hl⟩ := List.eq_append_cons_of_mem hq
        refine line l s hl (ih s.length ?_ s rfl)
        rw [← h, List.length_append, List.length_cons]
        omega
      · by_cases hne : t = []
        · exact hne ▸ nil
        · exact last t hq hne

/-- A piece without line end lies within one side of a line end. -/
theorem infix_append_cons {q : UInt8} {p x y : Bytes} (hp : q ∉ p) (h : p <:+: x ++ q :: y) :
    p <:+: x ∨ p <:+: y := by
  obtain ⟨u, v, h⟩ := h
  rw [List.append_assoc] at h
  rcases List.append_eq_append_iff.mp h with ⟨a, hx, hv⟩ | ⟨a, hu, hrest⟩
  · -- the piece starts on the left
    rcases List.append_eq_append_iff.mp hv with ⟨b, ha, -⟩ | ⟨b, ha, hb⟩
    · exact Or.inl ⟨u, b, by rw [hx, ha, List.append_assoc]⟩
    · cases b with
      | nil => exact Or.inl ⟨u, [], by rw [hx, ha]; simp⟩
      | cons c b =>
          rw [List.cons_append, List.cons.injEq] at hb
          exact absurd (by rw [ha, ← hb.1]; simp) hp
  · cases a with
    | nil =>
        cases p with
        | nil => exact Or.inr (List.nil_infix)
        | cons c p =>
            rw [List.nil_append, List.cons_append, List.cons.injEq] at hrest
            exact absurd (by rw [← hrest.1]; simp) hp
    | cons c a =>
        rw [List.cons_append, List.cons.injEq] at hrest
        exact Or.inr ⟨a, v, by rw [hrest.2, List.append_assoc]⟩

/-! ## `strchr` -/

/-- What a successful `strchr` says about the text. -/
theorem strchr_some {s t : Bytes} {c : UInt8} (h : strchr s c = some t) :
    ∃ p t', s = p ++ t ∧ t = c :: t' ∧ c ∉ p := by
  induction s with
  | nil => simp [strchr] at h
  | cons b s ih =>
      unfold strchr at h
      split at h
      · rename_i hb
        injection h with h
        exact ⟨[], s, by simp [← h], by rw [← h, hb], by simp⟩
      · rename_i hb
        obtain ⟨p, t', h1, h2, h3⟩ := ih h
        refine ⟨b :: p, t', by rw [h1, List.cons_append], h2, ?_⟩
        intro hm
        rcases List.mem_cons.mp hm with he | he
        · exact hb he.symm
        · exact h3 he

/-- `strchr` on a text whose first `c` is known. -/
theorem strchr_append {p t : Bytes} {c : UInt8} (h : c ∉ p) :
    strchr (p ++ c :: t) c = some (c :: t) := by
  induction p with
  | nil => simp [strchr]
  | cons b p ih =>
      have hb : b ≠ c := fun he => h (he ▸ List.mem_cons_self)
      rw [List.cons_append, strchr, if_neg hb]
      exact ih (fun hm => h (List.mem_cons_of_mem _ hm))

theorem strchr_eq_none {s : Bytes} {c : UInt8} : strchr s c = none ↔ c ∉ s := by
  constructor
  · intro h hm
    obtain ⟨p, t, rfl, hp⟩ := List.eq_append_cons_of_mem hm
    rw [strchr_append hp] at h
    exact absurd h (by simp)
  · intro h
    cases hs : strchr s c with
    | none => rfl
    | some t =>
        obtain ⟨p, t', rfl, rfl, _⟩ := strchr_some hs
        exact absurd (by simp) h

/-- `strchr` skips a text without `c`. -/
theorem strchr_skip {p s : Bytes} {c : UInt8} (h : c ∉ p) : strchr (p ++ s) c = strchr s c := by
  induction p with
  | nil => rfl
  | cons b p ih =>
      have hb : b ≠ c := fun he => h (he ▸ List.mem_cons_self)
      rw [List.cons_append, strchr, if_neg hb]
      exact ih (fun hm => h (List.mem_cons_of_mem _ hm))

/-- The text up to the first `c`. -/
theorem untilOr_strchr (s : Bytes) (c : UInt8) : untilOr s (strchr s c) = s.takeWhile (· ≠ c) := by
  cases h : strchr s c with
  | none =>
      have hc := strchr_eq_none.mp h
      rw [untilOr, eq_comm, List.takeWhile_eq_self_iff]
      intro b hb
      simp only [ne_eq, decide_eq_true_eq]
      exact fun he => hc (he ▸ hb)
  | some t =>
      obtain ⟨p, t', rfl, rfl, hp⟩ := strchr_some h
      rw [untilOr, upTo_append, takeWhile_token]
      · intro b hb
        simp only [ne_eq, decide_eq_true_eq]
        exact fun he => hp (he ▸ hb)
      · simp

/-- A text up to the first `c` that follows it. -/
theorem untilOr_stop {a : Bytes} {c : UInt8} (ha : c ∉ a) (b : Bytes) :
    untilOr (a ++ c :: b) (strchr (a ++ c :: b) c) = a := by
  rw [strchr_append ha, untilOr, upTo_append]

/-- Without one, up to its end. -/
theorem untilOr_end {a : Bytes} {c : UInt8} (ha : c ∉ a) : untilOr a (strchr a c) = a := by
  rw [strchr_eq_none.mpr ha, untilOr]

/-! ## `strrchr` -/

theorem strrchr_eq_none {s : Bytes} {c : UInt8} (h : c ∉ s) : strrchr s c = none := by
  induction s with
  | nil => rfl
  | cons b s ih =>
      have hb : b ≠ c := fun he => h (he ▸ List.mem_cons_self)
      rw [strrchr, ih (fun hm => h (List.mem_cons_of_mem _ hm))]
      dsimp only
      rw [if_neg hb]

/-- What stands behind the last `c` does not matter. -/
theorem strrchr_skip {s t : Bytes} {c : UInt8} (h : c ∉ t) : strrchr (s ++ t) c = strrchr s c := by
  induction s with
  | nil => exact strrchr_eq_none h
  | cons b s ih => rw [List.cons_append, strrchr, strrchr, ih]

theorem strrchr_append {s t : Bytes} {c : UInt8} (h : c ∉ t) :
    strrchr (s ++ c :: t) c = some s.length := by
  induction s with
  | nil =>
      rw [List.nil_append, strrchr, strrchr_eq_none h]
      simp
  | cons b s ih => rw [List.cons_append, strrchr, ih, List.length_cons]

theorem strrchr_lt {s : Bytes} {c : UInt8} {i : Nat} (h : strrchr s c = some i) : i < s.length := by
  induction s generalizing i with
  | nil => exact absurd h (by simp [strrchr])
  | cons b s ih =>
      rw [strrchr] at h
      rw [List.length_cons]
      cases hs : strrchr s c with
      | some j =>
          rw [hs] at h
          have := ih hs
          have := Option.some.inj h
          omega
      | none =>
          rw [hs] at h
          dsimp only at h
          split at h
          · have := Option.some.inj h
            omega
          · exact absurd h (by simp)

/-! ## `strstr` -/

/-- What a successful `strstr` says about the text. -/
theorem strstr_some {s p t : Bytes} (h : strstr s p = some t) :
    ∃ u, s = u ++ t ∧ startsWith t p = true := by
  induction s with
  | nil =>
      unfold strstr at h
      split at h
      · rename_i hp
        injection h with h
        exact ⟨[], by simp [← h], by rw [hp]; simp [startsWith]⟩
      · exact absurd h (by simp)
  | cons b s ih =>
      unfold strstr at h
      split at h
      · rename_i hb
        injection h with h
        exact ⟨[], by simp [← h], by rw [← h]; exact hb⟩
      · obtain ⟨u, h1, h2⟩ := ih h
        exact ⟨b :: u, by rw [h1, List.cons_append], h2⟩

theorem strstr_head {s p : Bytes} (h : startsWith s p = true) : strstr s p = some s := by
  cases s with
  | nil =>
      have hp : p = [] := by simpa [startsWith] using h
      simp [strstr, hp]
  | cons b s => rw [strstr, if_pos h]

/-- A text in which `p` starts nowhere inside `u` is searched from `s` on. -/
theorem strstr_skip {u s p : Bytes}
    (h : ∀ v w, u = v ++ w → w ≠ [] → startsWith (w ++ s) p = false) :
    strstr (u ++ s) p = strstr s p := by
  induction u with
  | nil => rfl
  | cons b u ih =>
      have h0 := h [] (b :: u) rfl (by simp)
      rw [List.cons_append, strstr, ← List.cons_append, h0]
      simp only [Bool.false_eq_true, if_false]
      refine ih (fun v w hu hw => ?_)
      exact h (b :: v) w (by rw [hu, List.cons_append]) hw

/-- A pattern that starts with a byte `u` does not contain starts nowhere inside `u`. -/
theorem strstr_skip_head {u s p : Bytes} {c : UInt8} (h : c ∉ u) :
    strstr (u ++ s) (c :: p) = strstr s (c :: p) := by
  refine strstr_skip (fun v w hu hw => ?_)
  cases w with
  | nil => exact absurd rfl hw
  | cons b w =>
      have hb : b ≠ c := fun he => h (by rw [hu, he]; simp)
      simp [Ne.symm hb]

/-- A pattern is not found in a text that lacks one of its bytes. -/
theorem strstr_none_of_not_mem {s p : Bytes} {c : UInt8} (hc : c ∈ p) (h : c ∉ s) :
    strstr s p = none := by
  cases hs : strstr s p with
  | none => rfl
  | some t =>
      obtain ⟨u, rfl, ht⟩ := strstr_some hs
      obtain ⟨r, rfl⟩ := startsWith_iff.mp ht
      exact absurd (by simp [hc]) h

/-- An occurrence anywhere makes the search succeed, at that place or before it. -/
theorem strstr_isSome (u p t : Bytes) :
    ∃ v w, strstr (u ++ (p ++ t)) p = some (w ++ (p ++ t)) ∧ u = v ++ w := by
  induction u with
  | nil => exact ⟨[], [], strstr_head (by simp), rfl⟩
  | cons b u ih =>
      by_cases hb : startsWith (b :: (u ++ (p ++ t))) p = true
      · exact ⟨[], b :: u, by rw [List.cons_append, strstr, if_pos hb], rfl⟩
      · obtain ⟨v, w, h1, h2⟩ := ih
        refine ⟨b :: v, w, ?_, by rw [h2, List.cons_append]⟩
        rw [List.cons_append, strstr, if_neg hb]
        exact h1

/-- A search that succeeded is not changed by what is appended. -/
theorem strstr_append_of_some {u p t : Bytes} (h : strstr u p = some t) (s : Bytes) :
    strstr (u ++ s) p = some (t ++ s) := by
  induction u with
  | nil =>
      unfold strstr at h
      split at h
      · rename_i hp
        injection h with h
        subst hp
        subst h
        exact strstr_head (by simp)
      · exact absurd h (by simp)
  | cons b u ih =>
      unfold strstr at h
      split at h
      · rename_i hb
        injection h with h
        subst h
        obtain ⟨r, hr⟩ := startsWith_iff.mp hb
        refine strstr_head ?_
        rw [hr, List.append_assoc]
        exact startsWith_append _ _
      · rename_i hb
        -- the pattern lies in `u`, so it is not longer than what precedes `s` here
        have hnot : startsWith (b :: (u ++ s)) p = false := by
          rw [Bool.eq_false_iff]
          intro hstart
          obtain ⟨r, hr⟩ := startsWith_iff.mp hstart
          obtain ⟨v, hv, ht⟩ := strstr_some h
          obtain ⟨r', hr'⟩ := startsWith_iff.mp ht
          have hlen : p.length ≤ (b :: u).length := by
            rw [hv, hr', List.length_cons]
            simp only [List.length_append]
            omega
          have hpre : p <+: b :: u := by
            refine List.prefix_of_prefix_length_le ⟨r, hr.symm⟩ ?_ hlen
            exact ⟨s, rfl⟩
          obtain ⟨r'', hr''⟩ := hpre
          exact hb (startsWith_iff.mpr ⟨r'', hr''.symm⟩)
        rw [List.cons_append, strstr, if_neg (by simp [hnot])]
        exact ih h

/-- A search that failed goes on behind a byte the pattern does not contain. -/
theorem strstr_append_of_none {u p : Bytes} {c : UInt8} (h : strstr u p = none) (hc : c ∉ p)
    (s : Bytes) : strstr (u ++ c :: s) p = strstr (c :: s) p := by
  refine strstr_skip (fun v w hu _ => ?_)
  rw [Bool.eq_false_iff]
  intro hstart
  obtain ⟨r, hr⟩ := startsWith_iff.mp hstart
  -- the pattern ends before the byte, so it would have been found
  have hpre : p <+: w := by
    rcases Nat.lt_or_ge w.length p.length with hlt | hge
    · have hw : w ++ [c] <+: p := by
        have hw : w ++ [c] <+: w ++ c :: s := ⟨s, by simp⟩
        refine List.prefix_of_prefix_length_le hw ⟨r, hr.symm⟩ ?_
        rw [List.length_append, List.length_singleton]
        omega
      exact absurd (hw.subset (by simp)) hc
    · exact List.prefix_of_prefix_length_le ⟨r, hr.symm⟩ ⟨c :: s, rfl⟩ hge
  obtain ⟨r', rfl⟩ := hpre
  obtain ⟨_, _, hsome, _⟩ := strstr_isSome v p r'
  rw [hu, hsome] at h
  exact absurd h (by simp)

/-- The text before the first `q` is determined. -/
theorem eq_of_append_cons_eq {q : UInt8} {a w s t : Bytes} (ha : q ∉ a) (hw : q ∉ w)
    (h : a ++ q :: s = w ++ q :: t) : a = w ∧ s = t := by
  have hst : q :: s = q :: t := by
    have := strchr_append (t := s) ha
    rw [h, strchr_append hw] at this
    exact (Option.some.inj this).symm
  rw [hst] at h
  exact ⟨List.append_cancel_right h, (List.cons.inj hst).2⟩

/-- A word that ends in a mark does not start before the first mark of a text, unless the text up
to that mark ends in the word. -/
theorem strstr_skip_mark {q : UInt8} {u w : Bytes} (hu : q ∉ u) (hw : q ∉ w) (hend : ¬ w <:+ u)
    (s : Bytes) : strstr (u ++ q :: s) (w ++ [q]) = strstr s (w ++ [q]) := by
  have htext : u ++ q :: s = (u ++ [q]) ++ s := by simp
  rw [htext]
  refine strstr_skip (fun v x hux hne => ?_)
  rw [Bool.eq_false_iff]
  intro hstart
  obtain ⟨r, hr⟩ := startsWith_iff.mp hstart
  -- what is left of the text ends in the mark
  obtain ⟨x', c, rfl⟩ := (List.eq_nil_or_concat x).resolve_left hne
  rw [List.concat_eq_append] at hr hux
  rw [← List.append_assoc] at hux
  obtain ⟨rfl, hc⟩ := List.append_inj' hux rfl
  have hx' : q ∉ x' := fun hm => hu (List.mem_append_right _ hm)
  rw [← hc, List.append_assoc, List.append_assoc, List.singleton_append, List.singleton_append] at hr
  exact hend ⟨v, by rw [(eq_of_append_cons_eq hx' hw hr).1]⟩

/-- A word that ends in a mark is only found where the text has the mark, and there only if the
text before it ends in the word. -/
theorem strstr_none_of_one_mark {q : UInt8} {u s w : Bytes} (hu : q ∉ u) (hs : q ∉ s)
    (hend : ¬ w <:+ u) : strstr (u ++ q :: s) (w ++ [q]) = none := by
  cases hfind : strstr (u ++ q :: s) (w ++ [q]) with
  | none => rfl
  | some t =>
      exfalso
      obtain ⟨v, hv, ht⟩ := strstr_some hfind
      obtain ⟨r, hr⟩ := startsWith_iff.mp ht
      rw [hr, List.append_assoc, List.singleton_append, ← List.append_assoc] at hv
      have hcount := congrArg (List.count q) hv
      simp only [List.count_append, List.count_cons_self, List.count_eq_zero.mpr hu,
        List.count_eq_zero.mpr hs] at hcount
      have hv0 : q ∉ v ++ w := by
        rw [← List.count_eq_zero, List.count_append]
        omega
      exact hend ⟨v, (eq_of_append_cons_eq hu hv0 hv).1.symm⟩

/-! ## Quoted words

A scanner that looks for `"word"` in a text cannot tell a key from a value. It finds the
first piece between two consecutive quotes that is the word, so a text is searched piece by
piece. -/

/-- `word` between two marks. -/
def marked (q : UInt8) (word : Bytes) : Bytes := q :: (word ++ [q])

/-- A piece that is not the word is skipped, up to the mark that ends it. -/
theorem strstr_marked_skip {q : UInt8} {u a s w : Bytes} (hu : q ∉ u) (ha : q ∉ a)
    (hw : q ∉ w) (hne : a ≠ w) :
    strstr (u ++ q :: (a ++ q :: s)) (marked q w) = strstr (q :: s) (marked q w) := by
  have hhead : startsWith (q :: (a ++ q :: s)) (marked q w) = false := by
    rw [Bool.eq_false_iff]
    intro h
    obtain ⟨t, ht⟩ := startsWith_iff.mp h
    have hcut : a ++ q :: s = w ++ q :: t := by
      simpa [marked] using ht
    exact hne (eq_of_append_cons_eq ha hw hcut).1
  unfold marked at hhead ⊢
  rw [strstr_skip_head hu, strstr, if_neg (by rw [hhead]; decide), strstr_skip_head ha]

/-- A piece that is the word is found. -/
theorem strstr_marked_hit {q : UInt8} {u : Bytes} (hu : q ∉ u) (word s : Bytes) :
    strstr (u ++ q :: (word ++ q :: s)) (marked q word) = some (marked q word ++ s) := by
  have htext : q :: (word ++ q :: s) = marked q word ++ s := by simp [marked]
  unfold marked
  rw [strstr_skip_head hu]
  rw [htext]
  exact strstr_head (startsWith_append _ _)

end Lib
