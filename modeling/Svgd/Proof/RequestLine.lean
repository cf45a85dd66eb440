import Svgd.Backend.Server

/-!
# Which request lines the backend accepts

`http_parse_request` looks for the end of the line, for two spaces and for a question mark,
each time in what the search before it has left, and checks a length after each. The limit
on the whole target comes first, but it is the sum of the limits on its two parts, and the
question mark between them takes the byte that the terminators leave over. So a line is
accepted exactly if each part fits its own field, and nothing in it is cut.
-/

namespace Svgd.Backend

open Lib

/-- The first line of a buffer: the text before its first carriage return, or before its first
newline if it has no carriage return. -/
def IsFirstLine (raw line : Bytes) : Prop :=
  ∃ stop rest, raw = line ++ stop :: rest ∧ stop ∉ line
    ∧ (stop = ch '\r' ∨ (stop = ch '\n' ∧ ch '\r' ∉ raw))

/-- The part of a target before its first question mark. -/
def pathOfTarget (t : Bytes) : Bytes := t.takeWhile (· ≠ ch '?')

/-- The part behind it. -/
def queryOfTarget (t : Bytes) : Bytes := (t.dropWhile (· ≠ ch '?')).drop 1

/-! ## The searches -/

theorem lineEnd_iff {raw line : Bytes} :
    (∃ stop, lineEnd raw = some stop ∧ upTo raw stop = line) ↔ IsFirstLine raw line := by
  unfold lineEnd
  constructor
  · rintro ⟨stop, hstop, rfl⟩
    cases hcr : strchr raw (ch '\r') with
    | some t =>
        rw [hcr] at hstop
        obtain rfl := Option.some.inj hstop
        obtain ⟨p, rest, rfl, rfl, hp⟩ := strchr_some hcr
        exact ⟨ch '\r', rest, by rw [upTo_append], by rwa [upTo_append], Or.inl rfl⟩
    | none =>
        rw [hcr] at hstop
        obtain ⟨p, rest, rfl, rfl, hp⟩ := strchr_some hstop
        exact ⟨ch '\n', rest, by rw [upTo_append], by rwa [upTo_append],
          Or.inr ⟨rfl, strchr_eq_none.mp hcr⟩⟩
  · rintro ⟨stop, rest, rfl, hline, hstop⟩
    rcases hstop with rfl | ⟨rfl, hcr⟩
    · exact ⟨_, by rw [strchr_append hline], upTo_append _ _⟩
    · rw [strchr_eq_none.mpr hcr]
      exact ⟨_, strchr_append hline, upTo_append _ _⟩

theorem target_split {p q : Bytes} (hp : ch '?' ∉ p) :
    pathOfTarget (p ++ ch '?' :: q) = p ∧ queryOfTarget (p ++ ch '?' :: q) = q := by
  have hne : ∀ b ∈ p, decide (b ≠ ch '?') = true := by
    intro b hb
    exact decide_eq_true fun he => hp (he ▸ hb)
  unfold pathOfTarget queryOfTarget
  rw [takeWhile_token hne (by decide), dropWhile_token hne (by decide)]
  exact ⟨rfl, rfl⟩

theorem target_whole {t : Bytes} (ht : ch '?' ∉ t) : pathOfTarget t = t ∧ queryOfTarget t = [] := by
  have hne : ∀ b ∈ t, decide (b ≠ ch '?') = true := by
    intro b hb
    exact decide_eq_true fun he => ht (he ▸ hb)
  unfold pathOfTarget queryOfTarget
  rw [List.takeWhile_eq_self_iff.mpr hne, List.dropWhile_eq_nil_iff.mpr hne]
  exact ⟨rfl, rfl⟩

/-- A target is accepted if its two parts fit: the limit on the whole follows. -/
theorem httpSplitTarget_iff {m t : Bytes} (hm : (0 : UInt8) ∉ m) (ht : (0 : UInt8) ∉ t)
    {req : HttpRequest} :
    httpSplitTarget m t = some req
      ↔ (pathOfTarget t).length ≤ 255 ∧ (queryOfTarget t).length ≤ 511
        ∧ req = ⟨m, pathOfTarget t, queryOfTarget t⟩ := by
  unfold httpSplitTarget httpMaxPath httpMaxQuery
  rw [cstr_eq_self hm]
  cases hq : strchr t (ch '?') with
  | some s =>
      obtain ⟨p, q, rfl, rfl, hp⟩ := strchr_some hq
      obtain ⟨hpath, hquery⟩ := target_split (q := q) hp
      rw [List.mem_append, List.mem_cons, not_or, not_or] at ht
      dsimp only
      rw [upTo_append, List.drop_succ_cons, List.drop_zero, hpath, hquery, cstr_eq_self ht.1,
        cstr_eq_self ht.2.2, List.length_append, List.length_cons]
      by_cases hfits : p.length ≤ 255 ∧ q.length ≤ 511
      · rw [if_neg (by omega), if_neg (by omega), if_neg (by omega), Option.some.injEq, eq_comm]
        exact ⟨fun h => ⟨hfits.1, hfits.2, h⟩, fun h => h.2.2⟩
      · -- one of the three limits is passed
        constructor
        · intro h
          split at h
          · cases h
          split at h
          · cases h
          split at h
          · cases h
          · exact absurd ⟨by omega, by omega⟩ hfits
        · exact fun h => absurd ⟨h.1, h.2.1⟩ hfits
  | none =>
      obtain ⟨hpath, hquery⟩ := target_whole (strchr_eq_none.mp hq)
      dsimp only
      rw [hpath, hquery, cstr_eq_self ht]
      by_cases hfits : t.length ≤ 255
      · rw [if_neg (by omega), if_neg (by omega), Option.some.injEq, eq_comm]
        exact ⟨fun h => ⟨hfits, by simp, h⟩, fun h => h.2.2⟩
      · constructor
        · intro h
          split at h
          · cases h
          split at h
          · cases h
          · exact absurd (by omega) hfits
        · exact fun h => absurd h.1 hfits

/-- A line is accepted if it has two spaces, a method that fits, and a target that does. -/
theorem httpParseLine_iff {line : Bytes} {req : HttpRequest} :
    httpParseLine line = some req
      ↔ ∃ m t rest, line = m ++ ch ' ' :: (t ++ ch ' ' :: rest) ∧ ch ' ' ∉ m ∧ ch ' ' ∉ t
        ∧ m.length ≤ 7 ∧ httpSplitTarget m t = some req := by
  unfold httpParseLine httpMaxMethod
  constructor
  · intro h
    split at h
    · cases h
    rename_i space1 hspace1
    obtain ⟨m, u, rfl, rfl, hm⟩ := strchr_some hspace1
    dsimp only at h
    rw [upTo_append, List.drop_succ_cons, List.drop_zero] at h
    split at h
    · cases h
    rename_i hlen
    split at h
    · cases h
    rename_i space2 hspace2
    obtain ⟨t, rest, rfl, rfl, ht⟩ := strchr_some hspace2
    rw [upTo_append] at h
    exact ⟨m, t, rest, rfl, hm, ht, by omega, h⟩
  · rintro ⟨m, t, rest, rfl, hm, ht, hlen, h⟩
    rw [strchr_append hm]
    dsimp only
    rw [upTo_append, if_neg (by omega), List.drop_succ_cons, List.drop_zero, strchr_append ht]
    dsimp only
    rw [upTo_append]
    exact h

/--
**Exactly the request lines that fit are accepted, and they are read as they are.**

For a buffer without NUL, `http_parse_request` yields a request if and only if the buffer
has a first line, that line is a method, a space, a target, a space and a rest, neither of
the two words has a space, and the method, the path and the query have at most 7, 255 and
511 bytes. The request then holds these three texts whole.
-/
theorem http_request_line_iff {raw : Bytes} (hnul : (0 : UInt8) ∉ raw) (req : HttpRequest) :
    httpParseRequest raw = some req
      ↔ ∃ line m t rest, IsFirstLine raw line ∧ line = m ++ ch ' ' :: (t ++ ch ' ' :: rest)
        ∧ ch ' ' ∉ m ∧ ch ' ' ∉ t
        ∧ m.length ≤ 7 ∧ (pathOfTarget t).length ≤ 255 ∧ (queryOfTarget t).length ≤ 511
        ∧ req = ⟨m, pathOfTarget t, queryOfTarget t⟩ := by
  have hparse : httpParseRequest raw = some req
      ↔ ∃ line, IsFirstLine raw line ∧ httpParseLine line = some req := by
    unfold httpParseRequest
    constructor
    · intro h
      split at h
      · cases h
      · rename_i stop hstop
        exact ⟨_, lineEnd_iff.mp ⟨stop, hstop, rfl⟩, h⟩
    · rintro ⟨line, hline, h⟩
      obtain ⟨stop, hstop, rfl⟩ := lineEnd_iff.mpr hline
      rw [hstop]
      exact h
  rw [hparse]
  constructor
  · rintro ⟨line, hline, h⟩
    obtain ⟨m, t, rest, rfl, hm, ht, hlen, h⟩ := httpParseLine_iff.mp h
    obtain ⟨stop, tail, rfl, -, -⟩ := id hline
    simp only [List.mem_append, List.mem_cons, not_or] at hnul
    obtain ⟨⟨hm0, -, ht0, -⟩, -⟩ := hnul
    obtain ⟨hpath, hquery, rfl⟩ := (httpSplitTarget_iff hm0 ht0).mp h
    exact ⟨_, m, t, rest, hline, rfl, hm, ht, hlen, hpath, hquery, rfl⟩
  · rintro ⟨_, m, t, rest, hline, rfl, hm, ht, hlen, hpath, hquery, rfl⟩
    obtain ⟨stop, tail, rfl, -, -⟩ := id hline
    simp only [List.mem_append, List.mem_cons, not_or] at hnul
    obtain ⟨⟨hm0, -, ht0, -⟩, -⟩ := hnul
    exact ⟨_, hline, httpParseLine_iff.mpr ⟨m, t, rest, rfl, hm, ht, hlen,
      (httpSplitTarget_iff hm0 ht0).mpr ⟨hpath, hquery, rfl⟩⟩⟩

/-- A target whose path and query have their full lengths, 767 bytes with the question mark. -/
def longTarget : Bytes := List.replicate 255 (ch 'a') ++ ch '?' :: List.replicate 511 (ch 'b')

/-- A request line with this target. -/
def longRequestLine : Bytes := str "GET" ++ ch ' ' :: (longTarget ++ ch ' ' :: str "HTTP/1.1")

/-- The longest target there is room for. -/
theorem http_request_line_longest :
    httpParseRequest (longRequestLine ++ ch '\r' :: str "\n")
      = some ⟨str "GET", List.replicate 255 (ch 'a'), List.replicate 511 (ch 'b')⟩ := by
  have hnul : (0 : UInt8) ∉ longRequestLine ++ ch '\r' :: str "\n" := by decide +kernel
  have hline : IsFirstLine (longRequestLine ++ ch '\r' :: str "\n") longRequestLine :=
    ⟨ch '\r', str "\n", rfl, by decide +kernel, Or.inl rfl⟩
  have hspaces : ch ' ' ∉ str "GET" ∧ ch ' ' ∉ longTarget := by decide +kernel
  have hparts : pathOfTarget longTarget = List.replicate 255 (ch 'a')
      ∧ queryOfTarget longTarget = List.replicate 511 (ch 'b') := target_split (by decide +kernel)
  refine (http_request_line_iff hnul _).mpr ⟨longRequestLine, str "GET", longTarget, str "HTTP/1.1", hline,
    rfl, hspaces.1, hspaces.2, by decide, ?_, ?_, ?_⟩
  · rw [hparts.1, List.length_replicate]
  · rw [hparts.2, List.length_replicate]
  · rw [hparts.1, hparts.2]

end Svgd.Backend
