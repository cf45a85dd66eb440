import Svgd.Lib.JsonLaws

/-!
# The decoder reads forward

What is left behind a piece of JSON is no longer than the text it was read from, and a
string is shorter than the text it was read from. So a text that was written for an object
with one string member has no other member that could carry a string of that length.
-/

namespace Lib

/-! ## Strings -/

theorem length_skipSpace_le (s : Bytes) : (skipSpace s).length ≤ s.length :=
  (List.dropWhile_suffix _).length_le

theorem parseHex4_length {s r : Bytes} {c : Nat} (h : parseHex4 s = some (c, r)) :
    s.length = r.length + 4 := by
  match s with
  | [] | [_] | [_, _] | [_, _, _] => simp [parseHex4] at h
  | _ :: _ :: _ :: _ :: s =>
      simp only [parseHex4] at h
      split at h
      · obtain rfl : s = r := congrArg Prod.snd (Option.some.inj h)
        rfl
      · cases h

theorem parseLowSurrogate_length {s r : Bytes} {c : Nat}
    (h : parseLowSurrogate s = some (c, r)) : r.length ≤ s.length := by
  match s with
  | [] | [_] => simp [parseLowSurrogate] at h
  | _ :: _ :: s =>
      simp only [parseLowSurrogate] at h
      split at h
      · split at h
        · rename_i lo t hhex
          split at h
          · obtain rfl : t = r := congrArg Prod.snd (Option.some.inj h)
            have := parseHex4_length hhex
            simp only [List.length_cons]
            omega
          · cases h
        · cases h
      · cases h

/-- An escape is no shorter than what it stands for. -/
theorem parseEscape_length {s x r : Bytes} (h : parseEscape s = some (x, r)) :
    x.length + r.length ≤ s.length := by
  cases s with
  | nil => cases h
  | cons e s =>
      rw [parseEscape] at h
      rw [List.length_cons]
      by_cases hu : e = ch 'u'
      · rw [if_pos hu] at h
        split at h
        · cases h
        rename_i c t hhex
        have hlen := parseHex4_length hhex
        have hchar := length_utf8_le c
        split at h
        · split at h
          · rename_i lo t' hlow
            obtain ⟨rfl, rfl⟩ := Prod.mk.inj (Option.some.inj h)
            have := parseLowSurrogate_length hlow
            have := length_utf8_le (0x10000 + (c - 0xD800) * 0x400 + (lo - 0xDC00))
            omega
          · obtain ⟨rfl, rfl⟩ := Prod.mk.inj (Option.some.inj h)
            omega
        · obtain ⟨rfl, rfl⟩ := Prod.mk.inj (Option.some.inj h)
          omega
      · rw [if_neg hu] at h
        obtain ⟨b, -, hb⟩ := Option.map_eq_some_iff.mp h
        obtain ⟨rfl, rfl⟩ := Prod.mk.inj hb
        rw [List.length_singleton]
        omega

/-- **A string and what follows it are shorter than the text, by the closing quote.** -/
theorem parseStringGo_length : ∀ (fuel : Nat) {s t r : Bytes},
    parseStringGo fuel s = some (t, r) → t.length + r.length < s.length := by
  intro fuel
  induction fuel with
  | zero => exact fun h => by simp [parseStringGo] at h
  | succ fuel ih =>
      intro s t r h
      cases s with
      | nil => simp [parseStringGo] at h
      | cons b s =>
          rw [parseStringGo] at h
          rw [List.length_cons]
          split at h
          · obtain ⟨rfl, rfl⟩ := Prod.mk.inj (Option.some.inj h)
            rw [List.length_nil]
            omega
          split at h
          · split at h
            · cases h
            rename_i x s' hescape
            obtain ⟨⟨t', r'⟩, hrest, heq⟩ := Option.map_eq_some_iff.mp h
            obtain ⟨rfl, rfl⟩ := Prod.mk.inj heq
            have := parseEscape_length hescape
            have := ih hrest
            rw [List.length_append]
            omega
          split at h
          · cases h
          · obtain ⟨⟨t', r'⟩, hrest, heq⟩ := Option.map_eq_some_iff.mp h
            obtain ⟨rfl, rfl⟩ := Prod.mk.inj heq
            have := ih hrest
            rw [List.length_cons]
            omega

theorem parseString_length {s t r : Bytes} (h : parseString s = some (t, r)) :
    t.length + r.length < s.length := parseStringGo_length _ h

/-! ## Numbers -/

theorem parseFrac_length {s f r : Bytes} (h : parseFrac s = some (f, r)) : r.length ≤ s.length := by
  unfold parseFrac at h
  split at h
  · dsimp only at h
    split at h
    · cases h
    · obtain ⟨-, rfl⟩ := Prod.mk.inj (Option.some.inj h)
      exact (List.dropWhile_suffix _).length_le.trans (List.drop_suffix _ _).length_le
  · obtain ⟨-, rfl⟩ := Prod.mk.inj (Option.some.inj h)
    exact Nat.le_refl _

theorem parseExp_length {s r : Bytes} {e : Int} (h : parseExp s = some (e, r)) :
    r.length ≤ s.length := by
  unfold parseExp at h
  split at h
  · dsimp only at h
    generalize ht : (if startsWith (s.drop 1) (str "-") ∨ startsWith (s.drop 1) (str "+") then
      s.drop 2 else s.drop 1) = t at h
    have hle : t.length ≤ s.length := by
      rw [← ht]
      split
      · exact (List.drop_suffix _ _).length_le
      · exact (List.drop_suffix _ _).length_le
    by_cases hds : t.takeWhile isDigit = []
    · rw [if_pos hds] at h
      cases h
    · rw [if_neg hds] at h
      obtain ⟨-, rfl⟩ := Prod.mk.inj (Option.some.inj h)
      exact (List.dropWhile_suffix _).length_le.trans hle
  · obtain ⟨-, rfl⟩ := Prod.mk.inj (Option.some.inj h)
    exact Nat.le_refl _

theorem parseNumber_length {s r : Bytes} {v : Json} (h : parseNumber s = some (v, r)) :
    r.length ≤ s.length ∧ ∃ q, v = .num q := by
  unfold parseNumber at h
  dsimp only at h
  generalize ht : (if startsWith s (str "-") then s.drop 1 else s) = t at h
  have hle : t.length ≤ s.length := by
    rw [← ht]
    split
    · exact (List.drop_suffix _ _).length_le
    · exact Nat.le_refl _
  split at h
  · cases h
  split at h
  · cases h
  rename_i frac s₁ hfrac
  split at h
  · cases h
  rename_i e s₂ hexp
  obtain ⟨rfl, rfl⟩ := Prod.mk.inj (Option.some.inj h)
  have h₁ := parseFrac_length hfrac
  have h₂ := parseExp_length hexp
  have h₀ := (List.dropWhile_suffix (l := t) isDigit).length_le
  exact ⟨by omega, _, rfl⟩

/-! ## Values -/

section Values

/-- What a value may be that was read from the text, with the rest behind it. -/
def Shorter (s : Bytes) (v : Json) (r : Bytes) : Prop :=
  r.length ≤ s.length ∧ ∀ t, v = .str t → t.length < s.length

/-- What the members may be that were read from the text, with the rest behind them. -/
def ShorterMembers (s : Bytes) (ms : List (Bytes × Json)) (r : Bytes) : Prop :=
  r.length ≤ s.length ∧ ∀ k t, (k, Json.str t) ∈ ms → t.length < s.length

/-- A text in front of which something was skipped. -/
theorem skipSpace_eq_cons {s u : Bytes} {b : UInt8} (h : skipSpace s = b :: u) :
    u.length < s.length := by
  have := length_skipSpace_le s
  rw [h, List.length_cons] at this
  omega

variable {n : Nat}
  (hvalue : ∀ {s r : Bytes} {v : Json}, parseValue n s = some (v, r) → Shorter s v r)
  (hitems : ∀ {s r : Bytes} {l : List Json}, parseItems n s = some (l, r) → r.length ≤ s.length)
  (hmembers : ∀ {s r : Bytes} {ms : List (Bytes × Json)}, parseMembers n s = some (ms, r) →
    ShorterMembers s ms r)

include hitems hmembers in
theorem parseValue_shorter {s r : Bytes} {v : Json} (h : parseValue (n + 1) s = some (v, r)) :
    Shorter s v r := by
  rw [parseValue] at h
  split at h
  · cases h
  rename_i b u hskip
  have hlt := skipSpace_eq_cons hskip
  have hspace := length_skipSpace_le u
  have hdrop : ∀ k, (u.drop k).length ≤ u.length := fun k => (List.drop_suffix k u).length_le
  have hone := (List.drop_suffix 1 (skipSpace u)).length_le
  split at h
  · obtain ⟨⟨t, r'⟩, hread, heq⟩ := Option.map_eq_some_iff.mp h
    obtain ⟨rfl, rfl⟩ := Prod.mk.inj heq
    have := parseString_length hread
    refine ⟨by omega, fun t' ht' => ?_⟩
    obtain rfl := Json.str.inj ht'
    omega
  split at h
  · split at h
    · obtain ⟨rfl, rfl⟩ := Prod.mk.inj (Option.some.inj h)
      exact ⟨by omega, fun t ht => by cases ht⟩
    · obtain ⟨⟨l, r'⟩, hread, heq⟩ := Option.map_eq_some_iff.mp h
      obtain ⟨rfl, rfl⟩ := Prod.mk.inj heq
      have := hitems hread
      exact ⟨by omega, fun t ht => by cases ht⟩
  split at h
  · split at h
    · obtain ⟨rfl, rfl⟩ := Prod.mk.inj (Option.some.inj h)
      exact ⟨by omega, fun t ht => by cases ht⟩
    · obtain ⟨⟨l, r'⟩, hread, heq⟩ := Option.map_eq_some_iff.mp h
      obtain ⟨rfl, rfl⟩ := Prod.mk.inj heq
      have := (hmembers hread).1
      exact ⟨by omega, fun t ht => by cases ht⟩
  split at h
  · obtain ⟨rfl, rfl⟩ := Prod.mk.inj (Option.some.inj h)
    exact ⟨(hdrop 3).trans hlt.le, fun t ht => by cases ht⟩
  split at h
  · obtain ⟨rfl, rfl⟩ := Prod.mk.inj (Option.some.inj h)
    exact ⟨(hdrop 3).trans hlt.le, fun t ht => by cases ht⟩
  split at h
  · obtain ⟨rfl, rfl⟩ := Prod.mk.inj (Option.some.inj h)
    exact ⟨(hdrop 4).trans hlt.le, fun t ht => by cases ht⟩
  · obtain ⟨hle, q, rfl⟩ := parseNumber_length h
    rw [List.length_cons] at hle
    exact ⟨by omega, fun t ht => by cases ht⟩

/-- Behind a value stand the closing bracket, or a comma and the other elements. -/
theorem afterItem_cases {β : Type} {close : UInt8} {mk : Json → β}
    {more : Bytes → Option (List β × Bytes)} {p : Option (Json × Bytes)} {l : List β} {r : Bytes}
    (h : afterItem close mk more p = some (l, r)) :
    ∃ v s, p = some (v, s) ∧ ∃ u, (skipSpace s = close :: u ∧ l = [mk v] ∧ r = u)
      ∨ (skipSpace s = ch ',' :: u ∧ ∃ l', more u = some (l', r) ∧ l = mk v :: l') := by
  cases p with
  | none => cases h
  | some w =>
      obtain ⟨v, s⟩ := w
      refine ⟨v, s, rfl, ?_⟩
      unfold afterItem at h
      dsimp only at h
      split at h
      · cases h
      rename_i b u hskip
      refine ⟨u, ?_⟩
      split at h
      · rename_i hb
        obtain ⟨⟨l', r'⟩, hmore, heq⟩ := Option.map_eq_some_iff.mp h
        obtain ⟨rfl, rfl⟩ := Prod.mk.inj heq
        exact .inr ⟨hb ▸ hskip, l', hmore, rfl⟩
      split at h
      · rename_i hb
        obtain ⟨rfl, rfl⟩ := Prod.mk.inj (Option.some.inj h)
        exact .inl ⟨hb ▸ hskip, rfl, rfl⟩
      · cases h

include hvalue hitems in
theorem parseItems_shorter {s r : Bytes} {l : List Json} (h : parseItems (n + 1) s = some (l, r)) :
    r.length ≤ s.length := by
  rw [parseItems_succ] at h
  obtain ⟨v, s₁, hread, u, ⟨hskip, -, rfl⟩ | ⟨hskip, l', hmore, -⟩⟩ := afterItem_cases h
  · have := (hvalue hread).1
    have := skipSpace_eq_cons hskip
    omega
  · have := (hvalue hread).1
    have := skipSpace_eq_cons hskip
    have := hitems hmore
    omega

/-- A member is a string, a colon and a value. -/
theorem parseMembers_succ {s r : Bytes} {ms : List (Bytes × Json)}
    (h : parseMembers (n + 1) s = some (ms, r)) :
    ∃ key u, u.length < s.length
      ∧ afterItem (ch '\x7d') (key, ·) (parseMembers n) (parseValue n u) = some (ms, r) := by
  rw [parseMembers] at h
  split at h
  · cases h
  rename_i q s₁ hskip₁
  split at h
  · split at h
    · cases h
    rename_i key s₂ hkey
    split at h
    · cases h
    rename_i c s₃ hskip₂
    split at h
    · have := skipSpace_eq_cons hskip₁
      have := parseString_length hkey
      have := skipSpace_eq_cons hskip₂
      refine ⟨key, s₃, by omega, ?_⟩
      rw [← h]
      cases parseValue n s₃ <;> rfl
    · cases h
  · cases h

include hvalue hmembers in
theorem parseMembers_shorter {s r : Bytes} {ms : List (Bytes × Json)}
    (h : parseMembers (n + 1) s = some (ms, r)) : ShorterMembers s ms r := by
  obtain ⟨key, u, hlt, h⟩ := parseMembers_succ h
  obtain ⟨v, s₁, hread, u', ⟨hskip, rfl, rfl⟩ | ⟨hskip, ms', hmore, rfl⟩⟩ := afterItem_cases h
  · obtain ⟨hle, hstr⟩ := hvalue hread
    have := skipSpace_eq_cons hskip
    refine ⟨by omega, fun k t hmem => ?_⟩
    obtain ⟨-, ht⟩ := Prod.mk.inj (List.mem_singleton.mp hmem)
    exact (hstr t ht.symm).trans hlt
  · obtain ⟨hle, hstr⟩ := hvalue hread
    obtain ⟨hle', hstr'⟩ := hmembers hmore
    have := skipSpace_eq_cons hskip
    refine ⟨by omega, fun k t hmem => ?_⟩
    rcases List.mem_cons.mp hmem with heq | hmem
    · obtain ⟨-, ht⟩ := Prod.mk.inj heq
      exact (hstr t ht.symm).trans hlt
    · have := hstr' k t hmem
      omega

end Values

/-- **What is read from a text is shorter than the text.** -/
theorem parse_shorter : ∀ n : Nat,
    (∀ {s r : Bytes} {v : Json}, parseValue n s = some (v, r) → Shorter s v r)
    ∧ (∀ {s r : Bytes} {l : List Json}, parseItems n s = some (l, r) → r.length ≤ s.length)
    ∧ ∀ {s r : Bytes} {ms : List (Bytes × Json)}, parseMembers n s = some (ms, r) →
        ShorterMembers s ms r := by
  intro n
  induction n with
  | zero => exact ⟨fun h => by simp [parseValue] at h, fun h => by simp [parseItems] at h,
      fun h => by simp [parseMembers] at h⟩
  | succ n ih =>
      obtain ⟨hvalue, hitems, hmembers⟩ := ih
      exact ⟨parseValue_shorter hitems hmembers, parseItems_shorter hvalue hitems,
        parseMembers_shorter hvalue hmembers⟩

/-! ## An object with one string member -/

/-- The value of a member is one of the values with its key. -/
theorem member_mem {ms : List (Bytes × Json)} {key : Bytes} {v : Json}
    (h : Json.member ms key = some v) : (key, v) ∈ ms := by
  unfold Json.member at h
  obtain ⟨⟨k, w⟩, hfind, rfl⟩ := Option.map_eq_some_iff.mp h
  have hkey : k = key := by
    have := List.find?_some hfind
    exact beq_iff_eq.mp this
  exact hkey ▸ List.mem_reverse.mp (List.mem_of_find?_eq_some hfind)

/-- A text that starts with a string reads as a string. -/
theorem parseValue_quoted {n : Nat} {p rest s : Bytes} {v : Json}
    (h : parseValue (n + 1) (quoted p ++ rest) = some (v, s)) :
    ∃ d, v = .str d ∧ parseString (p ++ ch '"' :: rest) = some (d, s) := by
  rw [quoted, List.cons_append, List.append_assoc, List.singleton_append, parseValue,
    skipSpace_cons (by decide)] at h
  dsimp only at h
  rw [if_pos rfl] at h
  obtain ⟨⟨d, s'⟩, hread, heq⟩ := Option.map_eq_some_iff.mp h
  obtain ⟨rfl, rfl⟩ := Prod.mk.inj heq
  exact ⟨d, rfl, hread⟩

theorem validUtf8_of_decode {s : Bytes} {v : Json} (h : decodeJson s = some v) :
    validUtf8 s = true := by
  by_contra hvalid
  unfold decodeJson at h
  rw [if_neg hvalid] at h
  cases h

/-- What is read as an object starts with a member. -/
theorem parseMembers_of_decode {m : Member} {rest : Bytes} {ms : List (Bytes × Json)}
    (h : decodeJson (ch '\x7b' :: (m.full ++ rest)) = some (.obj ms)) :
    ∃ r, parseMembers (m.full ++ rest).length.succ (m.full ++ rest) = some (ms, r) := by
  unfold decodeJson at h
  split at h
  · rw [List.length_cons, parseValue, skipSpace_cons (by decide)] at h
    dsimp only at h
    have hopen : startsWith (skipSpace (m.full ++ rest)) (str "\x7d") = false := by
      unfold Member.full
      rw [List.cons_append, skipSpace_cons (by decide)]
      rfl
    rw [if_neg (by decide), if_neg (by decide), if_pos rfl, if_neg (by rw [hopen]; decide)] at h
    split at h
    · rename_i v r hread
      obtain ⟨⟨l, r'⟩, hms, heq⟩ := Option.map_eq_some_iff.mp hread
      obtain ⟨rfl, rfl⟩ := Prod.mk.inj heq
      split at h
      · obtain rfl := Json.obj.inj (Option.some.inj h)
        exact ⟨r', hms⟩
      · cases h
    · cases h
  · cases h

/-- The member of a key that is written as a string. -/
def stringMember (key p : Bytes) (hkey : JsonPlain key) : Member :=
  ⟨key, quoted p, .str p, JsonPlain p, hkey, readsAs_string p⟩

/-- **A text written as an object with one string member: if what is read has that member, with
the string in it, then the string needed no escape and the text was closed.** -/
theorem plain_of_member {key p rest : Bytes} {ms : List (Bytes × Json)} (hkey : JsonPlain key)
    (hrest : rest.length ≤ 1)
    (h : decodeJson (ch '\x7b' :: ((stringMember key p hkey).full ++ rest)) = some (.obj ms))
    (hp : Json.member ms key = some (.str p)) : JsonPlain p ∧ rest = [ch '\x7d'] := by
  obtain ⟨r, hms⟩ := parseMembers_of_decode h
  rw [parseMembers_full] at hms
  obtain ⟨v, s, hread, u, hbehind⟩ := afterItem_cases hms
  have hpos : ∃ k, ((stringMember key p hkey).full ++ rest).length = k + 1 := by
    refine ⟨((stringMember key p hkey).full ++ rest).length - 1, ?_⟩
    unfold Member.full
    rw [List.cons_append, List.length_cons]
    omega
  obtain ⟨k, hk⟩ := hpos
  rw [hk] at hread hbehind
  obtain ⟨d, rfl, hstring⟩ := parseValue_quoted hread
  have hlen := parseString_length hstring
  rw [List.length_append, List.length_cons] at hlen
  -- the string that was read is the one written, unless a later member carries it
  have hlater : ∀ ms' t, parseMembers (k + 1) u = some (ms', r) → skipSpace s = ch ',' :: u →
      (key, Json.str t) ∈ ms' → t ≠ p := by
    rintro ms' t hmore hskip hmem rfl
    have := skipSpace_eq_cons hskip
    have := ((parse_shorter (k + 1)).2.2 hmore).2 key t hmem
    omega
  have hread_eq : d = p → JsonPlain p ∧ s = rest := by
    rintro rfl
    exact parseString_iff.mp hstring
  obtain ⟨hskip, rfl, -⟩ | ⟨hskip, ms', hmore, rfl⟩ := hbehind
  · obtain ⟨-, ht⟩ := Prod.mk.inj (List.mem_singleton.mp (member_mem hp))
    obtain ⟨hplain, rfl⟩ := hread_eq (Json.str.inj ht).symm
    have hsuffix : ch '\x7d' :: u <:+ s := hskip ▸ List.dropWhile_suffix _
    have hle := hsuffix.length_le
    rw [List.length_cons] at hle
    obtain rfl : u = [] := List.length_eq_zero_iff.mp (by omega)
    exact ⟨hplain, (hsuffix.eq_of_length (by rw [List.length_singleton]; omega)).symm⟩
  · rcases List.mem_cons.mp (member_mem hp) with hhead | hmem
    · obtain ⟨-, ht⟩ := Prod.mk.inj hhead
      obtain ⟨-, rfl⟩ := hread_eq (Json.str.inj ht).symm
      -- a comma would be all that is left
      have hlt := skipSpace_eq_cons hskip
      obtain rfl : u = [] := List.length_eq_zero_iff.mp (by omega)
      simp [parseMembers, skipSpace] at hmore
    · exact absurd rfl (hlater ms' p hmore hskip hmem)

end Lib
