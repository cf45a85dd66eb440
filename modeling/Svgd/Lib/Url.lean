import Svgd.Lib.CString

/-!
# URLs as a browser sends them

What a page hands to the browser as a path-absolute URL, and what the browser puts on the
request line. White space at the ends and line ends anywhere are dropped, a fragment is not
sent, a backslash counts as a slash, dot segments are resolved, and the bytes a URL may not
contain are percent-encoded. A text is taken by its UTF-8 bytes; every byte of a character
outside ASCII is encoded.

The lemmas say which bytes the result can contain and that a URL of permitted bytes without
dot segments is sent as it is.
-/

namespace Lib.Url

open Lib

/-- The hexadecimal digit of a number below sixteen. -/
def hexUpper (d : Nat) : UInt8 := UInt8.ofNat (if d < 10 then 48 + d else 55 + d)

/-- `%XX`. -/
def percentByte (b : UInt8) : Bytes := [ch '%', hexUpper (b.toNat / 16), hexUpper (b.toNat % 16)]

/-- The text with the bytes of a set encoded. -/
def percentEncode (set : UInt8 → Bool) (s : Bytes) : Bytes :=
  s.flatMap fun b => if set b then percentByte b else [b]

/-- What is encoded everywhere: controls, and all that is not ASCII. -/
def controlSet (b : UInt8) : Bool := b.toNat < 32 || 126 < b.toNat

/-- What is encoded in the path. -/
def pathSet (b : UInt8) : Bool := controlSet b || (str " \"#<>?^`\x7b\x7d").contains b

/-- What is encoded in the query of an `http` URL. -/
def querySet (b : UInt8) : Bool := controlSet b || (str " \"#<>'").contains b

/-! ## The parts of the target -/

/-- White space at the ends, and line ends and tabs everywhere, are dropped. -/
def clean (input : Bytes) : Bytes :=
  let trimmed := ((input.dropWhile (·.toNat ≤ 32)).reverse.dropWhile (·.toNat ≤ 32)).reverse
  trimmed.filter fun b => !(str "\t\n\r").contains b

/-- What is left without the fragment. -/
def unfragmented (input : Bytes) : Bytes := (clean input).takeWhile (· ≠ ch '#')

/-- What ends a segment of the path. -/
def isSlash (b : UInt8) : Bool := b == ch '/' || b == ch '\\'

/-- The segments of a path. -/
def segments : Bytes → List Bytes
  | [] => [[]]
  | b :: s =>
      if isSlash b then [] :: segments s
      else
        match segments s with
        | [] => [[b]]
        | seg :: rest => (b :: seg) :: rest

/-- A letter in lower case. -/
def lower (b : UInt8) : UInt8 := if 65 ≤ b.toNat ∧ b.toNat ≤ 90 then b + 32 else b

/-- A segment that stands for the directory itself. -/
def isDot (s : Bytes) : Bool := [str ".", str "%2e"].contains (s.map lower)

/-- A segment that stands for the directory above. -/
def isDotDot (s : Bytes) : Bool :=
  [str "..", str ".%2e", str "%2e.", str "%2e%2e"].contains (s.map lower)

/-- The segments behind `path`, with the dot segments resolved. -/
def resolve : List Bytes → List Bytes → List Bytes
  | path, [] => path
  | path, [s] =>
      if isDotDot s then path.dropLast ++ [[]]
      else if isDot s then path ++ [[]]
      else path ++ [s]
  | path, s :: t :: rest =>
      if isDotDot s then resolve path.dropLast (t :: rest)
      else if isDot s then resolve path (t :: rest)
      else resolve (path ++ [s]) (t :: rest)

/-- The path that is sent for a path-absolute URL. -/
def pathText (input : Bytes) : Bytes :=
  let path := (unfragmented input).takeWhile (· ≠ ch '?')
  (resolve [] ((segments (path.drop 1)).map (percentEncode pathSet))).flatMap (ch '/' :: ·)

/-- The query that is sent, with its question mark. -/
def queryText (input : Bytes) : Bytes :=
  match (unfragmented input).dropWhile (· ≠ ch '?') with
  | [] => []
  | mark :: q => mark :: percentEncode querySet q

/-- The target on the request line. -/
def target (input : Bytes) : Bytes := pathText input ++ queryText input

/-! ## Encoding -/

section

variable {set : UInt8 → Bool} {s : Bytes} {b : UInt8}

/-- What an encoded byte consists of. -/
theorem mem_percentByte {c : UInt8} (h : c ∈ percentByte b) :
    c = ch '%' ∨ ∃ d < 16, c = hexUpper d := by
  have hb := b.toNat_lt
  unfold percentByte at h
  rw [List.mem_cons, List.mem_cons, List.mem_singleton] at h
  rcases h with h | h | h
  · exact Or.inl h
  · exact Or.inr ⟨_, by omega, h⟩
  · exact Or.inr ⟨_, by omega, h⟩

/-- A property of the bytes that are kept and of the bytes of codes holds of the result. -/
theorem forall_percentEncode {P : UInt8 → Prop} (hkept : ∀ b ∈ s, set b = false → P b)
    (hpercent : P (ch '%')) (hdigit : ∀ d < 16, P (hexUpper d)) : ∀ b ∈ percentEncode set s, P b := by
  intro b hb
  unfold percentEncode at hb
  obtain ⟨c, hc, hbc⟩ := List.mem_flatMap.mp hb
  split at hbc
  · rcases mem_percentByte hbc with rfl | ⟨d, hd, rfl⟩
    · exact hpercent
    · exact hdigit d hd
  · rename_i hset
    rw [List.mem_singleton.mp hbc]
    exact hkept c hc (by simpa using hset)

/-- A text without bytes of the set is left alone. -/
theorem percentEncode_eq_self (h : ∀ b ∈ s, set b = false) : percentEncode set s = s := by
  induction s with
  | nil => rfl
  | cons b s ih =>
      unfold percentEncode at ih ⊢
      rw [List.flatMap_cons, h b (by simp), ih fun c hc => h c (by simp [hc])]
      rfl

theorem percentEncode_append (set : UInt8 → Bool) (s t : Bytes) :
    percentEncode set (s ++ t) = percentEncode set s ++ percentEncode set t := List.flatMap_append

theorem percentEncode_cons (set : UInt8 → Bool) (b : UInt8) (s : Bytes) :
    percentEncode set (b :: s) = (if set b then percentByte b else [b]) ++ percentEncode set s :=
  List.flatMap_cons

theorem length_percentByte (b : UInt8) : (percentByte b).length = 3 := rfl

theorem length_le_percentEncode (set : UInt8 → Bool) (s : Bytes) :
    s.length ≤ (percentEncode set s).length := by
  induction s with
  | nil => exact Nat.zero_le _
  | cons b s ih =>
      rw [percentEncode_cons, List.length_append, List.length_cons]
      split
      · rw [length_percentByte]
        omega
      · rw [List.length_singleton]
        omega

/-- And only such a text. -/
theorem percentEncode_eq_self_iff : percentEncode set s = s ↔ ∀ b ∈ s, set b = false := by
  refine ⟨fun h => ?_, percentEncode_eq_self⟩
  by_contra hsome
  push Not at hsome
  obtain ⟨b, hb, hset⟩ := hsome
  obtain ⟨u, v, rfl⟩ := List.append_of_mem hb
  -- a code is longer than its byte, and nothing gets shorter
  have hlen := congrArg List.length h
  have hu := length_le_percentEncode set u
  have hv := length_le_percentEncode set v
  rw [percentEncode_append, percentEncode_cons, if_pos (by simpa using hset), List.length_append,
    List.length_append, length_percentByte, List.length_append, List.length_cons] at hlen
  omega

end

/-! ## Segments -/

theorem not_isSlash_of_mem {s seg : Bytes} (h : seg ∈ segments s) : ∀ b ∈ seg, isSlash b = false := by
  induction s generalizing seg with
  | nil =>
      rw [segments, List.mem_singleton] at h
      simp [h]
  | cons c s ih =>
      rw [segments] at h
      split at h
      · rcases List.mem_cons.mp h with rfl | h
        · simp
        · exact ih h
      · rename_i hc
        split at h
        · rw [List.mem_singleton.mp h]
          intro b hb
          rw [List.mem_singleton.mp hb]
          simpa using hc
        · rename_i seg' rest hs
          rcases List.mem_cons.mp h with rfl | h
          · intro b hb
            rcases List.mem_cons.mp hb with rfl | hb
            · simpa using hc
            · exact ih (by rw [hs]; exact List.mem_cons_self) b hb
          · exact ih (by rw [hs]; exact List.mem_cons_of_mem _ h)

/-- A text without slashes is one segment. -/
theorem segments_single {a : Bytes} (ha : ∀ b ∈ a, isSlash b = false) : segments a = [a] := by
  induction a with
  | nil => rfl
  | cons b a ih =>
      rw [segments, if_neg (by simp [ha b (by simp)]), ih fun c hc => ha c (by simp [hc])]

/-- A slash ends a segment. -/
theorem segments_append {a : Bytes} (ha : ∀ b ∈ a, isSlash b = false) (s : Bytes) :
    segments (a ++ ch '/' :: s) = a :: segments s := by
  induction a with
  | nil => rw [List.nil_append, segments, if_pos (by decide)]
  | cons b a ih =>
      rw [List.cons_append, segments, if_neg (by simp [ha b (by simp)]),
        ih fun c hc => ha c (by simp [hc])]

/-- Resolving adds nothing but empty segments. -/
theorem mem_resolve {seg : Bytes} {segs : List Bytes} : ∀ {path : List Bytes},
    seg ∈ resolve path segs → seg ∈ path ∨ seg ∈ segs ∨ seg = [] := by
  -- by the segments; the last one is a case of its own
  induction segs with
  | nil => exact fun h => Or.inl h
  | cons s segs ih =>
      intro path h
      have hlast : seg ∈ path.dropLast → seg ∈ path := fun hm => (List.dropLast_sublist path).subset hm
      cases segs with
      | nil =>
          rw [resolve] at h
          split at h
          · rcases List.mem_append.mp h with h | h
            · exact Or.inl (hlast h)
            · exact Or.inr (Or.inr (List.mem_singleton.mp h))
          split at h
          · rcases List.mem_append.mp h with h | h
            · exact Or.inl h
            · exact Or.inr (Or.inr (List.mem_singleton.mp h))
          · rcases List.mem_append.mp h with h | h
            · exact Or.inl h
            · exact Or.inr (Or.inl h)
      | cons t rest =>
          rw [resolve] at h
          split at h
          · rcases ih h with h | h | h
            · exact Or.inl (hlast h)
            · exact Or.inr (Or.inl (List.mem_cons_of_mem _ h))
            · exact Or.inr (Or.inr h)
          split at h
          · rcases ih h with h | h | h
            · exact Or.inl h
            · exact Or.inr (Or.inl (List.mem_cons_of_mem _ h))
            · exact Or.inr (Or.inr h)
          · rcases ih h with h | h | h
            · rcases List.mem_append.mp h with h | h
              · exact Or.inl h
              · exact Or.inr (Or.inl (by rw [List.mem_singleton.mp h]; exact List.mem_cons_self))
            · exact Or.inr (Or.inl (List.mem_cons_of_mem _ h))
            · exact Or.inr (Or.inr h)

/-- Other segments are kept. -/
theorem resolve_plain {segs : List Bytes} (h : ∀ s ∈ segs, isDot s = false ∧ isDotDot s = false) :
    ∀ path, resolve path segs = path ++ segs := by
  induction segs with
  | nil => exact fun path => by rw [resolve, List.append_nil]
  | cons s segs ih =>
      intro path
      obtain ⟨hdot, hdotdot⟩ := h s (by simp)
      have ih := ih fun t ht => h t (by simp [ht])
      cases segs with
      | nil => simp [resolve, hdot, hdotdot]
      | cons t rest =>
          rw [resolve, if_neg (by simp [hdotdot]), if_neg (by simp [hdot]), ih]
          simp

/-! ## What a target contains -/

/-- The path has none of the bytes that are encoded in it, and no backslash. -/
theorem mem_pathText {input : Bytes} : ∀ b ∈ pathText input, pathSet b = false ∧ b ≠ ch '\\' := by
  intro b hb
  unfold pathText at hb
  obtain ⟨seg, hseg, hb⟩ := List.mem_flatMap.mp hb
  rcases List.mem_cons.mp hb with rfl | hb
  · decide
  rcases mem_resolve hseg with h | h | rfl
  · exact absurd h (by simp)
  · obtain ⟨seg', hseg', rfl⟩ := List.mem_map.mp h
    refine forall_percentEncode (P := fun c => pathSet c = false ∧ c ≠ ch '\\')
      (fun c hc hset => ⟨hset, ?_⟩) (by decide) (by decide) b hb
    intro he
    exact absurd (not_isSlash_of_mem hseg' c hc) (by rw [he]; decide)
  · exact absurd hb (by simp)

/-- The query has none of the bytes that are encoded in it. -/
theorem queryText_cases (input : Bytes) :
    queryText input = []
      ∨ ∃ q, queryText input = ch '?' :: q ∧ ∀ b ∈ q, querySet b = false := by
  unfold queryText
  cases hq : (unfragmented input).dropWhile (· ≠ ch '?') with
  | nil => exact Or.inl rfl
  | cons mark q =>
      right
      have hmark : mark = ch '?' := by
        have hhead := List.head?_dropWhile_not (fun b => decide (b ≠ ch '?')) (unfragmented input)
        rw [hq] at hhead
        simpa using hhead
      exact ⟨_, by rw [hmark], forall_percentEncode (fun _ _ h => h) (by decide) (by decide)⟩

/-! ## URLs that need no cleaning -/

theorem clean_eq_self {input : Bytes} (h : ∀ b ∈ input, 32 < b.toNat) : clean input = input := by
  have hdrop : ∀ s : Bytes, (∀ b ∈ s, 32 < b.toNat) → s.dropWhile (·.toNat ≤ 32) = s := by
    intro s hs
    cases s with
    | nil => rfl
    | cons b s =>
        have hb := hs b (by simp)
        rw [List.dropWhile_cons, if_neg (by simp; omega)]
  unfold clean
  rw [hdrop input h, hdrop _ (by simpa using h), List.reverse_reverse, List.filter_eq_self]
  intro b hb
  have hlarge := h b hb
  have hsmall : (str "\t\n\r").all (·.toNat ≤ 32) = true := by decide
  rw [Bool.not_eq_true', Bool.eq_false_iff, ne_eq, List.contains_iff_mem]
  intro hm
  have := List.all_eq_true.mp hsmall b hm
  simp at this
  omega

theorem unfragmented_eq_self {input : Bytes} (h : ∀ b ∈ input, 32 < b.toNat ∧ b ≠ ch '#') :
    unfragmented input = input := by
  unfold unfragmented
  rw [clean_eq_self fun b hb => (h b hb).1, List.takeWhile_eq_self_iff]
  intro b hb
  simpa using (h b hb).2

/-- A byte that is not encoded in a path is visible, and not `#` or `?`. -/
theorem visible_of_pathSet {b : UInt8} (h : pathSet b = false) :
    32 < b.toNat ∧ b ≠ ch '#' ∧ b ≠ ch '?' := by
  refine ⟨?_, ?_, ?_⟩
  · by_contra hsmall
    have hall : (List.range 33).all (fun n => pathSet (UInt8.ofNat n)) = true := by decide
    have := List.all_eq_true.mp hall b.toNat (List.mem_range.mpr (by omega))
    rw [UInt8.ofNat_toNat, h] at this
    exact absurd this (by simp)
  · rintro rfl
    exact absurd h (by decide)
  · rintro rfl
    exact absurd h (by decide)

theorem segments_join {segs : List Bytes} (hne : segs ≠ [])
    (h : ∀ seg ∈ segs, ∀ b ∈ seg, isSlash b = false) :
    segments ((segs.flatMap (ch '/' :: ·)).drop 1) = segs := by
  induction segs with
  | nil => exact absurd rfl hne
  | cons seg segs ih =>
      have hseg := h seg (by simp)
      rw [List.flatMap_cons, List.cons_append, List.drop_succ_cons, List.drop_zero]
      cases segs with
      | nil => rw [List.flatMap_nil, List.append_nil, segments_single hseg]
      | cons t rest =>
          have ih := ih (by simp) fun u hu => h u (List.mem_cons_of_mem _ hu)
          rw [List.flatMap_cons, List.cons_append] at ih ⊢
          rw [segments_append hseg]
          exact congrArg (seg :: ·) ih

/-- A path of permitted bytes is sent as it is, but for its dot segments. -/
theorem pathText_join {segs : List Bytes} (hne : segs ≠ [])
    (h : ∀ seg ∈ segs, ∀ b ∈ seg, pathSet b = false ∧ isSlash b = false) :
    pathText (segs.flatMap (ch '/' :: ·)) = (resolve [] segs).flatMap (ch '/' :: ·) := by
  have hbytes : ∀ b ∈ segs.flatMap (ch '/' :: ·), pathSet b = false := by
    intro b hb
    obtain ⟨seg, hseg, hb⟩ := List.mem_flatMap.mp hb
    rcases List.mem_cons.mp hb with rfl | hb
    · decide
    · exact (h seg hseg b hb).1
  have hpath : (segs.flatMap (ch '/' :: ·)).takeWhile (· ≠ ch '?') = segs.flatMap (ch '/' :: ·) := by
    rw [List.takeWhile_eq_self_iff]
    intro b hb
    simpa using (visible_of_pathSet (hbytes b hb)).2.2
  have hmap : segs.map (percentEncode pathSet) = segs := by
    have hcongr : segs.map (percentEncode pathSet) = segs.map id :=
      List.map_congr_left fun seg hseg => percentEncode_eq_self fun b hb => (h seg hseg b hb).1
    rw [hcongr, List.map_id]
  unfold pathText
  rw [unfragmented_eq_self fun b hb => ⟨(visible_of_pathSet (hbytes b hb)).1,
    (visible_of_pathSet (hbytes b hb)).2.1⟩]
  dsimp only
  rw [hpath, segments_join hne fun seg hseg b hb => (h seg hseg b hb).2, hmap]

/-- The segments make up their path again. -/
theorem join_segments {s : Bytes} (h : ch '\\' ∉ s) :
    (segments s).flatMap (ch '/' :: ·) = ch '/' :: s := by
  induction s with
  | nil => rfl
  | cons b s ih =>
      have ih := ih fun hm => h (List.mem_cons_of_mem b hm)
      rw [segments]
      split
      · rename_i hslash
        have hb : b = ch '/' := by
          rcases Bool.or_eq_true_iff.mp hslash with heq | heq
          · exact eq_of_beq heq
          · exact absurd (by rw [← eq_of_beq heq]; exact List.mem_cons_self) h
        rw [List.flatMap_cons, ih, hb]
        rfl
      · cases hsegs : segments s with
        | nil =>
            rw [hsegs] at ih
            cases ih
        | cons seg rest =>
            rw [hsegs, List.flatMap_cons, List.cons_append, List.cons_inj_right] at ih
            show ch '/' :: (b :: seg ++ rest.flatMap (ch '/' :: ·)) = _
            rw [List.cons_append, ih]

/-- A path of permitted bytes without dot segments is sent as it is. -/
theorem pathText_plain {p : Bytes} (h : ∀ b ∈ p, pathSet b = false ∧ b ≠ ch '\\')
    (hdots : ∀ seg ∈ segments p, isDot seg = false ∧ isDotDot seg = false) :
    pathText (ch '/' :: p) = ch '/' :: p := by
  have hno : ch '\\' ∉ p := fun hm => (h _ hm).2 rfl
  have hne : segments p ≠ [] := by
    intro hnil
    have hjoin := join_segments hno
    rw [hnil] at hjoin
    cases hjoin
  have hmem : ∀ seg ∈ segments p, ∀ b ∈ seg, pathSet b = false ∧ isSlash b = false := by
    intro seg hseg b hb
    have hin : b ∈ ch '/' :: p := by
      rw [← join_segments hno]
      exact List.mem_flatMap.mpr ⟨seg, hseg, List.mem_cons_of_mem _ hb⟩
    refine ⟨?_, not_isSlash_of_mem hseg b hb⟩
    rcases List.mem_cons.mp hin with rfl | hin
    · decide
    · exact (h b hin).1
  have hjoined := pathText_join hne hmem
  rw [join_segments hno, resolve_plain hdots, List.nil_append, join_segments hno] at hjoined
  exact hjoined

/-- Only letters come of letters. -/
theorem eq_of_lower {b c : UInt8} (hc : c.toNat < 97) (h : lower b = c) : b = c := by
  unfold lower at h
  split at h
  · rename_i hb
    have hsum := congrArg UInt8.toNat h
    have hoffset : (32 : UInt8).toNat = 32 := rfl
    rw [UInt8.toNat_add, hoffset] at hsum
    omega
  · exact h

/-- A segment without dots and percent signs is no dot segment. -/
theorem not_dots {seg : Bytes} (hdot : ch '.' ∉ seg) (hpercent : ch '%' ∉ seg) :
    isDot seg = false ∧ isDotDot seg = false := by
  have hno : ∀ b ∈ seg.map lower, b ≠ ch '.' ∧ b ≠ ch '%' := by
    intro b hb
    obtain ⟨c, hc, rfl⟩ := List.mem_map.mp hb
    refine ⟨fun heq => hdot ?_, fun heq => hpercent ?_⟩
    · rw [← eq_of_lower (by decide) heq]
      exact hc
    · rw [← eq_of_lower (by decide) heq]
      exact hc
  have hbad : ∀ t : Bytes, (∃ b t', t = b :: t' ∧ (b = ch '.' ∨ b = ch '%')) → seg.map lower ≠ t := by
    rintro _ ⟨b, t', rfl, hb⟩ heq
    have hmem := hno b (by rw [heq]; exact List.mem_cons_self)
    exact hb.elim hmem.1 hmem.2
  have hdots : ∀ t ∈ [str ".", str "..", str ".%2e"], seg.map lower ≠ t := by
    intro t ht
    simp only [List.mem_cons, List.not_mem_nil, or_false] at ht
    rcases ht with rfl | rfl | rfl <;> exact hbad _ ⟨_, _, rfl, Or.inl rfl⟩
  have hcodes : ∀ t ∈ [str "%2e", str "%2e.", str "%2e%2e"], seg.map lower ≠ t := by
    intro t ht
    simp only [List.mem_cons, List.not_mem_nil, or_false] at ht
    rcases ht with rfl | rfl | rfl <;> exact hbad _ ⟨_, _, rfl, Or.inr rfl⟩
  simp only [List.forall_mem_cons] at hdots hcodes
  unfold isDot isDotDot
  simp [hdots.1, hdots.2.1, hdots.2.2.1, hcodes.1, hcodes.2.1, hcodes.2.2.1]

/-- Path and query of a URL of permitted bytes: only the query is encoded. -/
theorem target_query {path q : Bytes} (hpath : ∀ b ∈ path, pathSet b = false)
    (hq : ∀ b ∈ q, pathSet b = false) :
    pathText (path ++ ch '?' :: q) = pathText path
      ∧ queryText (path ++ ch '?' :: q) = ch '?' :: percentEncode querySet q := by
  have hself : ∀ s : Bytes, (∀ b ∈ s, pathSet b = false ∨ b = ch '?') → unfragmented s = s := by
    intro s hs
    refine unfragmented_eq_self fun b hb => ?_
    rcases hs b hb with h | rfl
    · exact ⟨(visible_of_pathSet h).1, (visible_of_pathSet h).2.1⟩
    · decide
  have hwhole : unfragmented (path ++ ch '?' :: q) = path ++ ch '?' :: q := by
    refine hself _ fun b hb => ?_
    rcases List.mem_append.mp hb with h | h
    · exact Or.inl (hpath b h)
    · rcases List.mem_cons.mp h with h | h
      · exact Or.inr h
      · exact Or.inl (hq b h)
  have hnomark : ∀ b ∈ path, decide (b ≠ ch '?') = true := by
    intro b hb
    simpa using (visible_of_pathSet (hpath b hb)).2.2
  constructor
  · unfold pathText
    rw [hwhole, hself path fun b hb => Or.inl (hpath b hb)]
    dsimp only
    rw [takeWhile_token hnomark (by simp), List.takeWhile_eq_self_iff.mpr hnomark]
  · unfold queryText
    rw [hwhole, dropWhile_token hnomark (by simp)]

end Lib.Url
