import Svgd.Lib.Json

/-!
# JSON texts assembled from pieces

The laws of the decoder on texts that somebody put together by hand. A quoted piece
reads back as itself exactly when it needs no escape, a printed number reads back as
what it denotes, and an array or an object of pieces reads back exactly when every
piece does.
-/

namespace Lib

/-! ## Quoted pieces -/

/-- A piece that can stand between quotes as it is. -/
def JsonPlain (s : Bytes) : Prop := ∀ b ∈ s, b ≠ ch '"' ∧ b ≠ ch '\\' ∧ 0x20 ≤ b.toNat

instance (s : Bytes) : Decidable (JsonPlain s) := List.decidableBAll _ s

/-- Four hex digits in front of a quote stand wholly before it. -/
theorem parseHex4_before_quote {p r s : Bytes} {n : Nat}
    (h : parseHex4 (p ++ ch '"' :: r) = some (n, s)) :
    ∃ e p', p = e ++ p' ∧ e.length = 4 ∧ s = p' ++ ch '"' :: r := by
  have hquote : hexValue (ch '"') = none := by decide
  match p with
  | [] =>
      match r with
      | [] | [_] | [_, _] => simp [parseHex4] at h
      | _ :: _ :: _ :: _ => simp [parseHex4, hquote] at h
  | [a] =>
      match r with
      | [] | [_] => simp [parseHex4] at h
      | _ :: _ :: _ => simp [parseHex4, hquote] at h
  | [a, b] =>
      match r with
      | [] => simp [parseHex4] at h
      | _ :: _ => simp [parseHex4, hquote] at h
  | [a, b, c] => simp [parseHex4, hquote] at h
  | a :: b :: c :: d :: p' =>
      refine ⟨[a, b, c, d], p', rfl, rfl, ?_⟩
      simp only [List.cons_append, parseHex4] at h
      split at h
      · injection h with h
        exact (congrArg Prod.snd h).symm
      · exact absurd h (by simp)

theorem parseLowSurrogate_before_quote {p r s : Bytes} {n : Nat}
    (h : parseLowSurrogate (p ++ ch '"' :: r) = some (n, s)) :
    ∃ e p', p = e ++ p' ∧ s = p' ++ ch '"' :: r := by
  have hbs : ch '"' ≠ ch '\\' := by decide
  have hu : ch '"' ≠ ch 'u' := by decide
  match p with
  | [] =>
      match r with
      | [] => simp [parseLowSurrogate] at h
      | _ :: _ => simp [parseLowSurrogate, hbs] at h
  | [a] => simp [parseLowSurrogate, hu] at h
  | a :: b :: p =>
      simp only [List.cons_append, parseLowSurrogate] at h
      split at h
      · split at h
        · rename_i lo t hhex
          split at h
          · injection h with h
            obtain ⟨e, p', rfl, _, ht⟩ := parseHex4_before_quote hhex
            exact ⟨a :: b :: e, p', rfl, by rw [← ht]; exact (congrArg Prod.snd h).symm⟩
          · exact absurd h (by simp)
        · exact absurd h (by simp)
      · exact absurd h (by simp)

/-- An escape in front of a quote is that quote, or stands wholly before it and shrinks. -/
theorem parseEscape_before_quote {p r x s : Bytes}
    (h : parseEscape (p ++ ch '"' :: r) = some (x, s)) :
    (p = [] ∧ x = [ch '"'] ∧ s = r)
      ∨ ∃ e p', p = e ++ p' ∧ s = p' ++ ch '"' :: r ∧ e ≠ [] ∧ x.length ≤ e.length := by
  cases p with
  | nil =>
      left
      have hq : parseEscape (ch '"' :: r) = some ([ch '"'], r) := rfl
      rw [List.nil_append, hq] at h
      injection h with h
      exact ⟨rfl, (congrArg Prod.fst h).symm, (congrArg Prod.snd h).symm⟩
  | cons b p =>
      right
      simp only [List.cons_append, parseEscape] at h
      split at h
      · split at h
        · exact absurd h (by simp)
        · rename_i c t hhex
          obtain ⟨e, p', rfl, he, rfl⟩ := parseHex4_before_quote hhex
          have hlone : some (utf8 c, p' ++ ch '"' :: r) = some (x, s) →
              ∃ e' p'', b :: (e ++ p') = e' ++ p'' ∧ s = p'' ++ ch '"' :: r ∧ e' ≠ []
                ∧ x.length ≤ e'.length := by
            intro h
            injection h with h
            have hx : utf8 c = x := congrArg Prod.fst h
            have hlen := length_utf8_le c
            exact ⟨b :: e, p', rfl, (congrArg Prod.snd h).symm, by simp,
              by rw [← hx, List.length_cons]; omega⟩
          split at h
          · split at h
            · rename_i lo u hlow
              obtain ⟨e₂, p₂, rfl, rfl⟩ := parseLowSurrogate_before_quote hlow
              injection h with h
              obtain ⟨rfl, rfl⟩ := Prod.mk.inj h
              refine ⟨b :: (e ++ e₂), p₂, by simp, rfl, by simp, ?_⟩
              refine (length_utf8_le _).trans ?_
              rw [List.length_cons, List.length_append]
              omega
            · exact hlone h
          · exact hlone h
      · cases hl : escapeLetter b with
        | none => simp [hl] at h
        | some y =>
            rw [hl, Option.map_some] at h
            injection h with h
            have hx : [y] = x := congrArg Prod.fst h
            exact ⟨[b], p, rfl, (congrArg Prod.snd h).symm, by simp, by rw [← hx]; simp⟩

/--
Reading a text whose first quote character stands after `p`: the result is `p` itself, or
it has fallen behind `p` for good, or it has a quote where `p` has none.
-/
theorem parseStringGo_before_quote : ∀ (fuel : Nat) {p r d s : Bytes}, ch '"' ∉ p →
    parseStringGo fuel (p ++ ch '"' :: r) = some (d, s) →
    (d = p ∧ JsonPlain p ∧ s = r) ∨ d.length < p.length
      ∨ ∃ i, i < p.length ∧ d[i]? = some (ch '"')
  | 0, p, r, d, s, _, h => by simp [parseStringGo] at h
  | fuel + 1, [], r, d, s, _, h => by
      simp only [List.nil_append, parseStringGo, if_true] at h
      injection h with h
      exact Or.inl ⟨(congrArg Prod.fst h).symm, by simp [JsonPlain], (congrArg Prod.snd h).symm⟩
  | fuel + 1, b :: p, r, d, s, hq, h => by
      have hb : b ≠ ch '"' := fun he => hq (he ▸ List.mem_cons_self)
      have hp : ch '"' ∉ p := fun hm => hq (List.mem_cons_of_mem _ hm)
      rw [List.cons_append, parseStringGo, if_neg hb] at h
      split at h
      · -- an escape: from here on the result is shorter than what was read
        rename_i hbs
        split at h
        · exact absurd h (by simp)
        rename_i x t hesc
        obtain ⟨⟨d', s'⟩, hrest, hds⟩ := Option.map_eq_some_iff.mp h
        obtain ⟨rfl, rfl⟩ := Prod.mk.inj hds
        rcases parseEscape_before_quote hesc with ⟨rfl, rfl, rfl⟩ | ⟨e, p', rfl, rfl, he, hx⟩
        · exact Or.inr (Or.inr ⟨0, by simp, by simp⟩)
        · have hp' : ch '"' ∉ p' := fun hm => hp (List.mem_append_right _ hm)
          have hpos := List.length_pos_iff.mpr he
          rcases parseStringGo_before_quote fuel hp' hrest with ⟨rfl, _, _⟩ | hlt | ⟨i, hi, hget⟩
          · right; left
            simp only [List.length_append, List.length_cons]
            omega
          · right; left
            simp only [List.length_append, List.length_cons]
            omega
          · right; right
            refine ⟨x.length + i, ?_, ?_⟩
            · simp only [List.length_cons, List.length_append]
              omega
            · rw [List.getElem?_append_right (by omega), Nat.add_sub_cancel_left]
              exact hget
      · rename_i hbs
        split at h
        · exact absurd h (by simp)
        rename_i hctl
        obtain ⟨⟨d', s'⟩, hrest, hds⟩ := Option.map_eq_some_iff.mp h
        obtain ⟨rfl, rfl⟩ := Prod.mk.inj hds
        rcases parseStringGo_before_quote fuel hp hrest with ⟨rfl, hplain, rfl⟩ | hlt | ⟨i, hi, hget⟩
        · left
          refine ⟨rfl, ?_, rfl⟩
          intro c hc
          rcases List.mem_cons.mp hc with rfl | hc
          · exact ⟨hb, hbs, by omega⟩
          · exact hplain c hc
        · right; left
          simp only [List.length_cons]
          omega
        · right; right
          exact ⟨i + 1, by simp only [List.length_cons]; omega, by simpa using hget⟩

theorem parseStringGo_plain {p : Bytes} (hp : JsonPlain p) (r : Bytes) :
    ∀ {fuel : Nat}, p.length < fuel → parseStringGo fuel (p ++ ch '"' :: r) = some (p, r) := by
  induction p with
  | nil =>
      intro fuel hf
      obtain ⟨k, rfl⟩ : ∃ k, fuel = k + 1 := ⟨fuel - 1, by omega⟩
      rfl
  | cons b p ih =>
      intro fuel hf
      obtain ⟨k, rfl⟩ : ∃ k, fuel = k + 1 := ⟨fuel - 1, by omega⟩
      obtain ⟨hq, hbs, hctl⟩ := hp b List.mem_cons_self
      rw [List.cons_append, parseStringGo, if_neg hq, if_neg hbs, if_neg (by omega),
        ih (fun c hc => hp c (List.mem_cons_of_mem _ hc)) (by simp at hf; omega)]
      rfl

/-- **A quoted piece reads back as itself exactly when it is plain.** -/
theorem parseString_iff {p r s : Bytes} :
    parseString (p ++ ch '"' :: r) = some (p, s) ↔ JsonPlain p ∧ s = r := by
  constructor
  · intro h
    by_cases hq : ch '"' ∈ p
    · -- compare with the part of `p` before its own first quote
      exfalso
      obtain ⟨p₀, p₁, rfl, hp₀⟩ := List.eq_append_cons_of_mem hq
      rw [List.append_assoc, List.cons_append] at h
      rcases parseStringGo_before_quote _ hp₀ h with ⟨he, _, _⟩ | hlt | ⟨i, hi, hget⟩
      · exact absurd (congrArg List.length he) (by simp)
      · simp only [List.length_append] at hlt
        omega
      · rw [List.getElem?_append_left hi] at hget
        exact hp₀ (List.mem_of_getElem? hget)
    · rcases parseStringGo_before_quote _ hq h with ⟨_, hp, hs⟩ | hlt | ⟨i, _, hget⟩
      · exact ⟨hp, hs⟩
      · omega
      · exact absurd (List.mem_of_getElem? hget) hq
  · rintro ⟨hp, rfl⟩
    exact parseStringGo_plain hp _ (by rw [List.length_append]; omega)

/-! ## Texts that read as a value

`ReadsAs t v good` says that `t`, wherever a value may stand, reads as `v` and leaves what
follows it exactly when `good` holds. The laws build such texts from pieces.
-/

/-- What may follow a value. -/
def AfterValue (r : Bytes) : Prop :=
  r = [] ∨ ∃ b t, r = b :: t ∧ (b = ch ',' ∨ b = ch ']' ∨ b = ch '\x7d')

structure ReadsAs (t : Bytes) (v : Json) (good : Prop) : Prop where
  head : ∃ b u, t = b :: u ∧ isJsonSpace b = false ∧ b ≠ ch ']' ∧ b ≠ ch '\x7d'
  read : ∀ {n : Nat} {r s : Bytes}, t.length ≤ n → AfterValue r →
    (parseValue n (t ++ r) = some (v, s) ↔ good ∧ s = r)

theorem skipSpace_cons {b : UInt8} (hb : isJsonSpace b = false) (s : Bytes) :
    skipSpace (b :: s) = b :: s := by
  rw [skipSpace, List.dropWhile_cons_of_neg (by simp [hb])]

theorem ReadsAs.head_append {t : Bytes} {v : Json} {good : Prop} (h : ReadsAs t v good)
    (r : Bytes) : ∃ b u, t ++ r = b :: u ∧ isJsonSpace b = false ∧ b ≠ ch ']' ∧ b ≠ ch '\x7d' := by
  obtain ⟨b, u, rfl, hb⟩ := h.head
  exact ⟨b, u ++ r, rfl, hb⟩

theorem ReadsAs.congr {t : Bytes} {v : Json} {g k : Prop} (h : ReadsAs t v g) (hgk : g ↔ k) :
    ReadsAs t v k :=
  ⟨h.head, fun hf hr => by rw [h.read hf hr, hgk]⟩

/-- **The whole text.** -/
theorem ReadsAs.decode {t : Bytes} {v : Json} {good : Prop} (h : ReadsAs t v good) :
    decodeJson t = some v ↔ good ∧ validUtf8 t = true := by
  have hread : ∀ s, parseValue (t.length + 1) t = some (v, s) ↔ good ∧ s = [] := by
    intro s
    have := h.read (n := t.length + 1) (r := []) (s := s) (by omega) (Or.inl rfl)
    rwa [List.append_nil] at this
  unfold decodeJson
  constructor
  · intro hd
    split at hd
    · rename_i hvalid
      split at hd
      · rename_i w rest hparse
        split at hd
        · injection hd with hd
          rw [hd] at hparse
          exact ⟨((hread rest).mp hparse).1, hvalid⟩
        · exact absurd hd (by simp)
      · exact absurd hd (by simp)
    · exact absurd hd (by simp)
  · rintro ⟨hgood, hvalid⟩
    rw [if_pos hvalid, (hread []).mpr ⟨hgood, rfl⟩]
    rfl

/-- A piece between quotes. -/
def quoted (p : Bytes) : Bytes := ch '"' :: (p ++ [ch '"'])

theorem readsAs_string (p : Bytes) : ReadsAs (quoted p) (.str p) (JsonPlain p) where
  head := ⟨_, _, rfl, by decide, by decide, by decide⟩
  read := by
    intro fuel r s hf _
    obtain ⟨k, rfl⟩ : ∃ k, fuel = k + 1 := ⟨fuel - 1, by simp [quoted] at hf; omega⟩
    rw [quoted, List.cons_append, List.append_assoc, List.singleton_append, parseValue,
      skipSpace_cons (by decide)]
    dsimp only
    rw [if_pos rfl]
    constructor
    · intro h
      obtain ⟨⟨d, s'⟩, hstr, hds⟩ := Option.map_eq_some_iff.mp h
      simp only [Prod.mk.injEq, Json.str.injEq] at hds
      obtain ⟨rfl, rfl⟩ := hds
      exact parseString_iff.mp hstr
    · rintro h
      rw [parseString_iff.mpr h]
      rfl

/-! ### Numbers -/

theorem takeWhile_digits {ds r : Bytes} (hds : ∀ b ∈ ds, isDigit b = true)
    (hr : ∀ b t, r = b :: t → isDigit b = false) :
    (ds ++ r).takeWhile isDigit = ds ∧ (ds ++ r).dropWhile isDigit = r := by
  rw [List.takeWhile_append_of_pos hds, List.dropWhile_append_of_pos hds]
  cases r with
  | nil => simp
  | cons b t =>
      have hb := hr b t rfl
      rw [List.takeWhile_cons_of_neg (by simp [hb]), List.dropWhile_cons_of_neg (by simp [hb])]
      simp

theorem AfterValue.head_not {r : Bytes} (h : AfterValue r) {b : UInt8} {t : Bytes}
    (hr : r = b :: t) : isDigit b = false ∧ b ≠ ch '.' ∧ b ≠ ch 'e' ∧ b ≠ ch 'E' := by
  rcases h with rfl | ⟨c, u, rfl, hc⟩
  · exact absurd hr (by simp)
  · obtain ⟨rfl, -⟩ := List.cons.inj hr
    rcases hc with rfl | rfl | rfl <;> decide

theorem expText_spec (e : Int) :
    ∃ sign ds, expText e = sign :: ds ∧ (sign = ch '-' ↔ e < 0) ∧ (0 ≤ e → sign = ch '+')
      ∧ ds ≠ [] ∧ (∀ b ∈ ds, isDigit b = true) ∧ natValue ds = e.natAbs := by
  refine ⟨_, _, rfl, ?_, ?_, ?_, ?_, ?_⟩
  · split
    · rename_i h; simp [h]
    · rename_i h; simp [h, show ch '+' ≠ ch '-' by decide]
  · intro h
    rw [if_neg (by omega)]
  · split
    · simp
    · exact printNat_ne_nil _
  · intro b hb
    split at hb
    · rcases List.mem_cons.mp hb with rfl | hb
      · decide
      · exact isDigit_of_mem_printNat hb
    · exact isDigit_of_mem_printNat hb
  · split
    · rw [← List.singleton_append, natValue_append, natValue_printNat]
      have hz : natValue [ch '0'] = 0 := by decide
      rw [hz]
      omega
    · exact natValue_printNat _

theorem parseExp_text (exp : Option Int) {r : Bytes} (hr : AfterValue r) :
    parseExp (expPart exp ++ r) = some (exp.getD 0, r) := by
  have hafter : ∀ b t, r = b :: t → isDigit b = false := fun b t h => (hr.head_not h).1
  cases exp with
  | none =>
      have hno : ∀ c, c = ch 'e' ∨ c = ch 'E' → startsWith r [c] = false := by
        intro c hc
        cases r with
        | nil => rfl
        | cons b t =>
            have hb := hr.head_not rfl
            rw [startsWith_cons_cons]
            rcases hc with rfl | rfl
            · simp [Ne.symm hb.2.2.1]
            · simp [Ne.symm hb.2.2.2]
      have he : startsWith r (str "e") = false := hno _ (Or.inl rfl)
      have hE : startsWith r (str "E") = false := hno _ (Or.inr rfl)
      unfold parseExp
      rw [expPart, List.nil_append, if_neg (by simp [he, hE])]
      rfl
  | some e =>
      obtain ⟨sign, ds, htext, hneg, hpos, hne, hds, hval⟩ := expText_spec e
      obtain ⟨htake, hdrop⟩ := takeWhile_digits hds hafter
      have hplus : str "+" = [ch '+'] := rfl
      have hminus : str "-" = [ch '-'] := rfl
      show parseExp (ch 'e' :: expText e ++ r) = some (e, r)
      rw [htext, List.cons_append, List.cons_append]
      unfold parseExp
      rw [if_pos (Or.inl (by rfl))]
      simp only [List.drop_succ_cons, List.drop_zero, hplus, hminus, startsWith_cons_cons,
        startsWith_nil, Bool.and_true, beq_iff_eq]
      by_cases he : e < 0
      · have hs : sign = ch '-' := hneg.mpr he
        rw [if_pos (Or.inl hs.symm), htake, hdrop, if_neg hne, if_pos hs.symm, hval]
        simp only [Option.some.injEq, Prod.mk.injEq, and_true]
        omega
      · have hs : sign = ch '+' := hpos (by omega)
        have hns : ch '-' ≠ sign := by rw [hs]; decide
        rw [if_pos (Or.inr hs.symm), htake, hdrop, if_neg hne, if_neg hns, hval]
        simp only [Option.some.injEq, Prod.mk.injEq, and_true]
        omega

theorem parseFrac_text {frac : Bytes} (hfrac : ∀ b ∈ frac, isDigit b = true) {r : Bytes}
    (hr : ∀ b t, r = b :: t → isDigit b = false ∧ b ≠ ch '.') :
    parseFrac ((if frac = [] then [] else ch '.' :: frac) ++ r) = some (frac, r) := by
  have hdot : str "." = [ch '.'] := rfl
  obtain ⟨htake, hdrop⟩ := takeWhile_digits hfrac fun b t h => (hr b t h).1
  unfold parseFrac
  by_cases hnil : frac = []
  · rw [if_pos hnil, List.nil_append]
    rw [if_neg]
    · rw [hnil]
    · rw [hdot]
      cases r with
      | nil => simp
      | cons b t => simp [Ne.symm (hr b t rfl).2]
  · rw [if_neg hnil, List.cons_append, hdot]
    simp only [startsWith_cons_cons, startsWith_nil, beq_self_eq_true, Bool.and_true, if_true,
      List.drop_succ_cons, List.drop_zero, htake, hdrop, if_neg hnil]

theorem parseNumber_text (n : NumLit) {r : Bytes} (hr : AfterValue r) :
    parseNumber (n.text ++ r) = some (.num n.value, r) := by
  obtain ⟨hval, hne, hdigits, hlead, hzero⟩ := printNat_spec n.int
  have hminus : str "-" = [ch '-'] := rfl
  -- the three tails, each with what its first byte cannot be
  generalize htail : expPart n.exp ++ r = tail
  have hexp : parseExp tail = some (n.exp.getD 0, r) := htail ▸ parseExp_text n.exp hr
  have htail' : ∀ b t, tail = b :: t → isDigit b = false ∧ b ≠ ch '.' := by
    intro b t h
    rw [← htail] at h
    cases he : n.exp with
    | none =>
        rw [he] at h
        exact ⟨(hr.head_not h).1, (hr.head_not h).2.1⟩
    | some e =>
        rw [he, expPart, List.cons_append] at h
        obtain ⟨rfl, -⟩ := List.cons.inj h
        decide
  have hfrac := parseFrac_text n.frac_digits htail'
  generalize hrest : (if n.frac = [] then [] else ch '.' :: n.frac) ++ tail = rest at hfrac
  have hrest' : ∀ b t, rest = b :: t → isDigit b = false := by
    intro b t h
    rw [← hrest] at h
    split at h
    · exact (htail' b t h).1
    · rw [List.cons_append] at h
      obtain ⟨rfl, -⟩ := List.cons.inj h
      decide
  obtain ⟨htake, hdrop⟩ := takeWhile_digits hdigits hrest'
  have htext : n.text ++ r = (if n.neg then [ch '-'] else []) ++ (printNat n.int ++ rest) := by
    rw [NumLit.text, ← hrest, ← htail]
    simp only [List.append_assoc]
  have hsign : startsWith (n.text ++ r) (str "-") = n.neg := by
    rw [htext, hminus]
    cases n.neg with
    | true => rfl
    | false =>
        obtain ⟨d, ds, hd⟩ := List.exists_cons_of_ne_nil hne
        have hdig := hdigits d (by rw [hd]; simp)
        have hnd : ch '-' ≠ d := by
          rintro rfl
          exact absurd hdig (by decide)
        rw [hd]
        simp [hnd]
  have hbody : (if n.neg then (n.text ++ r).drop 1 else n.text ++ r) = printNat n.int ++ rest := by
    rw [htext]
    cases n.neg <;> rfl
  have hok : ¬ (printNat n.int = [] ∨
      (1 < (printNat n.int).length ∧ (printNat n.int).head? = some (ch '0'))) := by
    rintro (h | ⟨hlen, hhead⟩)
    · exact hne h
    · rcases Nat.eq_zero_or_pos n.int with h0 | hpos
      · rw [hzero h0] at hlen
        simp at hlen
      · exact hlead (by omega) hhead
  unfold parseNumber
  dsimp only
  rw [hsign, hbody, htake, hdrop, if_neg hok, hfrac]
  dsimp only
  rw [hexp]
  dsimp only
  rw [hval]
  rfl

theorem text_ofInt (z : Int) : (NumLit.ofInt z).text = printInt z := by
  unfold NumLit.text NumLit.ofInt printInt expPart
  by_cases h : z < 0 <;> simp [h]

theorem value_ofInt (z : Int) : (NumLit.ofInt z).value = z := by
  have hnil : natValue [] = 0 := rfl
  unfold NumLit.value NumLit.ofInt decimalValue
  simp only [hnil, Option.getD_none, zpow_zero, mul_one, Nat.cast_zero, zero_div, add_zero,
    Nat.cast_natAbs, decide_eq_true_eq]
  by_cases h : z < 0
  · rw [if_pos h, abs_of_neg h]
    push_cast
    ring
  · rw [if_neg h, abs_of_nonneg (by omega), one_mul]

theorem readsAs_number (n : NumLit) : ReadsAs n.text (.num n.value) True := by
  obtain ⟨_, hne, hdigits, _, _⟩ := printNat_spec n.int
  have hhead : ∃ b u, n.text = b :: u ∧ (b = ch '-' ∨ isDigit b = true) := by
    obtain ⟨d, ds, hd⟩ := List.exists_cons_of_ne_nil hne
    unfold NumLit.text
    cases n.neg with
    | true => exact ⟨_, _, rfl, Or.inl rfl⟩
    | false => exact ⟨d, _, by rw [hd]; rfl, Or.inr (hdigits d (by rw [hd]; simp))⟩
  obtain ⟨b, u, htext, hb⟩ := hhead
  have hother : ∀ c : UInt8, c ≠ ch '-' → isDigit c = false → b ≠ c := by
    rintro c h1 h2 rfl
    rcases hb with h | h
    · exact h1 h
    · rw [h] at h2
      exact absurd h2 (by simp)
  have hspace : isJsonSpace b = false := by
    have := hother (ch ' ') (by decide) (by decide)
    have := hother (ch '\t') (by decide) (by decide)
    have := hother (ch '\n') (by decide) (by decide)
    have := hother (ch '\r') (by decide) (by decide)
    simp [isJsonSpace, *]
  have hword : ∀ c p, c ≠ ch '-' → isDigit c = false → ∀ s, startsWith (b :: s) (c :: p) = false := by
    intro c p h1 h2 s
    simp [(hother c h1 h2).symm]
  refine ⟨⟨b, u, htext, hspace, hother _ (by decide) (by decide),
    hother _ (by decide) (by decide)⟩, ?_⟩
  intro fuel r s hf hr
  obtain ⟨k, rfl⟩ : ∃ k, fuel = k + 1 := ⟨fuel - 1, by rw [htext] at hf; simp at hf; omega⟩
  have hnum := parseNumber_text n hr
  rw [htext, List.cons_append] at hnum ⊢
  rw [parseValue, skipSpace_cons hspace]
  dsimp only
  rw [if_neg (hother _ (by decide) (by decide)), if_neg (hother _ (by decide) (by decide)),
    if_neg (hother _ (by decide) (by decide)),
    if_neg (by rw [show str "null" = ch 'n' :: str "ull" from rfl,
      hword _ _ (by decide) (by decide)]; simp),
    if_neg (by rw [show str "true" = ch 't' :: str "rue" from rfl,
      hword _ _ (by decide) (by decide)]; simp),
    if_neg (by rw [show str "false" = ch 'f' :: str "alse" from rfl,
      hword _ _ (by decide) (by decide)]; simp), hnum]
  simp [eq_comm]

/-! ### Arrays and objects -/

/-- Pieces with commas between them. -/
def commaJoin : List Bytes → Bytes
  | [] => []
  | [x] => x
  | x :: y :: xs => x ++ ch ',' :: commaJoin (y :: xs)

theorem afterValue_comma (r : Bytes) : AfterValue (ch ',' :: r) :=
  Or.inr ⟨_, _, rfl, Or.inl rfl⟩

theorem afterValue_bracket (r : Bytes) : AfterValue (ch ']' :: r) :=
  Or.inr ⟨_, _, rfl, Or.inr (Or.inl rfl)⟩

theorem afterValue_brace (r : Bytes) : AfterValue (ch '\x7d' :: r) :=
  Or.inr ⟨_, _, rfl, Or.inr (Or.inr rfl)⟩

/-- What stands behind a value in an array or an object: a comma and more, or the closing
bracket. `mk` makes the value the element it is. -/
def afterItem {β : Type} (close : UInt8) (mk : Json → β) (more : Bytes → Option (List β × Bytes)) :
    Option (Json × Bytes) → Option (List β × Bytes)
  | none => none
  | some (v, s) =>
      match skipSpace s with
      | [] => none
      | b :: s =>
          if b = ch ',' then (more s).map fun (l, r) => (mk v :: l, r)
          else if b = close then some ([mk v], s)
          else none

section AfterItem

variable {β : Type} {close : UInt8} {mk : Json → β} {more : Bytes → Option (List β × Bytes)}
  {p : Option (Json × Bytes)} {v : Json} {good : Prop}

theorem afterItem_comma (u : Bytes) :
    afterItem close mk more (some (v, ch ',' :: u)) = (more u).map fun (l, r) => (mk v :: l, r) := by
  unfold afterItem
  dsimp only
  rw [skipSpace_cons (by decide)]
  exact if_pos rfl

theorem afterItem_close (hspace : isJsonSpace close = false) (hcomma : close ≠ ch ',') (r : Bytes) :
    afterItem close mk more (some (v, close :: r)) = some ([mk v], r) := by
  unfold afterItem
  dsimp only
  rw [skipSpace_cons hspace]
  dsimp only
  rw [if_neg hcomma, if_pos rfl]

/-- The first element of the list tells which value was read. -/
theorem afterItem_head (hmk : Function.Injective mk) {l : List β} {s : Bytes}
    (h : afterItem close mk more p = some (mk v :: l, s)) : ∃ t, p = some (v, t) := by
  cases p with
  | none => exact absurd h (by simp [afterItem])
  | some w =>
      obtain ⟨v', t⟩ := w
      unfold afterItem at h
      dsimp only at h
      split at h
      · exact absurd h (by simp)
      split at h
      · obtain ⟨⟨l', r'⟩, _, hlr⟩ := Option.map_eq_some_iff.mp h
        have hv := hmk (List.cons.inj (Prod.mk.inj hlr).1).1
        exact ⟨t, by rw [hv]⟩
      split at h
      · have hv := hmk (List.cons.inj (Prod.mk.inj (Option.some.inj h)).1).1
        exact ⟨t, by rw [hv]⟩
      · exact absurd h (by simp)

/-- The last element. -/
theorem afterItem_last (hmk : Function.Injective mk) (hspace : isJsonSpace close = false)
    (hcomma : close ≠ ch ',') {r s : Bytes}
    (hread : ∀ t, p = some (v, t) ↔ good ∧ t = close :: r) :
    afterItem close mk more p = some ([mk v], s) ↔ good ∧ s = r := by
  constructor
  · intro h
    obtain ⟨t, hp⟩ := afterItem_head hmk h
    obtain ⟨hgood, rfl⟩ := (hread t).mp hp
    rw [hp, afterItem_close hspace hcomma] at h
    exact ⟨hgood, ((Prod.mk.inj (Option.some.inj h)).2).symm⟩
  · rintro ⟨hgood, rfl⟩
    rw [(hread _).mpr ⟨hgood, rfl⟩, afterItem_close hspace hcomma]

/-- An element with others behind it. -/
theorem afterItem_more (hmk : Function.Injective mk) {l : List β} {u r s : Bytes} {goods : Prop}
    (hread : ∀ t, p = some (v, t) ↔ good ∧ t = ch ',' :: u)
    (hmore : ∀ t, more u = some (l, t) ↔ goods ∧ t = r) :
    afterItem close mk more p = some (mk v :: l, s) ↔ (good ∧ goods) ∧ s = r := by
  constructor
  · intro h
    obtain ⟨t, hp⟩ := afterItem_head hmk h
    obtain ⟨hgood, rfl⟩ := (hread t).mp hp
    rw [hp, afterItem_comma] at h
    obtain ⟨⟨l', r'⟩, hl, hlr⟩ := Option.map_eq_some_iff.mp h
    obtain ⟨hcons, rfl⟩ := Prod.mk.inj hlr
    rw [(List.cons.inj hcons).2] at hl
    obtain ⟨hgoods, rfl⟩ := (hmore _).mp hl
    exact ⟨⟨hgood, hgoods⟩, rfl⟩
  · rintro ⟨⟨hgood, hgoods⟩, rfl⟩
    rw [(hread _).mpr ⟨hgood, rfl⟩, afterItem_comma, (hmore _).mpr ⟨hgoods, rfl⟩]
    rfl

end AfterItem

theorem parseItems_succ (k : Nat) (s : Bytes) :
    parseItems (k + 1) s = afterItem (ch ']') id (parseItems k) (parseValue k s) := by
  rw [parseItems]
  cases parseValue k s <;> rfl

section Pieces

variable {α : Type} {text : α → Bytes} {val : α → Json} {good : α → Prop}

theorem parseItems_iff (h : ∀ a, ReadsAs (text a) (val a) (good a)) :
    ∀ (a : α) (l : List α) {n : Nat} {r s : Bytes},
    (commaJoin ((a :: l).map text)).length + 1 ≤ n →
    (parseItems n (commaJoin ((a :: l).map text) ++ ch ']' :: r) = some ((a :: l).map val, s)
      ↔ (∀ x ∈ a :: l, good x) ∧ s = r)
  | a, [], fuel, r, s, hf => by
      obtain ⟨k, rfl⟩ : ∃ k, fuel = k + 1 := ⟨fuel - 1, by omega⟩
      simp only [List.map_cons, List.map_nil, commaJoin] at hf ⊢
      rw [parseItems_succ, List.forall_mem_singleton]
      exact afterItem_last Function.injective_id (by decide) (by decide)
        fun t => (h a).read (by omega) (afterValue_bracket r)
  | a, b :: l, fuel, r, s, hf => by
      obtain ⟨k, rfl⟩ : ∃ k, fuel = k + 1 := ⟨fuel - 1, by omega⟩
      have hjoin : commaJoin ((a :: b :: l).map text)
          = text a ++ ch ',' :: commaJoin ((b :: l).map text) := rfl
      rw [hjoin] at hf ⊢
      rw [List.append_assoc, List.cons_append, parseItems_succ, List.forall_mem_cons]
      rw [List.length_append, List.length_cons] at hf
      exact afterItem_more Function.injective_id
        (fun t => (h a).read (by omega) (afterValue_comma _))
        fun t => parseItems_iff h b l (by omega)

/-- **An array of pieces.** -/
theorem readsAs_array (h : ∀ a, ReadsAs (text a) (val a) (good a)) (l : List α) :
    ReadsAs (ch '[' :: (commaJoin (l.map text) ++ [ch ']'])) (.arr (l.map val))
      (∀ a ∈ l, good a) where
  head := ⟨_, _, rfl, by decide, by decide, by decide⟩
  read := by
    intro fuel r s hf _
    obtain ⟨k, rfl⟩ : ∃ k, fuel = k + 1 := ⟨fuel - 1, by simp at hf; omega⟩
    rw [List.cons_append, List.append_assoc, List.singleton_append, parseValue,
      skipSpace_cons (by decide)]
    dsimp only
    rw [if_neg (by decide), if_pos rfl]
    cases l with
    | nil =>
        simp only [List.map_nil, commaJoin, List.nil_append]
        rw [skipSpace_cons (by decide), if_pos (by rfl)]
        simp [eq_comm]
    | cons a l =>
        have hhead : startsWith (skipSpace (commaJoin ((a :: l).map text) ++ ch ']' :: r)) (str "]")
            = false := by
          obtain ⟨b, u, hbu, hb, hb', _⟩ : ∃ b u, commaJoin ((a :: l).map text) ++ ch ']' :: r
              = b :: u ∧ isJsonSpace b = false ∧ b ≠ ch ']' ∧ b ≠ ch '\x7d' := by
            cases l with
            | nil => exact (h a).head_append _
            | cons c l =>
                have := (h a).head_append
                  (ch ',' :: commaJoin ((c :: l).map text) ++ ch ']' :: r)
                rwa [← List.append_assoc] at this
          rw [hbu, skipSpace_cons hb, show str "]" = [ch ']'] from rfl]
          simp [Ne.symm hb']
        have hitems := fun t => parseItems_iff h a l (n := k) (r := r) (s := t)
          (by simp only [List.length_cons, List.length_append, List.length_nil] at hf; omega)
        rw [if_neg (by rw [hhead]; simp)]
        constructor
        · intro hp
          obtain ⟨⟨l', r'⟩, hl, hlr⟩ := Option.map_eq_some_iff.mp hp
          simp only [Prod.mk.injEq, Json.arr.injEq] at hlr
          obtain ⟨rfl, rfl⟩ := hlr
          exact (hitems _).mp hl
        · intro hg
          rw [(hitems _).mpr hg]
          rfl

end Pieces

/-- A member of an object whose key needs no escape and whose text reads as a value. -/
structure Member where
  key : Bytes
  text : Bytes
  val : Json
  good : Prop
  key_plain : JsonPlain key
  reads : ReadsAs text val good

/-- `"key":text`. -/
def Member.full (m : Member) : Bytes := ch '"' :: (m.key ++ ch '"' :: ch ':' :: m.text)

theorem Member.length_text_le (m : Member) : m.text.length ≤ m.full.length := by
  simp only [Member.full, List.length_cons, List.length_append]
  omega

/-- Reading a member comes down to reading its value. -/
theorem parseMembers_full (m : Member) (k : Nat) (r : Bytes) :
    parseMembers (k + 1) (m.full ++ r)
      = afterItem (ch '\x7d') (m.key, ·) (parseMembers k) (parseValue k (m.text ++ r)) := by
  have hkey : parseString (m.key ++ ch '"' :: ch ':' :: (m.text ++ r))
      = some (m.key, ch ':' :: (m.text ++ r)) := parseString_iff.mpr ⟨m.key_plain, rfl⟩
  have hfull : m.full ++ r = ch '"' :: (m.key ++ ch '"' :: ch ':' :: (m.text ++ r)) := by
    simp [Member.full]
  rw [hfull, parseMembers, skipSpace_cons (by decide)]
  dsimp only
  rw [if_pos rfl, hkey]
  dsimp only
  rw [skipSpace_cons (by decide)]
  dsimp only
  rw [if_pos rfl]
  cases parseValue k (m.text ++ r) <;> rfl

theorem parseMembers_iff : ∀ (m : Member) (l : List Member) {n : Nat} {r s : Bytes},
    (commaJoin ((m :: l).map Member.full)).length + 1 ≤ n →
    (parseMembers n (commaJoin ((m :: l).map Member.full) ++ ch '\x7d' :: r)
        = some ((m :: l).map fun x => (x.key, x.val), s)
      ↔ (∀ x ∈ m :: l, x.good) ∧ s = r)
  | m, [], fuel, r, s, hf => by
      obtain ⟨k, rfl⟩ : ∃ k, fuel = k + 1 := ⟨fuel - 1, by omega⟩
      simp only [List.map_cons, List.map_nil, commaJoin] at hf ⊢
      have hlen := m.length_text_le
      rw [parseMembers_full, List.forall_mem_singleton]
      exact afterItem_last (Prod.mk_right_injective m.key) (by decide) (by decide)
        fun t => m.reads.read (by omega) (afterValue_brace r)
  | m, m' :: l, fuel, r, s, hf => by
      obtain ⟨k, rfl⟩ : ∃ k, fuel = k + 1 := ⟨fuel - 1, by omega⟩
      have hjoin : commaJoin ((m :: m' :: l).map Member.full)
          = m.full ++ ch ',' :: commaJoin ((m' :: l).map Member.full) := rfl
      rw [hjoin] at hf ⊢
      rw [List.append_assoc, List.cons_append, parseMembers_full, List.forall_mem_cons]
      rw [List.length_append, List.length_cons] at hf
      have hlen := m.length_text_le
      exact afterItem_more (Prod.mk_right_injective m.key)
        (fun t => m.reads.read (by omega) (afterValue_comma _))
        fun t => parseMembers_iff m' l (by omega)

/-- **An object with at least one member.** -/
theorem readsAs_object (m : Member) (l : List Member) :
    ReadsAs (ch '\x7b' :: (commaJoin ((m :: l).map Member.full) ++ [ch '\x7d']))
      (.obj ((m :: l).map fun x => (x.key, x.val))) (∀ x ∈ m :: l, x.good) where
  head := ⟨_, _, rfl, by decide, by decide, by decide⟩
  read := by
    intro fuel r s hf _
    obtain ⟨k, rfl⟩ : ∃ k, fuel = k + 1 := ⟨fuel - 1, by simp at hf; omega⟩
    rw [List.cons_append, List.append_assoc, List.singleton_append, parseValue,
      skipSpace_cons (by decide)]
    dsimp only
    rw [if_neg (by decide), if_neg (by decide), if_pos rfl]
    have hhead : startsWith (skipSpace (commaJoin ((m :: l).map Member.full) ++ ch '\x7d' :: r))
        (str "\x7d") = false := by
      obtain ⟨u, hu⟩ : ∃ u, commaJoin ((m :: l).map Member.full) ++ ch '\x7d' :: r
          = ch '"' :: u := by
        cases l with
        | nil => exact ⟨_, rfl⟩
        | cons m' l => exact ⟨_, rfl⟩
      rw [hu, skipSpace_cons (by decide)]
      rfl
    have hmembers := fun t => parseMembers_iff m l (n := k) (r := r) (s := t)
      (by simp only [List.length_cons, List.length_append, List.length_nil] at hf; omega)
    rw [if_neg (by rw [hhead]; simp)]
    constructor
    · intro hp
      obtain ⟨⟨l', r'⟩, hl, hlr⟩ := Option.map_eq_some_iff.mp hp
      simp only [Prod.mk.injEq, Json.obj.injEq] at hlr
      obtain ⟨rfl, rfl⟩ := hlr
      exact (hmembers _).mp hl
    · intro hg
      rw [(hmembers _).mpr hg]
      rfl

/-! ### Pieces of well-formed text -/

/-- In front of any text, the piece is well formed exactly when `good` holds. -/
def Utf8Piece (t : Bytes) (good : Prop) : Prop :=
  ∀ r, validUtf8 (t ++ r) = true ↔ good ∧ validUtf8 r = true

theorem utf8Piece_ascii {t : Bytes} (h : t.all (·.toNat < 0x80) = true) : Utf8Piece t True := by
  intro r
  have hall : ∀ c ∈ t, c.toNat < 0x80 := fun c hc => of_decide_eq_true (List.all_eq_true.mp h c hc)
  rw [validUtf8_ascii_append hall, true_and]

theorem Utf8Piece.append {t u : Bytes} {g k : Prop} (ht : Utf8Piece t g) (hu : Utf8Piece u k) :
    Utf8Piece (t ++ u) (g ∧ k) := by
  intro r
  rw [List.append_assoc, ht, hu, and_assoc]

/-- A text in front of an ASCII piece. -/
theorem Utf8Piece.of_ascii_cons {t u : Bytes} {c : UInt8} {k : Prop} (hc : c.toNat < 0x80)
    (hu : Utf8Piece u k) : Utf8Piece (t ++ c :: u) (validUtf8 t = true ∧ k) := by
  intro r
  rw [List.append_assoc, List.cons_append, validUtf8_append_ascii hc, hu, and_assoc]

theorem Utf8Piece.congr {t : Bytes} {g k : Prop} (h : Utf8Piece t g) (hgk : g ↔ k) :
    Utf8Piece t k := by
  intro r
  rw [h, hgk]

theorem Utf8Piece.valid {t : Bytes} {g : Prop} (h : Utf8Piece t g) :
    validUtf8 t = true ↔ g := by
  have := h []
  rw [List.append_nil] at this
  rw [this, and_iff_left (by rfl)]

theorem utf8Piece_quoted (p : Bytes) : Utf8Piece (quoted p) (validUtf8 p = true) := by
  have h : Utf8Piece ([ch '"'] ++ (p ++ ch '"' :: [])) (True ∧ (validUtf8 p = true ∧ True)) :=
    (utf8Piece_ascii (by decide)).append
      (Utf8Piece.of_ascii_cons (by decide) (utf8Piece_ascii rfl))
  exact h.congr (by simp)

theorem utf8Piece_commaJoin {α : Type} {text : α → Bytes} {good : α → Prop}
    (h : ∀ a, Utf8Piece (text a) (good a)) :
    ∀ l : List α, Utf8Piece (commaJoin (l.map text)) (∀ a ∈ l, good a)
  | [] => by
      intro r
      simp [commaJoin]
  | [a] => (h a).congr (by simp)
  | a :: b :: l => by
      intro r
      have hjoin : commaJoin ((a :: b :: l).map text)
          = text a ++ ([ch ','] ++ commaJoin ((b :: l).map text)) := rfl
      have hrest : Utf8Piece ([ch ','] ++ commaJoin ((b :: l).map text)) (∀ x ∈ b :: l, good x) :=
        ((utf8Piece_ascii (by decide)).append (utf8Piece_commaJoin h (b :: l))).congr (by rw [true_and])
      rw [hjoin, ((h a).append hrest) r]
      simp

theorem lt_of_isDigit {b : UInt8} (h : isDigit b = true) : b.toNat < 0x80 := by
  rw [isDigit_iff] at h
  omega

theorem utf8Piece_number (n : NumLit) : Utf8Piece n.text True := by
  have hexp : ∀ e : Option Int, ∀ b ∈ expPart e, b.toNat < 0x80 := by
    intro e b hb
    cases e with
    | none => simp [expPart] at hb
    | some e =>
        obtain ⟨sign, ds, htext, hneg, hpos, _, hds, _⟩ := expText_spec e
        rw [expPart, htext, List.mem_cons, List.mem_cons] at hb
        rcases hb with rfl | rfl | hb
        · decide
        · by_cases he : e < 0
          · rw [hneg.mpr he]; decide
          · rw [hpos (by omega)]; decide
        · exact lt_of_isDigit (hds b hb)
  refine utf8Piece_ascii (List.all_eq_true.mpr fun b hb => decide_eq_true ?_)
  rw [NumLit.text, List.mem_append, List.mem_append, List.mem_append] at hb
  rcases hb with hb | hb | hb | hb
  · split at hb
    · rw [List.mem_singleton] at hb
      rw [hb]; decide
    · simp at hb
  · exact lt_of_isDigit (isDigit_of_mem_printNat hb)
  · split at hb
    · simp at hb
    · rcases List.mem_cons.mp hb with rfl | hb
      · decide
      · exact lt_of_isDigit (n.frac_digits b hb)
  · exact hexp _ b hb

end Lib
