import Svgd.Backend.Prometheus

/-!
# Sample lines

A sample in the text exposition format: a name, labels with quoted values, a value and
an optional timestamp. The parser knows no quotes. It takes the first closing brace for
the end of the labels, so a line is read back as it was written exactly when no label
value has a closing brace (or a NUL, which ends the C string), and the value and the
timestamp survive their own buffers.
-/

namespace Svgd.Backend

open Lib

/-- A letter or a digit. -/
def isAlnum (b : UInt8) : Bool :=
  isDigit b || (65 ≤ b.toNat && b.toNat ≤ 90) || (97 ≤ b.toNat && b.toNat ≤ 122)

/-- A byte of a metric name or a label name. -/
def isNameByte (b : UInt8) : Bool := isAlnum b || b == ch '_' || b == ch ':'

/-- A byte of a number, an infinity or a NaN. -/
def isTokenByte (b : UInt8) : Bool :=
  isAlnum b || b == ch '+' || b == ch '-' || b == ch '.' || b == ch '_'

/-- A byte of a label value as it is written. -/
def escapeByte (b : UInt8) : Bytes :=
  if b = ch '\\' then str "\\\\"
  else if b = ch '"' then str "\\\""
  else if b = ch '\n' then str "\\n"
  else [b]

/-- A label as it is written: its name and its quoted value. -/
def labelText (l : Bytes × Bytes) : Bytes :=
  l.1 ++ (str "=\"" ++ (l.2.flatMap escapeByte ++ str "\""))

/-- The labels as they are written, between the braces. -/
def labelsText : List (Bytes × Bytes) → Bytes
  | [] => []
  | [l] => labelText l
  | l :: m :: ls => labelText l ++ ch ',' :: labelsText (m :: ls)

/-- A sample: the label values are arbitrary texts, the value is any token. -/
structure Exposition where
  name : Bytes
  labels : List (Bytes × Bytes)
  token : Bytes
  ts : Option Int
  name_ne : name ≠ []
  name_bytes : ∀ b ∈ name, isNameByte b = true
  label_bytes : ∀ l ∈ labels, ∀ b ∈ l.1, isNameByte b = true
  token_ne : token ≠ []
  token_bytes : ∀ b ∈ token, isTokenByte b = true

namespace Exposition

/-- The timestamp as it is written. -/
def tsText (s : Exposition) : Bytes :=
  match s.ts with
  | none => []
  | some t => ch ' ' :: printInt t

/-- What follows the labels. -/
def tail (s : Exposition) : Bytes := ch ' ' :: (s.token ++ s.tsText)

/-- The labels with their braces; a sample without labels has none. -/
def braces (s : Exposition) : Bytes :=
  if s.labels = [] then [] else ch '\x7b' :: (labelsText s.labels ++ [ch '\x7d'])

/-- The line of a sample. -/
def line (s : Exposition) : Bytes := s.name ++ (s.braces ++ s.tail)

end Exposition

/-! ## Bytes -/

/-- A byte outside a class is in no text of that class. -/
theorem not_mem_of_class {f : UInt8 → Bool} {w : Bytes} (h : ∀ b ∈ w, f b = true) {c : UInt8}
    (hc : f c = false) : c ∉ w := by
  intro hm
  exact ne_of_class (h c hm) hc rfl

theorem inName_of_isNameByte {b : UInt8} (h : isNameByte b = true) : inName b = true :=
  inName_of_class h (by decide) (by decide)

/-- Escaping neither makes nor hides a byte that takes no part in it. -/
theorem mem_escaped {v : Bytes} {c : UInt8} (hc : c ∉ str "\\\"n\n") :
    c ∈ v.flatMap escapeByte ↔ c ∈ v := by
  have hne : c ≠ ch '\\' ∧ c ≠ ch '"' ∧ c ≠ ch 'n' ∧ c ≠ ch '\n' := by
    simpa [str] using hc
  have hbyte : ∀ b, c ∈ escapeByte b ↔ c = b := by
    intro b
    unfold escapeByte
    split
    · rename_i hb
      simp [str, hb, hne.1]
    split
    · rename_i hb
      simp [str, hb, hne.1, hne.2.1]
    split
    · rename_i hb
      simp [str, hb, hne.1, hne.2.2.1, hne.2.2.2]
    · simp
  rw [List.mem_flatMap]
  constructor
  · intro h
    obtain ⟨b, hb, hm⟩ := h
    rwa [(hbyte b).mp hm]
  · intro hm
    exact ⟨c, hm, (hbyte c).mpr rfl⟩

section

variable {c : UInt8} (hc : c ∉ str "\\\"n\n=,") (hname : isNameByte c = false)

include hc hname

theorem mem_labelText {l : Bytes × Bytes} (h : ∀ b ∈ l.1, isNameByte b = true) :
    c ∈ labelText l ↔ c ∈ l.2 := by
  have hne : c ≠ ch '\\' ∧ c ≠ ch '"' ∧ c ≠ ch 'n' ∧ c ≠ ch '\n' ∧ c ≠ ch '=' ∧ c ≠ ch ',' := by
    simpa [str] using hc
  have hfixed : c ∉ str "=\"" ∧ c ∉ str "\"" ∧ c ∉ str "\\\"n\n" := by
    simp [str, hne]
  have hno : c ∉ l.1 := not_mem_of_class h hname
  unfold labelText
  rw [List.mem_append, List.mem_append, List.mem_append, mem_escaped hfixed.2.2]
  simp only [hno, hfixed.1, hfixed.2.1, false_or, or_false]

/-- A byte that is in no name and in no fixed text is in the labels only through a value. -/
theorem mem_labelsText : ∀ {labels : List (Bytes × Bytes)},
    (∀ l ∈ labels, ∀ b ∈ l.1, isNameByte b = true) →
    (c ∈ labelsText labels ↔ ∃ l ∈ labels, c ∈ l.2)
  | [], _ => by simp [labelsText]
  | [l], h => by
      rw [labelsText, mem_labelText hc hname (h l (by simp))]
      simp
  | l :: m :: ls, h => by
      have hcomma : c ≠ ch ',' := by
        intro he
        exact hc (he ▸ (by decide : ch ',' ∈ str "\\\"n\n=,"))
      have ih : c ∈ labelsText (m :: ls) ↔ ∃ l ∈ m :: ls, c ∈ l.2 :=
        mem_labelsText fun x hx => h x (List.mem_cons_of_mem l hx)
      rw [labelsText, List.mem_append, List.mem_cons, mem_labelText hc hname (h l (by simp)), ih]
      simp [hcomma]

end

/-! ## Reading a line -/

section

variable {strtod : Bytes → Double} {name labels : Bytes} {nameSize labelsSize : Nat}

/-- A word between a blank and a blank, or the end of the line. -/
theorem word_of_token {w s : Bytes} (hw : ∀ b ∈ w, inWord b = true)
    (hs : s = [] ∨ ∃ t, s = ch ' ' :: t) :
    (w ++ s).takeWhile inWord = w ∧ (w ++ s).dropWhile inWord = s := by
  rcases hs with hs | ⟨t, hs⟩
  · rw [hs, List.append_nil, List.takeWhile_eq_self_iff, List.dropWhile_eq_nil_iff]
    exact ⟨hw, hw⟩
  · rw [hs]
    exact ⟨takeWhile_token hw (by decide) t, dropWhile_token hw (by decide) t⟩

/-- One blank in front of a word is skipped. -/
theorem dropWhile_isBlank {w s : Bytes} (hne : w ≠ []) (hw : ∀ b ∈ w, inWord b = true) :
    (ch ' ' :: (w ++ s)).dropWhile isBlank = w ++ s := by
  obtain ⟨b, w', rfl⟩ := List.exists_cons_of_ne_nil hne
  have hb : isBlank b = false := by
    have := hw b (by simp)
    unfold inWord at this
    simp only [Bool.and_eq_true, Bool.not_eq_true'] at this
    exact this.1
  rw [List.dropWhile_cons_of_pos (by decide), List.cons_append,
    List.dropWhile_cons_of_neg (by simp [hb])]

theorem inWord_of_mem_printInt {t : Int} : ∀ b ∈ printInt t, inWord b = true := by
  intro b hb
  rcases mem_printInt hb with h | h
  · exact inWord_of_class h (by decide)
  · rw [h]
    decide

/-- The timestamp that is read: cut to its buffer, and saturated. -/
theorem promTimestamp_tsText (s : Exposition) :
    promTimestamp (s.tsText.dropWhile isBlank)
      = s.ts.map fun t => (strtoll ((printInt t).take 31)).getD 0 := by
  unfold Exposition.tsText
  cases s.ts with
  | none => rfl
  | some t =>
      have hskip : (ch ' ' :: printInt t).dropWhile isBlank = printInt t := by
        have := dropWhile_isBlank (s := []) (printInt_ne_nil t) inWord_of_mem_printInt
        simpa using this
      have htake : (printInt t).takeWhile inWord = printInt t :=
        List.takeWhile_eq_self_iff.mpr inWord_of_mem_printInt
      obtain ⟨b, r, hbr⟩ := List.exists_cons_of_ne_nil (printInt_ne_nil t)
      have hb : isLineEnd b = false := by
        have := inWord_of_mem_printInt (t := t) b (by rw [hbr]; simp)
        unfold inWord at this
        simp only [Bool.and_eq_true, Bool.not_eq_true'] at this
        exact this.2
      dsimp only
      rw [hskip]
      unfold promTimestamp
      rw [hbr] at htake ⊢
      dsimp only
      rw [htake, if_neg (by simp [hb]), if_neg (by simp), Option.map_some, hbr]

/-- What is read behind the labels. -/
theorem promTail_tail (s : Exposition) :
    promTail strtod name labels s.tail
      = .sample name labels (promValue strtod (s.token.take 63))
          (s.ts.map fun t => (strtoll ((printInt t).take 31)).getD 0) := by
  have hword : ∀ b ∈ s.token, inWord b = true := fun b hb =>
    inWord_of_class (s.token_bytes b hb) (by decide)
  have hend : s.tsText = [] ∨ ∃ t, s.tsText = ch ' ' :: t := by
    unfold Exposition.tsText
    cases s.ts with
    | none => exact Or.inl rfl
    | some t => exact Or.inr ⟨_, rfl⟩
  obtain ⟨htake, hdrop⟩ := word_of_token hword hend
  have hne : s.token.take 63 ≠ [] := by
    obtain ⟨b, w, hbw⟩ := List.exists_cons_of_ne_nil s.token_ne
    rw [hbw]
    simp
  unfold promTail Exposition.tail
  rw [dropWhile_isBlank s.token_ne hword]
  dsimp only
  rw [htake, hdrop, if_neg hne, promTimestamp_tsText]

/-- What is read when the labels have a closing brace: the text before the first one. -/
theorem promLabels_brace {r stop : Bytes} (h : strchr r (ch '\x7d') = some stop) :
    promLabels labelsSize strtod name (ch '\x7b' :: r)
      = promTail strtod name ((upTo r stop).take (labelsSize - 1)) (stop.drop 1) := by
  have hopen : startsWith (ch '\x7b' :: r) (str "\x7b") = true := rfl
  unfold promLabels
  rw [List.dropWhile_cons_of_neg (by decide)]
  dsimp only
  rw [if_pos hopen, List.drop_succ_cons, List.drop_zero, h]

theorem promLabels_unclosed {r : Bytes} (h : strchr r (ch '\x7d') = none) :
    promLabels labelsSize strtod name (ch '\x7b' :: r) = .malformed := by
  have hopen : startsWith (ch '\x7b' :: r) (str "\x7b") = true := rfl
  unfold promLabels
  rw [List.dropWhile_cons_of_neg (by decide)]
  dsimp only
  rw [if_pos hopen, List.drop_succ_cons, List.drop_zero, h]

/-- A sample without labels: the value starts with no brace. -/
theorem promLabels_tail (s : Exposition) :
    promLabels labelsSize strtod name s.tail = promTail strtod name [] s.tail := by
  have hword : ∀ b ∈ s.token, inWord b = true := fun b hb =>
    inWord_of_class (s.token_bytes b hb) (by decide)
  have hskip : s.tail.dropWhile isBlank = s.token ++ s.tsText :=
    dropWhile_isBlank s.token_ne hword
  have hopen : startsWith (s.token ++ s.tsText) (str "\x7b") = false := by
    obtain ⟨b, w, hbw⟩ := List.exists_cons_of_ne_nil s.token_ne
    have hb : ch '\x7b' ≠ b := by
      intro he
      have := s.token_bytes b (by rw [hbw]; simp)
      rw [← he] at this
      exact absurd this (by decide)
    rw [hbw]
    simp [str, hb]
  have hagain : (s.token ++ s.tsText).dropWhile isBlank = s.token ++ s.tsText := by
    rwa [Exposition.tail, List.dropWhile_cons_of_pos (by decide)] at hskip
  unfold promLabels promTail
  rw [hskip, if_neg (by rw [hopen]; decide)]
  dsimp only
  rw [hagain]

/-- The name of a sample is read whole if it fits. -/
theorem promParseLine_name (s : Exposition) (hsize : s.name.length < nameSize) (hlabels : 0 < labelsSize)
    {c : UInt8} (hc : inName c = false) (r : Bytes) :
    promParseLine nameSize labelsSize strtod (s.name ++ c :: r)
      = promLabels labelsSize strtod s.name (c :: r) := by
  have hin : ∀ b ∈ s.name, inName b = true := fun b hb => inName_of_isNameByte (s.name_bytes b hb)
  have htake : (s.name ++ c :: r).takeWhile inName = s.name := takeWhile_token hin hc r
  have hdrop : (s.name ++ c :: r).dropWhile inName = c :: r := dropWhile_token hin hc r
  obtain ⟨b, w, hbw⟩ := List.exists_cons_of_ne_nil s.name_ne
  have hb : isNameByte b = true := s.name_bytes b (by rw [hbw]; simp)
  have hne : ∀ d, isNameByte d = false → b ≠ d := fun d hd => ne_of_class hb hd
  have hskip : (s.name ++ c :: r).dropWhile isBlank = s.name ++ c :: r := by
    rw [hbw, List.cons_append, List.dropWhile_cons_of_neg]
    unfold isBlank
    simp [hne (ch ' ') (by decide), hne (ch '\t') (by decide)]
  have hstart : ¬ (isLineEnd b = true ∨ b = ch '#') := by
    unfold isLineEnd
    simp [hne (ch '\n') (by decide), hne (ch '\r') (by decide), hne (ch '#') (by decide)]
  unfold promParseLine
  rw [if_neg (by omega)]
  dsimp only
  rw [hskip, htake, hdrop, List.take_of_length_le (by omega), if_neg s.name_ne]
  rw [hbw, List.cons_append]
  dsimp only
  rw [if_neg hstart]

/-- The labels of a sample that was read are the text before the first closing brace. -/
theorem labels_of_promLabels {r nm L : Bytes} {v : Double} {ts : Option Int}
    (h : promLabels labelsSize strtod name (ch '\x7b' :: r) = .sample nm L v ts) :
    ∃ stop, strchr r (ch '\x7d') = some stop ∧ L.length ≤ (upTo r stop).length := by
  cases hstop : strchr r (ch '\x7d') with
  | none =>
      rw [promLabels_unclosed hstop] at h
      exact absurd h (by simp)
  | some stop =>
      refine ⟨stop, rfl, ?_⟩
      rw [promLabels_brace hstop] at h
      unfold promTail at h
      dsimp only at h
      split at h
      · exact absurd h (by simp)
      · injection h with _ hlabels
        rw [← hlabels, List.length_take]
        omega

end

/-! ## The exact condition -/

namespace Exposition

variable (s : Exposition)

/-- No label value misleads the parser. -/
def LabelsPlain : Prop := ∀ l ∈ s.labels, ch '\x7d' ∉ l.2 ∧ (0 : UInt8) ∉ l.2

theorem brace_mem_labelsText :
    ch '\x7d' ∈ labelsText s.labels ↔ ∃ l ∈ s.labels, ch '\x7d' ∈ l.2 :=
  mem_labelsText (by decide) (by decide) s.label_bytes

theorem zero_mem_labelsText :
    (0 : UInt8) ∈ labelsText s.labels ↔ ∃ l ∈ s.labels, (0 : UInt8) ∈ l.2 :=
  mem_labelsText (by decide) (by decide) s.label_bytes

theorem labelsPlain_iff :
    s.LabelsPlain ↔ ch '\x7d' ∉ labelsText s.labels ∧ (0 : UInt8) ∉ labelsText s.labels := by
  rw [s.brace_mem_labelsText, s.zero_mem_labelsText]
  unfold LabelsPlain
  push Not
  exact ⟨fun h => ⟨fun l hl => (h l hl).1, fun l hl => (h l hl).2⟩,
    fun h l hl => ⟨h.1 l hl, h.2 l hl⟩⟩

theorem zero_not_mem_name : (0 : UInt8) ∉ s.name := not_mem_of_class s.name_bytes (by decide)

theorem zero_not_mem_tail : (0 : UInt8) ∉ s.tail := by
  have htoken : (0 : UInt8) ∉ s.token := not_mem_of_class s.token_bytes (by decide)
  have hts : (0 : UInt8) ∉ s.tsText := by
    unfold tsText
    cases s.ts with
    | none => simp
    | some t =>
        rw [List.mem_cons, not_or]
        exact ⟨by decide, zero_not_mem_printInt t⟩
  unfold tail
  rw [List.mem_cons, List.mem_append, not_or, not_or]
  exact ⟨by decide, htoken, hts⟩

theorem cstr_line (hzero : (0 : UInt8) ∉ labelsText s.labels) : cstr s.line = s.line := by
  refine cstr_eq_self ?_
  unfold line braces
  rw [List.mem_append, List.mem_append, not_or, not_or]
  refine ⟨s.zero_not_mem_name, ?_, s.zero_not_mem_tail⟩
  split
  · simp
  · simp only [List.mem_cons, List.mem_append, not_or]
    exact ⟨by decide, hzero, by decide, by simp⟩

/-- A sample whose labels mislead nobody is read as it was written, up to the buffers of the
value and the timestamp. -/
theorem parse_plain (hplain : s.LabelsPlain) {nameSize labelsSize : Nat} {strtod : Bytes → Double}
    (hname : s.name.length < nameSize) (hlabels : (labelsText s.labels).length < labelsSize) :
    promParseLine nameSize labelsSize strtod (cstr s.line)
      = .sample s.name (labelsText s.labels) (promValue strtod (s.token.take 63))
          (s.ts.map fun t => (strtoll ((printInt t).take 31)).getD 0) := by
  obtain ⟨hbrace, hzero⟩ := s.labelsPlain_iff.mp hplain
  rw [s.cstr_line hzero]
  unfold line braces
  by_cases hnil : s.labels = []
  · rw [if_pos hnil, List.nil_append, hnil, labelsText]
    have htail : s.tail = ch ' ' :: (s.token ++ s.tsText) := rfl
    rw [htail, promParseLine_name s hname (by omega) (by decide), ← htail, promLabels_tail,
      promTail_tail]
  · rw [if_neg hnil, List.cons_append, List.append_assoc, List.singleton_append,
      promParseLine_name s hname (by omega) (by decide), promLabels_brace (strchr_append hbrace),
      upTo_append, List.take_of_length_le (by omega), List.drop_succ_cons, List.drop_zero,
      promTail_tail]

/-- Labels that mislead the parser come back shorter. -/
theorem parse_not_plain (hplain : ¬ s.LabelsPlain) {nameSize labelsSize : Nat}
    {strtod : Bytes → Double} (hname : s.name.length < nameSize) (hlabels : 0 < labelsSize)
    {nm : Bytes} {v : Double} {ts : Option Int} :
    promParseLine nameSize labelsSize strtod (cstr s.line)
      ≠ .sample nm (labelsText s.labels) v ts := by
  have hne : s.labels ≠ [] := by
    intro hnil
    refine hplain ?_
    intro l hl
    rw [hnil] at hl
    simp at hl
  -- the parser sees the labels up to a NUL, or all of them with a brace too many
  have hsee : ∃ r, cstr s.line = s.name ++ ch '\x7b' :: r
      ∧ ∀ stop, strchr r (ch '\x7d') = some stop →
        (upTo r stop).length < (labelsText s.labels).length := by
    by_cases hzero : (0 : UInt8) ∈ labelsText s.labels
    · refine ⟨cstr (labelsText s.labels), ?_, ?_⟩
      · unfold line braces
        rw [if_neg hne, cstr_append s.zero_not_mem_name, List.cons_append, List.append_assoc]
        have hopen : (0 : UInt8) ∉ [ch '\x7b'] := by decide
        rw [← List.singleton_append, cstr_append hopen, cstr_append_of_mem hzero,
          List.singleton_append]
      · intro stop hstop
        obtain ⟨u, t, hu, ht, -⟩ := strchr_some hstop
        have hle : (cstr (labelsText s.labels)).length ≤ (labelsText s.labels).length :=
          (List.takeWhile_sublist _).length_le
        rw [hu, upTo_append]
        rw [hu, ht, List.length_append, List.length_cons] at hle
        omega
    · have hbrace : ch '\x7d' ∈ labelsText s.labels := by
        by_contra hno
        exact hplain (s.labelsPlain_iff.mpr ⟨hno, hzero⟩)
      obtain ⟨u, w, huw, hu⟩ := List.eq_append_cons_of_mem hbrace
      refine ⟨labelsText s.labels ++ ch '\x7d' :: s.tail, ?_, ?_⟩
      · rw [s.cstr_line hzero]
        unfold line braces
        rw [if_neg hne]
        simp
      · intro stop hstop
        rw [huw, List.append_assoc, List.cons_append, strchr_append hu] at hstop
        rw [← Option.some.inj hstop, huw, List.append_assoc, List.cons_append, upTo_append,
          List.length_append, List.length_cons]
        omega
  obtain ⟨r, hline, hshort⟩ := hsee
  intro h
  rw [hline, promParseLine_name s hname hlabels (by decide)] at h
  obtain ⟨stop, hstop, hlen⟩ := labels_of_promLabels h
  have := hshort stop hstop
  omega

/-- The timestamp survives exactly when it is a 64-bit number. -/
theorem ts_survives :
    (s.ts.map fun t => (strtoll ((printInt t).take 31)).getD 0) = s.ts
      ↔ ∀ t, s.ts = some t → -2 ^ 63 ≤ t ∧ t < 2 ^ 63 := by
  have hrange : ∀ w : Bytes, -2 ^ 63 ≤ (strtoll w).getD 0 ∧ (strtoll w).getD 0 < 2 ^ 63 := by
    intro w
    cases hz : strtoll w with
    | none => decide
    | some z => exact strtoll_range hz
  cases s.ts with
  | none => simp
  | some t =>
      rw [Option.map_some, Option.some.injEq]
      constructor
      · intro h u hu
        rw [← Option.some.inj hu, ← h]
        exact hrange _
      · intro h
        obtain ⟨hmin, hmax⟩ := h t rfl
        have hlen := length_printInt_le (z := t) (by omega)
        have hread := strtoll_printInt t (s := []) (by simp)
        rw [List.append_nil] at hread
        rw [List.take_of_length_le (by omega), hread, Option.getD_some]
        unfold saturate64
        omega

end Exposition

/--
**When a sample line is read back.**

For names and labels that fit their buffers: exactly when no label value has a closing
brace or a NUL, the first 63 bytes of the value token have its value, and the timestamp
is a 64-bit number.
-/
theorem prom_line_iff (s : Exposition) (nameSize labelsSize : Nat) (strtod : Bytes → Double)
    (hname : s.name.length < nameSize) (hlabels : (labelsText s.labels).length < labelsSize) :
    promParseLine nameSize labelsSize strtod (cstr s.line)
        = .sample s.name (labelsText s.labels) (promValue strtod s.token) s.ts
      ↔ (∀ l ∈ s.labels, ch '\x7d' ∉ l.2 ∧ (0 : UInt8) ∉ l.2)
        ∧ promValue strtod (s.token.take 63) = promValue strtod s.token
        ∧ ∀ t, s.ts = some t → -2 ^ 63 ≤ t ∧ t < 2 ^ 63 := by
  by_cases hplain : s.LabelsPlain
  · rw [s.parse_plain hplain hname hlabels, PromLine.sample.injEq, ← s.ts_survives]
    constructor
    · intro h
      obtain ⟨-, -, hvalue, hts⟩ := h
      exact ⟨hplain, hvalue, hts⟩
    · intro h
      obtain ⟨-, hvalue, hts⟩ := h
      exact ⟨rfl, rfl, hvalue, hts⟩
  · refine iff_of_false (s.parse_not_plain hplain hname (by omega)) ?_
    intro h
    exact hplain h.1

/-- A reading of the tokens in the samples below. -/
def sampleStrtod (token : Bytes) : Double := if token = str "1.5" then .fin (3 / 2) else .fin 0

/-- A request counter with one label. -/
def sampleRequests (path : Bytes) : Exposition where
  name := str "requests"
  labels := [(str "path", path)]
  token := str "1.5"
  ts := some 1700000000123
  name_ne := by decide
  name_bytes := List.all_eq_true.mp (by decide)
  label_bytes := by
    intro l hl
    rw [List.mem_singleton.mp hl]
    exact List.all_eq_true.mp (by decide : (str "path").all isNameByte = true)
  token_ne := by decide
  token_bytes := List.all_eq_true.mp (by decide)

/-- Blanks, quotes and hash signs in a value do no harm. -/
theorem prom_line_blanks :
    let s := sampleRequests (str "/a b\"#c")
    cstr s.line = str "requests\x7bpath=\"/a b\\\"#c\"\x7d 1.5 1700000000123"
      ∧ promParseLine 128 256 sampleStrtod (cstr s.line)
        = .sample (str "requests") (str "path=\"/a b\\\"#c\"") (.fin (3 / 2)) (some 1700000000123) := by
  intro s
  refine ⟨by decide +kernel, ?_⟩
  refine (prom_line_iff s 128 256 sampleStrtod (by decide) (by decide)).mpr ⟨by decide, rfl, ?_⟩
  intro t ht
  rw [← Option.some.inj ht]
  decide

/-- A closing brace in a value ends the labels there: the rest of the value is taken for the
number, and the number for the timestamp. -/
theorem prom_line_brace :
    let s := sampleRequests (str "a\x7db")
    cstr s.line = str "requests\x7bpath=\"a\x7db\"\x7d 1.5 1700000000123"
      ∧ promParseLine 128 256 sampleStrtod (cstr s.line)
        = .sample (str "requests") (str "path=\"a") (.fin 0) (some 1)
      ∧ promParseLine 128 256 sampleStrtod (cstr s.line)
        ≠ .sample s.name (labelsText s.labels) (promValue sampleStrtod s.token) s.ts := by
  decide +kernel

end Svgd.Backend
