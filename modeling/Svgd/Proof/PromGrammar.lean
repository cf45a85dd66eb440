import Svgd.Backend.Prometheus
import Svgd.Lib.Literal
import Mathlib.Data.List.DropRight

/-!
# What the line parser accepts

The parser cuts a line into a name, labels and up to two words, and answers as soon as it has
them. It converts the words without looking at what the conversion left, and never looks at
what follows the second one. A line is accepted exactly when there is a word where a value
should be, so nothing but a sample is accepted exactly when that word is a number, the next one
is an integer, and nothing follows.
-/

namespace Svgd.Backend

open Lib

/-! ## The parts of a line -/

/-- The next word of a text; empty at the end of the line. -/
def word (p : Bytes) : Bytes := (p.dropWhile isBlank).takeWhile inWord

/-- What follows the next word. -/
def behindWord (p : Bytes) : Bytes := (p.dropWhile isBlank).dropWhile inWord

/-- The text in which the value is looked for, with the name and the labels before it. -/
structure LineParts where
  name : Bytes
  labels : Bytes
  rest : Bytes
deriving DecidableEq

/-- The parts of a line without leading blanks; none if the labels are not closed. -/
def lineParts (p : Bytes) : Option LineParts :=
  let name := p.takeWhile inName
  let q := (p.dropWhile inName).dropWhile isBlank
  if startsWith q (str "\x7b") then
    (strchr (q.drop 1) (ch '\x7d')).map fun stop =>
      ⟨name, upTo (q.drop 1) stop, stop.drop 1⟩
  else some ⟨name, [], q⟩

/-- A line without leading blanks that is not parsed: it is at its end, or a comment. -/
def Passed (p : Bytes) : Prop := ∀ b ∈ p.head?, isLineEnd b = true ∨ b = ch '#'

/-- The timestamp a word stands for, cut to its buffer. -/
def stampOf (w : Bytes) : Option Int :=
  if w = [] then none else some ((strtoll (w.take 31)).getD 0)

/-- The timestamp of a text: the next word, whatever it is. -/
def stamp (p : Bytes) : Option Int := stampOf (word p)

theorem dropWhile_head {f : UInt8 → Bool} {p : Bytes} : ∀ b ∈ (p.dropWhile f).head?, f b = false := by
  intro b hb
  have h := List.head?_dropWhile_not f p
  rw [Option.mem_def.mp hb] at h
  simpa using h

/-- A word ends at a blank, at a line end or with the text. -/
theorem inWord_eq_false {b : UInt8} : inWord b = false ↔ isBlank b = true ∨ isLineEnd b = true := by
  unfold inWord
  cases isBlank b <;> cases isLineEnd b <;> simp

theorem take_eq_nil {w : Bytes} {n : Nat} : w.take (n + 1) = [] ↔ w = [] := by
  simp

theorem promTimestamp_eq (p : Bytes) : promTimestamp (p.dropWhile isBlank) = stamp p := by
  have hhead := dropWhile_head (f := isBlank) (p := p)
  unfold promTimestamp stamp stampOf word
  cases hp : p.dropWhile isBlank with
  | nil => rfl
  | cons b q =>
      have hb : isBlank b = false := hhead b (by rw [hp]; rfl)
      dsimp only
      by_cases hend : isLineEnd b = true
      · have hstop : inWord b = false := inWord_eq_false.mpr (Or.inr hend)
        rw [if_pos hend, List.takeWhile_cons_of_neg (by simp [hstop]), if_pos rfl]
      · rw [if_neg hend]
        exact if_congr take_eq_nil rfl rfl

theorem promTail_eq (strtod : Bytes → Double) (name labels p : Bytes) :
    promTail strtod name labels p
      = if word p = [] then .malformed
        else .sample name labels (promValue strtod ((word p).take 63)) (stamp (behindWord p)) := by
  have hstamp := promTimestamp_eq (behindWord p)
  unfold behindWord at hstamp ⊢
  unfold promTail
  dsimp only
  rw [hstamp]
  exact if_congr take_eq_nil rfl rfl

/-- The rest of the parser, on the parts of the line. -/
theorem promLabels_eq (labelsSize : Nat) (strtod : Bytes → Double) (name p : Bytes) :
    promLabels labelsSize strtod name (p.dropWhile inName)
      = match lineParts p with
        | none => .malformed
        | some parts =>
            if word parts.rest = [] then .malformed
            else .sample name (parts.labels.take (labelsSize - 1))
              (promValue strtod ((word parts.rest).take 63)) (stamp (behindWord parts.rest)) := by
  unfold promLabels lineParts
  dsimp only
  generalize (p.dropWhile inName).dropWhile isBlank = q
  by_cases hopen : startsWith q (str "\x7b") = true
  · rw [if_pos hopen, if_pos hopen]
    cases strchr (q.drop 1) (ch '\x7d') with
    | none => rfl
    | some stop => exact promTail_eq _ _ _ _
  · rw [if_neg hopen, if_neg hopen, promTail_eq]
    dsimp only
    rw [List.take_nil]

/-- **The parser, on the parts of the line.** -/
theorem promParseLine_eq {nameSize labelsSize : Nat} (strtod : Bytes → Double) (line : Bytes)
    (hname : nameSize ≠ 0) (hlabels : labelsSize ≠ 0) :
    let p := line.dropWhile isBlank
    (Passed p ∧ promParseLine nameSize labelsSize strtod line = .skip)
      ∨ (¬Passed p ∧ promParseLine nameSize labelsSize strtod line
        = if (p.takeWhile inName).take (nameSize - 1) = [] then .malformed
          else match lineParts p with
            | none => .malformed
            | some parts =>
                if word parts.rest = [] then .malformed
                else .sample ((p.takeWhile inName).take (nameSize - 1))
                  (parts.labels.take (labelsSize - 1))
                  (promValue strtod ((word parts.rest).take 63)) (stamp (behindWord parts.rest))) := by
  have hsize : ¬(nameSize = 0 ∨ labelsSize = 0) := by
    rw [not_or]
    exact ⟨hname, hlabels⟩
  unfold promParseLine Passed
  rw [if_neg hsize]
  dsimp only
  cases line.dropWhile isBlank with
  | nil => exact Or.inl ⟨by simp, rfl⟩
  | cons b q =>
      dsimp only [List.head?_cons]
      by_cases hpass : isLineEnd b = true ∨ b = ch '#'
      · refine Or.inl ⟨?_, if_pos hpass⟩
        intro c hc
        rw [← Option.some.inj hc]
        exact hpass
      · refine Or.inr ⟨fun hall => hpass (hall b rfl), ?_⟩
        rw [if_neg hpass, promLabels_eq]

/-! ## Samples -/

/-- What stands for a value. -/
def IsValue (w : Bytes) : Prop :=
  isFloatLiteral w = true ∨ w ∈ [str "NaN", str "Inf", str "+Inf", str "-Inf"]

/-- What can follow a value: a timestamp or nothing, up to the end of the line. -/
inductive SampleEnd : Bytes → Prop
  | plain {s e : Bytes} (blank : ∀ b ∈ s, isBlank b = true) (ended : ∀ b ∈ e, isLineEnd b = true) :
      SampleEnd (s ++ e)
  | stamped {s t s' e : Bytes} (blank : ∀ b ∈ s, isBlank b = true) (apart : s ≠ [])
      (integer : isIntegerLiteral t = true) (blank' : ∀ b ∈ s', isBlank b = true)
      (ended : ∀ b ∈ e, isLineEnd b = true) : SampleEnd (s ++ (t ++ (s' ++ e)))

/-- A name: the parser takes any word up to a brace for one, but for a comment. -/
structure IsName (w : Bytes) : Prop where
  ne : w ≠ []
  bytes : ∀ b ∈ w, inName b = true
  no_comment : w.head? ≠ some (ch '#')

/-- Everything in front of a value that starts with `b`: blanks, a name, labels, blanks. -/
inductive Lead : Bytes → Bytes → Bytes → UInt8 → Prop
  | bare {s name s' : Bytes} {b : UInt8} (blank : ∀ c ∈ s, isBlank c = true) (isName : IsName name)
      (blank' : ∀ c ∈ s', isBlank c = true) (apart : s' ≠ []) (first : inName b = true) :
      Lead (s ++ (name ++ s')) name [] b
  | labelled {s name s' labels s'' : Bytes} {b : UInt8} (blank : ∀ c ∈ s, isBlank c = true)
      (isName : IsName name) (blank' : ∀ c ∈ s', isBlank c = true) (closed : ch '\x7d' ∉ labels)
      (blank'' : ∀ c ∈ s'', isBlank c = true) (first : inWord b = true) :
      Lead (s ++ (name ++ (s' ++ ch '\x7b' :: (labels ++ ch '\x7d' :: s'')))) name labels b

/-- The lines that are samples. -/
inductive Sample : Bytes → Prop
  | intro {u name labels v t : Bytes} {b : UInt8} (lead : Lead u name labels b)
      (value : IsValue (b :: v)) (ending : SampleEnd t) : Sample (u ++ b :: (v ++ t))

/-- The lines without a sample. -/
def EmptyOrComment (line : Bytes) : Prop :=
  (∀ b ∈ line.dropWhile isBlank, isLineEnd b = true)
    ∨ (line.dropWhile isBlank).head? = some (ch '#')

/-- `prom_parse_line` does on this line what it is for: it accepts samples, and reports what is
neither a sample nor empty. -/
structure AcceptsOnlySamples (nameSize labelsSize : Nat) (strtod : Bytes → Double) (line : Bytes) :
    Prop where
  sample : ∀ name labels v ts,
    promParseLine nameSize labelsSize strtod line = .sample name labels v ts → Sample line
  malformed : ¬Sample line → ¬EmptyOrComment line →
    promParseLine nameSize labelsSize strtod line = .malformed

/-! ## Cutting words -/

theorem inWord_of_isLiteralByte {b : UInt8} (h : isLiteralByte b = true) : inWord b = true :=
  inWord_of_class h (by decide)

theorem isValue_word {v : Bytes} (h : IsValue v) : v ≠ [] ∧ ∀ b ∈ v, inName b = true := by
  rcases h with h | h
  · obtain ⟨hne, hbytes⟩ := isFloatLiteral_bytes h
    exact ⟨hne, fun b hb => inName_of_class (hbytes b hb) (by decide) (by decide)⟩
  · have hnames : ∀ w ∈ [str "NaN", str "Inf", str "+Inf", str "-Inf"],
        w ≠ [] ∧ w.all inName = true := by decide
    obtain ⟨hne, hbytes⟩ := hnames v h
    exact ⟨hne, List.all_eq_true.mp hbytes⟩

theorem inWord_of_inName {b : UInt8} (h : inName b = true) : inWord b = true := by
  unfold inName at h
  rw [Bool.and_eq_true] at h
  exact h.1

theorem not_isBlank_of_inWord {b : UInt8} (h : inWord b = true) : isBlank b = false := by
  unfold inWord at h
  rw [Bool.and_eq_true, Bool.not_eq_true'] at h
  exact h.1

theorem not_isBlank_of_isLineEnd {b : UInt8} (h : isLineEnd b = true) : isBlank b = false := by
  unfold isLineEnd at h
  rw [Bool.or_eq_true, beq_iff_eq, beq_iff_eq] at h
  rcases h with rfl | rfl
  · decide
  · decide

/-- The head of two pieces is the head of the first that is not empty. -/
theorem head_append {P : UInt8 → Prop} {w t : Bytes} (hw : ∀ b ∈ w, P b)
    (ht : w = [] → ∀ b ∈ t.head?, P b) : ∀ b ∈ (w ++ t).head?, P b := by
  cases w with
  | nil => exact ht rfl
  | cons c w =>
      intro b hb
      rw [← Option.some.inj hb]
      exact hw c (by simp)

/-- A text of blanks, a word and what ends it. -/
theorem word_split {s w t : Bytes} (hs : ∀ b ∈ s, isBlank b = true) (hw : ∀ b ∈ w, inWord b = true)
    (ht : ∀ b ∈ t.head?, inWord b = false) (hend : w = [] → ∀ b ∈ t.head?, isBlank b = false) :
    word (s ++ (w ++ t)) = w ∧ behindWord (s ++ (w ++ t)) = t := by
  have hskip : (s ++ (w ++ t)).dropWhile isBlank = w ++ t :=
    (span_token hs (head_append (fun b hb => not_isBlank_of_inWord (hw b hb)) hend)).2
  unfold word behindWord
  rw [hskip]
  exact span_token hw ht

/-- Every text is cut that way. -/
theorem word_append (p : Bytes) : p = p.takeWhile isBlank ++ (word p ++ behindWord p) := by
  unfold word behindWord
  rw [List.takeWhile_append_dropWhile, List.takeWhile_append_dropWhile]

theorem word_bytes {p : Bytes} : ∀ b ∈ word p, inWord b = true :=
  fun _ hb => List.mem_takeWhile_imp hb

/-- Without a word the text goes on behind its blanks. -/
theorem behindWord_of_nil {p : Bytes} (h : word p = []) : behindWord p = p.dropWhile isBlank := by
  have := List.takeWhile_append_dropWhile (p := inWord) (l := p.dropWhile isBlank)
  unfold word at h
  rw [h, List.nil_append] at this
  exact this

/-! ## The parser against the grammar -/

/-- The words behind the labels are a value and perhaps a timestamp, and nothing else. -/
structure Clean (p : Bytes) : Prop where
  value : IsValue (word p)
  stamp : word (behindWord p) = [] ∨ isIntegerLiteral (word (behindWord p)) = true
  ended : ∀ b ∈ (behindWord (behindWord p)).dropWhile isBlank, isLineEnd b = true

/-- The parts of the line the parser reads leave nothing over. -/
structure NothingLeft (nameSize labelsSize : Nat) (line : Bytes) : Prop where
  /-- An empty line ends with its line end. -/
  empty : 0 < nameSize → 0 < labelsSize → ∀ b t, line.dropWhile isBlank = b :: t →
    isLineEnd b = true → ∀ c ∈ t, isLineEnd c = true
  /-- Where there is a value, all words are what they should be. -/
  words : 1 < nameSize → 0 < labelsSize → ¬Passed (line.dropWhile isBlank) →
    ∀ parts ∈ lineParts (line.dropWhile isBlank), parts.name ≠ [] →
      word parts.rest = [] ∨ Clean parts.rest

theorem ended_head {e : Bytes} (h : ∀ b ∈ e, isLineEnd b = true) :
    (∀ b ∈ e.head?, inWord b = false) ∧ ∀ b ∈ e.head?, isBlank b = false :=
  ⟨fun b hb => inWord_eq_false.mpr (Or.inr (h b (List.mem_of_mem_head? hb))),
    fun b hb => not_isBlank_of_isLineEnd (h b (List.mem_of_mem_head? hb))⟩

/-- Blanks and a line end stop a word. -/
theorem blanks_head {s e : Bytes} (hs : ∀ b ∈ s, isBlank b = true)
    (he : ∀ b ∈ e.head?, inWord b = false) : ∀ b ∈ (s ++ e).head?, inWord b = false :=
  head_append (fun b hb => inWord_eq_false.mpr (Or.inl (hs b hb))) fun _ => he

theorem SampleEnd.head {t : Bytes} (h : SampleEnd t) : ∀ b ∈ t.head?, inWord b = false := by
  cases h with
  | plain blank ended => exact blanks_head blank (ended_head ended).1
  | stamped blank apart _ _ _ =>
      exact head_append (fun b hb => inWord_eq_false.mpr (Or.inl (blank b hb)))
        fun hnil => absurd hnil apart

/-- A value with its end is cut as it was written. -/
theorem clean_of_value {s v t : Bytes} (blank : ∀ b ∈ s, isBlank b = true) (value : IsValue v)
    (ending : SampleEnd t) : Clean (s ++ (v ++ t)) := by
  obtain ⟨hne, hname⟩ := isValue_word value
  obtain ⟨hword, hbehind⟩ := word_split blank (fun b hb => inWord_of_inName (hname b hb)) ending.head
    fun hnil => absurd hnil hne
  refine ⟨by rw [hword]; exact value, ?_, ?_⟩
  · rw [hbehind]
    cases ending with
    | plain blank ended =>
        obtain ⟨hstop, hend⟩ := ended_head ended
        exact Or.inl (word_split blank (w := []) (by simp) hstop fun _ => hend).1
    | stamped blank apart integer blank' ended =>
        obtain ⟨hne, hbytes⟩ := isIntegerLiteral_bytes integer
        rw [(word_split blank (fun b hb => inWord_of_isLiteralByte (hbytes b hb))
          (blanks_head blank' (ended_head ended).1) fun hnil => absurd hnil hne).1]
        exact Or.inr integer
  · rw [hbehind]
    cases ending with
    | @plain s e blank ended =>
        obtain ⟨hstop, hend⟩ := ended_head ended
        have hrest := (word_split blank (w := []) (by simp) hstop fun _ => hend).2
        rw [List.nil_append] at hrest
        rw [hrest]
        intro b hb
        exact ended b ((List.dropWhile_sublist _).subset hb)
    | @stamped s w s' e blank apart integer blank' ended =>
        obtain ⟨hne, hbytes⟩ := isIntegerLiteral_bytes integer
        obtain ⟨hstop, hend⟩ := ended_head ended
        rw [(word_split blank (fun b hb => inWord_of_isLiteralByte (hbytes b hb))
          (blanks_head blank' hstop) fun hnil => absurd hnil hne).2, (span_token blank' hend).2]
        exact ended

/-- And what is cut cleanly was written so. -/
theorem Clean.sampleEnd {p : Bytes} (h : Clean p) : SampleEnd (behindWord p) := by
  have hblank : ∀ q : Bytes, ∀ b ∈ q.takeWhile isBlank, isBlank b = true :=
    fun q b hb => List.mem_takeWhile_imp hb
  rw [word_append (behindWord p)]
  by_cases hword : word (behindWord p) = []
  · rw [hword, List.nil_append]
    refine SampleEnd.plain (hblank _) ?_
    have hended := h.ended
    rw [behindWord_of_nil hword, List.dropWhile_idempotent] at hended
    rw [behindWord_of_nil hword]
    exact hended
  · have happart : (behindWord p).takeWhile isBlank ≠ [] := by
      -- the value ends at a byte outside of words, and the timestamp starts with one inside
      intro hnil
      have hcut := word_append (behindWord p)
      obtain ⟨b, w, hbw⟩ := List.exists_cons_of_ne_nil hword
      rw [hnil, List.nil_append, hbw] at hcut
      have hin : inWord b = true := word_bytes b (by rw [hbw]; simp)
      have hout : inWord b = false := dropWhile_head b (by
        show (behindWord p).head? = some b
        rw [hcut]
        rfl)
      rw [hin] at hout
      exact absurd hout (by simp)
    have hlast := List.takeWhile_append_dropWhile (p := isBlank) (l := behindWord (behindWord p))
    rw [← hlast]
    refine SampleEnd.stamped (hblank _) happart ?_ (hblank _) h.ended
    rcases h.stamp with hnil | hint
    · exact absurd hnil hword
    · exact hint

theorem not_inName_of_isBlank {b : UInt8} (h : isBlank b = true) : inName b = false := by
  unfold inName
  rw [inWord_eq_false.mpr (Or.inl h)]
  rfl

/-- A name at the start of a line is found. -/
theorem IsName.found {s name x : Bytes} (h : IsName name) (hs : ∀ b ∈ s, isBlank b = true)
    (hx : ∀ b ∈ x.head?, inName b = false) :
    (s ++ (name ++ x)).dropWhile isBlank = name ++ x ∧ ¬Passed (name ++ x)
      ∧ (name ++ x).takeWhile inName = name ∧ (name ++ x).dropWhile inName = x := by
  obtain ⟨b, w, hbw⟩ := List.exists_cons_of_ne_nil h.ne
  have hb : inWord b = true := inWord_of_inName (h.bytes b (by rw [hbw]; simp))
  have hhead : ∀ c ∈ (name ++ x).head?, c = b := by
    intro c hc
    rw [hbw] at hc
    exact (Option.some.inj hc).symm
  refine ⟨(span_token hs ?_).2, ?_, span_token h.bytes hx⟩
  · intro c hc
    rw [hhead c hc]
    exact not_isBlank_of_inWord hb
  · intro hpass
    rcases hpass b (by rw [hbw]; rfl) with hend | hcomment
    · have := inWord_eq_false.mpr (Or.inr hend)
      rw [hb] at this
      exact absurd this (by simp)
    · apply h.no_comment
      rw [hbw, hcomment]
      rfl

/-- The parser finds the parts of a line in front of its value. -/
theorem Lead.parts {u name labels : Bytes} {b : UInt8} (h : Lead u name labels b) (x : Bytes) :
    ¬Passed ((u ++ b :: x).dropWhile isBlank) ∧ name ≠ [] ∧ inWord b = true
      ∧ ∃ rest, lineParts ((u ++ b :: x).dropWhile isBlank) = some ⟨name, labels, rest⟩
        ∧ rest.dropWhile isBlank = b :: x := by
  cases h with
  | @bare s _ s' _ blank isName blank' apart first =>
      have hx : ∀ c ∈ (s' ++ b :: x).head?, inName c = false :=
        head_append (fun c hc => not_inName_of_isBlank (blank' c hc)) fun hnil => absurd hnil apart
      obtain ⟨hskip, hpass, htake, hdrop⟩ := isName.found blank hx
      have hword := inWord_of_inName first
      have hopen : ¬startsWith (b :: x) (str "\x7b") = true := by
        intro hbrace
        have heq : ch '\x7b' = b := by simpa [str] using hbrace
        rw [← heq] at first
        exact absurd first (by decide)
      have hrest := dropWhile_token blank' (not_isBlank_of_inWord hword) x
      rw [List.append_assoc, List.append_assoc, hskip]
      refine ⟨hpass, isName.ne, hword, b :: x, ?_,
        List.dropWhile_cons_of_neg (by simp [not_isBlank_of_inWord hword])⟩
      unfold lineParts
      rw [htake, hdrop, hrest]
      exact if_neg hopen
  | @labelled s _ s' _ s'' _ blank isName blank' closed blank'' first =>
      have hx : ∀ c ∈ (s' ++ ch '\x7b' :: (labels ++ ch '\x7d' :: (s'' ++ b :: x))).head?,
          inName c = false := by
        refine head_append (fun c hc => not_inName_of_isBlank (blank' c hc)) fun _ c hc => ?_
        rw [← Option.some.inj hc]
        decide
      obtain ⟨hskip, hpass, htake, hdrop⟩ := isName.found blank hx
      have hopen : startsWith (ch '\x7b' :: (labels ++ ch '\x7d' :: (s'' ++ b :: x))) (str "\x7b")
          = true := rfl
      have hline : s ++ (name ++ (s' ++ ch '\x7b' :: (labels ++ ch '\x7d' :: s''))) ++ b :: x
          = s ++ (name ++ (s' ++ ch '\x7b' :: (labels ++ ch '\x7d' :: (s'' ++ b :: x)))) := by
        simp only [List.append_assoc, List.cons_append]
      rw [hline, hskip]
      refine ⟨hpass, isName.ne, first, s'' ++ b :: x, ?_,
        dropWhile_token blank'' (not_isBlank_of_inWord first) x⟩
      unfold lineParts
      rw [htake, hdrop, dropWhile_token blank' (by decide)]
      dsimp only
      rw [if_pos hopen, List.drop_succ_cons, List.drop_zero, strchr_append closed, Option.map_some,
        upTo_append]
      rfl

/-- And where it finds a value, these parts stand in front of it. -/
theorem lead_of_parts {line : Bytes} {parts : LineParts} (hpass : ¬Passed (line.dropWhile isBlank))
    (hparts : lineParts (line.dropWhile isBlank) = some parts) (hname : parts.name ≠ [])
    (hword : word parts.rest ≠ []) :
    ∃ u b x, Lead u parts.name parts.labels b ∧ line = u ++ b :: x
      ∧ parts.rest.dropWhile isBlank = b :: x := by
  have hblank : ∀ q : Bytes, ∀ b ∈ q.takeWhile isBlank, isBlank b = true :=
    fun q b hb => List.mem_takeWhile_imp hb
  have hline := List.takeWhile_append_dropWhile (p := isBlank) (l := line)
  generalize line.dropWhile isBlank = p at hpass hparts hline
  have hp := List.takeWhile_append_dropWhile (p := inName) (l := p)
  have hq := List.takeWhile_append_dropWhile (p := isBlank) (l := p.dropWhile inName)
  have hisName : p.takeWhile inName ≠ [] → IsName (p.takeWhile inName) := by
    intro hne
    refine ⟨hne, fun b hb => List.mem_takeWhile_imp hb, ?_⟩
    intro hcomment
    apply hpass
    intro b hb
    have hhead : p.head? = some (ch '#') := by
      rw [← hp, List.head?_append, hcomment]
      rfl
    rw [hhead] at hb
    exact Or.inr (Option.some.inj hb).symm
  -- the value starts with a byte of a word
  obtain ⟨b, x, hrest, hfirst⟩ : ∃ b x, parts.rest.dropWhile isBlank = b :: x ∧ inWord b = true := by
    unfold word at hword
    cases hrest : parts.rest.dropWhile isBlank with
    | nil =>
        rw [hrest] at hword
        exact absurd rfl hword
    | cons b x =>
        refine ⟨b, x, rfl, ?_⟩
        by_contra hout
        rw [hrest, List.takeWhile_cons_of_neg hout] at hword
        exact hword rfl
  rw [← hline, ← hp, ← hq]
  unfold lineParts at hparts
  dsimp only at hparts
  split at hparts
  · rename_i hopen
    obtain ⟨q, hbrace⟩ := startsWith_iff.mp hopen
    rw [hbrace] at hparts ⊢
    obtain ⟨stop, hstop, rfl⟩ := Option.map_eq_some_iff.mp hparts
    obtain ⟨labels, r, hlabels, rfl, hclosed⟩ := strchr_some hstop
    have hlabels' : q = labels ++ ch '\x7d' :: r := hlabels
    have hr := List.takeWhile_append_dropWhile (p := isBlank) (l := r)
    have hrest' : r.dropWhile isBlank = b :: x := hrest
    have hupTo : upTo ((str "\x7b" ++ q).drop 1) (ch '\x7d' :: r) = labels := by
      rw [hlabels, upTo_append]
    rw [hrest'] at hr
    have hlead := Lead.labelled (hblank line) (hisName hname) (hblank (p.dropWhile inName)) hclosed
      (hblank r) hfirst
    dsimp only
    rw [hupTo]
    refine ⟨_, b, x, hlead, ?_, hrest⟩
    have hbrackets : str "\x7b" ++ q
        = ch '\x7b' :: (labels ++ ch '\x7d' :: (r.takeWhile isBlank ++ b :: x)) := by
      rw [hlabels', hr]
      rfl
    rw [hbrackets]
    simp only [List.append_assoc, List.cons_append]
  · rename_i hopen
    rw [← Option.some.inj hparts] at hname hrest
    have hvalue : (p.dropWhile inName).dropWhile isBlank = b :: x :=
      (List.dropWhile_idempotent isBlank (p.dropWhile inName)).symm.trans hrest
    rw [hvalue] at hq hopen ⊢
    have hfirst' : inName b = true := by
      unfold inName
      rw [hfirst, Bool.true_and, bne_iff_ne]
      rintro rfl
      exact hopen rfl
    rw [← Option.some.inj hparts]
    refine ⟨_, b, x, Lead.bare (hblank line) (hisName hname) (hblank (p.dropWhile inName)) ?_ hfirst',
      by simp only [List.append_assoc], hrest⟩
    -- without blanks or labels the name would go on with the value
    intro hnil
    rw [hnil, List.nil_append] at hq
    have hout : inName b = false := dropWhile_head b (by rw [← hq]; rfl)
    rw [hfirst'] at hout
    exact absurd hout (by simp)

theorem word_eq_of_dropWhile {p x : Bytes} (h : p.dropWhile isBlank = x) :
    word p = x.takeWhile inWord ∧ behindWord p = x.dropWhile inWord := by
  unfold word behindWord
  rw [h]
  exact ⟨rfl, rfl⟩

/-- The parser finds the parts of a sample, and nothing besides. -/
theorem Sample.parts {line : Bytes} (h : Sample line) :
    ¬Passed (line.dropWhile isBlank)
      ∧ ∃ parts ∈ lineParts (line.dropWhile isBlank), Clean parts.rest := by
  obtain ⟨lead, value, ending⟩ := h
  rename_i u name labels v t b
  obtain ⟨hpass, -, -, rest, hparts, hrest⟩ := lead.parts (v ++ t)
  refine ⟨hpass, ⟨name, labels, rest⟩, hparts, ?_⟩
  have hcut := List.takeWhile_append_dropWhile (p := isBlank) (l := rest)
  rw [hrest] at hcut
  rw [← hcut]
  exact clean_of_value (fun c hc => List.mem_takeWhile_imp hc) value ending

/-- A line with nothing besides its parts is a sample. -/
theorem sample_of_parts {line : Bytes} {parts : LineParts} (hpass : ¬Passed (line.dropWhile isBlank))
    (hparts : lineParts (line.dropWhile isBlank) = some parts) (hname : parts.name ≠ [])
    (hclean : Clean parts.rest) : Sample line := by
  have hword := (isValue_word hclean.value).1
  obtain ⟨u, b, x, hlead, rfl, hrest⟩ := lead_of_parts hpass hparts hname hword
  have hcut := List.takeWhile_append_dropWhile (p := inWord) (l := b :: x)
  obtain ⟨hw, hbehind⟩ := word_eq_of_dropWhile hrest
  rw [← hw, ← hbehind] at hcut
  obtain ⟨c, v, hcv⟩ := List.exists_cons_of_ne_nil hword
  rw [hcv, List.cons_append, List.cons.injEq] at hcut
  rw [← hcut.2]
  have hvalue := hclean.value
  rw [hcv, hcut.1] at hvalue
  exact Sample.intro hlead hvalue hclean.sampleEnd

theorem emptyOrComment_of_passed {line : Bytes} (hpass : Passed (line.dropWhile isBlank))
    (hrest : ∀ b t, line.dropWhile isBlank = b :: t → isLineEnd b = true →
      ∀ c ∈ t, isLineEnd c = true) : EmptyOrComment line := by
  unfold EmptyOrComment
  cases hp : line.dropWhile isBlank with
  | nil => exact Or.inl (by simp)
  | cons b t =>
      rw [hp] at hpass
      rcases hpass b rfl with hend | hcomment
      · refine Or.inl ?_
        intro c hc
        rcases List.mem_cons.mp hc with rfl | hc
        · exact hend
        · exact hrest b t hp hend c hc
      · exact Or.inr (by rw [hcomment]; rfl)

theorem lineParts_name {p : Bytes} {parts : LineParts} (h : lineParts p = some parts) :
    parts.name = p.takeWhile inName := by
  unfold lineParts at h
  dsimp only at h
  split at h
  · obtain ⟨stop, -, rfl⟩ := Option.map_eq_some_iff.mp h
    rfl
  · rw [← Option.some.inj h]

/-- Where there is a value, the line is accepted. -/
theorem promParseLine_accepts {nameSize labelsSize : Nat} (strtod : Bytes → Double) {line : Bytes}
    {parts : LineParts} (hname : 1 < nameSize) (hlabels : 0 < labelsSize)
    (hpass : ¬Passed (line.dropWhile isBlank))
    (hparts : lineParts (line.dropWhile isBlank) = some parts) (hne : parts.name ≠ [])
    (hword : word parts.rest ≠ []) :
    promParseLine nameSize labelsSize strtod line
      = .sample (parts.name.take (nameSize - 1)) (parts.labels.take (labelsSize - 1))
          (promValue strtod ((word parts.rest).take 63)) (stamp (behindWord parts.rest)) := by
  have hsize : nameSize ≠ 0 := by omega
  have hsize' : labelsSize ≠ 0 := by omega
  have hshort : parts.name.take (nameSize - 1) ≠ [] := by
    rw [Ne, List.take_eq_nil_iff, not_or]
    exact ⟨by omega, hne⟩
  rcases promParseLine_eq strtod line hsize hsize' with ⟨h, -⟩ | ⟨-, h⟩
  · exact absurd h hpass
  · rw [← lineParts_name hparts, hparts] at h
    rw [h, if_neg hshort]
    dsimp only
    rw [if_neg hword]

/-- And what is accepted has a value. -/
theorem parts_of_accepted {nameSize labelsSize : Nat} {strtod : Bytes → Double} {line : Bytes}
    (hsize : nameSize ≠ 0) (hsize' : labelsSize ≠ 0)
    (h : promParseLine nameSize labelsSize strtod line ≠ .malformed)
    (hpass : ¬Passed (line.dropWhile isBlank)) :
    1 < nameSize ∧ ∃ parts ∈ lineParts (line.dropWhile isBlank), parts.name ≠ []
      ∧ word parts.rest ≠ [] := by
  rcases promParseLine_eq strtod line hsize hsize' with ⟨hskip, -⟩ | ⟨-, heq⟩
  · exact absurd hskip hpass
  rw [heq] at h
  split at h
  · exact absurd rfl h
  rename_i hname
  rw [List.take_eq_nil_iff, not_or] at hname
  split at h
  · exact absurd rfl h
  rename_i parts hparts
  refine ⟨by omega, parts, hparts, ?_, ?_⟩
  · rw [lineParts_name hparts]
    exact hname.2
  · intro hnil
    rw [if_pos hnil] at h
    exact h rfl

/-- A line is skipped exactly when it is passed over. -/
theorem promParseLine_eq_skip {nameSize labelsSize : Nat} {strtod : Bytes → Double} {line : Bytes}
    (hsize : nameSize ≠ 0) (hsize' : labelsSize ≠ 0) :
    promParseLine nameSize labelsSize strtod line = .skip ↔ Passed (line.dropWhile isBlank) := by
  rcases promParseLine_eq strtod line hsize hsize' with ⟨hpass, hskip⟩ | ⟨hpass, heq⟩
  · exact iff_of_true hskip hpass
  · refine iff_of_false ?_ hpass
    rw [heq]
    split
    · simp
    split
    · simp
    split
    · simp
    · simp

/-- An empty line with something behind its line end would have to be reported. -/
theorem AcceptsOnlySamples.empty {nameSize labelsSize : Nat} {strtod : Bytes → Double} {line : Bytes}
    (h : AcceptsOnlySamples nameSize labelsSize strtod line) (hsize : nameSize ≠ 0)
    (hsize' : labelsSize ≠ 0) {b : UInt8} {t : Bytes} (hp : line.dropWhile isBlank = b :: t)
    (hend : isLineEnd b = true) : ∀ c ∈ t, isLineEnd c = true := by
  have hpass : Passed (line.dropWhile isBlank) := by
    intro c hc
    rw [hp] at hc
    rw [← Option.some.inj hc]
    exact Or.inl hend
  by_contra hrest
  have hempty : ¬EmptyOrComment line := by
    unfold EmptyOrComment
    rw [hp]
    intro hcases
    rcases hcases with hall | hcomment
    · exact hrest fun c hc => hall c (List.mem_cons_of_mem b hc)
    · rw [Option.some.inj hcomment] at hend
      exact absurd hend (by decide)
  have hmalformed := h.malformed (fun hsample => hsample.parts.1 hpass) hempty
  rw [(promParseLine_eq_skip hsize hsize').mpr hpass] at hmalformed
  exact absurd hmalformed (by simp)

/-- Where nothing is left over, what is neither passed over nor reported is a sample. -/
theorem NothingLeft.sample {nameSize labelsSize : Nat} {strtod : Bytes → Double} {line : Bytes}
    (h : NothingLeft nameSize labelsSize line) (hsize : nameSize ≠ 0) (hsize' : labelsSize ≠ 0)
    (hpass : ¬Passed (line.dropWhile isBlank))
    (haccept : promParseLine nameSize labelsSize strtod line ≠ .malformed) : Sample line := by
  obtain ⟨hlarge, parts, hparts, hname, hword⟩ := parts_of_accepted hsize hsize' haccept hpass
  rcases h.words hlarge (Nat.pos_of_ne_zero hsize') hpass parts hparts hname with hnil | hclean
  · exact absurd hnil hword
  · exact sample_of_parts hpass hparts hname hclean

/--
**When nothing but samples is accepted.**

A line on which the parser accepts a text that is no sample, or passes over one that is not
empty, is one on which it leaves something over: a word that is not the number it should be, or
text behind the last word or the line end.
-/
theorem prom_accepts_iff (nameSize labelsSize : Nat) (strtod : Bytes → Double) (line : Bytes) :
    AcceptsOnlySamples nameSize labelsSize strtod line ↔ NothingLeft nameSize labelsSize line := by
  constructor
  · intro h
    refine ⟨?_, ?_⟩
    · intro hsize hsize' b t hp hend
      exact h.empty (Nat.ne_of_gt hsize) (Nat.ne_of_gt hsize') hp hend
    · intro hsize hsize' hpass parts hparts hname
      by_cases hword : word parts.rest = []
      · exact Or.inl hword
      · have haccept := promParseLine_accepts strtod hsize hsize' hpass hparts hname hword
        obtain ⟨-, parts', hparts', hclean⟩ := (h.sample _ _ _ _ haccept).parts
        rw [Option.mem_def.mp hparts] at hparts'
        rw [Option.some.inj hparts']
        exact Or.inr hclean
  · intro h
    by_cases hsizes : nameSize = 0 ∨ labelsSize = 0
    · have hmalformed : promParseLine nameSize labelsSize strtod line = .malformed := by
        unfold promParseLine
        rw [if_pos hsizes]
      refine ⟨?_, fun _ _ => hmalformed⟩
      intro name labels v ts haccept
      rw [hmalformed] at haccept
      exact absurd haccept (by simp)
    · rw [not_or] at hsizes
      obtain ⟨hsize, hsize'⟩ := hsizes
      refine ⟨?_, ?_⟩
      · intro name labels v ts haccept
        have hpass : ¬Passed (line.dropWhile isBlank) := by
          rw [← promParseLine_eq_skip hsize hsize', haccept]
          simp
        exact h.sample hsize hsize' hpass (by rw [haccept]; simp)
      · intro hno hempty
        by_cases hpass : Passed (line.dropWhile isBlank)
        · exact absurd (emptyOrComment_of_passed hpass (h.empty (Nat.pos_of_ne_zero hsize)
            (Nat.pos_of_ne_zero hsize'))) hempty
        · by_contra haccept
          exact hno (h.sample hsize hsize' hpass haccept)

/-- A word that is no number is accepted, with the zero `strtod` makes of it. -/
theorem word_accepted_as_value :
    let strtod : Bytes → Double := fun _ => .fin 0
    promParseLine 128 256 strtod (str "foo abc") = .sample (str "foo") [] (.fin 0) none
      ∧ ¬AcceptsOnlySamples 128 256 strtod (str "foo abc") := by
  intro strtod
  have haccept : promParseLine 128 256 strtod (str "foo abc")
      = .sample (str "foo") [] (.fin 0) none := rfl
  refine ⟨haccept, fun h => ?_⟩
  obtain ⟨-, parts, hparts, hclean⟩ := (h.sample _ _ _ _ haccept).parts
  have heq : lineParts ((str "foo abc").dropWhile isBlank) = some ⟨str "foo", [], str "abc"⟩ := by
    decide
  rw [heq] at hparts
  rw [← Option.some.inj hparts] at hclean
  have hvalue := hclean.value
  rcases hvalue with hliteral | hname
  · exact absurd hliteral (by decide)
  · exact absurd hname (by decide)

end Svgd.Backend
