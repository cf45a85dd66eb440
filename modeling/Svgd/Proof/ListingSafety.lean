import Svgd.Backend.ListingBuffer
import Svgd.Proof.JsonEscaping

/-!
# Whether the list of metrics fits its buffer

The buffer is checked once for each metric, behind it. So a metric may be as long as the room
that is left, which is 512 bytes and more; strings full of control characters are longer.

The memory and the text of `generateMetricsJson` run side by side until a piece does not fit
(`Beside`). From then on the memory holds a terminator in front of the offset, and the string
that is returned, if any, is shorter than the list.
-/

namespace Svgd.Backend

open Lib

/-! ## Side by side -/

/-- The memory holds the text, in a buffer of the same size. -/
structure Beside (j : JsonBuffer) (b : TextBuffer) : Prop where
  size : b.size = j.size
  holds : b.Holds j.text

variable {j j' : JsonBuffer} {b b' : TextBuffer}

theorem append_length {piece : Bytes} (h : j.append piece = some j') :
    j.text.length + piece.length < j.size ∧ j'.text = j.text ++ piece ∧ j'.size = j.size := by
  unfold JsonBuffer.append at h
  by_cases hlt : j.text.length + piece.length < j.size
  · rw [if_pos hlt] at h
    obtain rfl := Option.some.inj h
    exact ⟨hlt, rfl, rfl⟩
  · rw [if_neg hlt] at h
    cases h

theorem append_none {piece : Bytes} (h : j.append piece = none) :
    j.size ≤ j.text.length + piece.length := by
  unfold JsonBuffer.append at h
  by_contra hlt
  rw [if_pos (by omega)] at h
  cases h

theorem grow_text (j : JsonBuffer) : j.grow.text = j.text := by
  unfold JsonBuffer.grow
  split <;> rfl

theorem grow_size (j : JsonBuffer) : j.grow.size = doubled 512 j.size j.text.length := by
  unfold JsonBuffer.grow
  by_cases h : j.size - 512 ≤ j.text.length
  · rw [if_pos h, doubled_of_le h]
  · rw [if_neg h, doubled_of_lt (Nat.lt_of_not_le h)]

/-- Two runs that go side by side, or the second one has cut something. -/
def Follows : Option JsonBuffer → Option TextBuffer → Prop
  | some j, y => ∃ b, y = some b ∧ Beside j b
  | none, y => ∀ b, y = some b → b.Cut

/-- A continuation does not undo a cut. -/
def KeepsCut (g : TextBuffer → Option TextBuffer) : Prop := ∀ b b', b.Cut → g b = some b' → b'.Cut

theorem Follows.bind {x : Option JsonBuffer} {y : Option TextBuffer}
    {f : JsonBuffer → Option JsonBuffer} {g : TextBuffer → Option TextBuffer} (h : Follows x y)
    (hfg : ∀ j b, Beside j b → Follows (f j) (g b)) (hg : KeepsCut g) :
    Follows (x.bind f) (y.bind g) := by
  cases x with
  | some j =>
      obtain ⟨b, rfl, hb⟩ := h
      exact hfg j b hb
  | none =>
      intro b' hb'
      obtain ⟨b, hb, hb'⟩ := Option.bind_eq_some_iff.mp hb'
      exact hg b b' (h b hb) hb'

theorem KeepsCut.bind {f g : TextBuffer → Option TextBuffer} (hf : KeepsCut f) (hg : KeepsCut g) :
    KeepsCut fun b => (f b).bind g := by
  intro b b' hcut hb'
  obtain ⟨c, hc, hb'⟩ := Option.bind_eq_some_iff.mp hb'
  exact hg c b' (hf b c hcut hc) hb'

theorem keepsCut_some : KeepsCut some := by
  intro b b' hcut hb
  obtain rfl := Option.some.inj hb
  exact hcut

theorem keepsCut_snprintf (piece : Bytes) : KeepsCut (TextBuffer.snprintf · piece) :=
  fun _ _ hcut hb => hcut.snprintf hb

/-- One piece. -/
theorem Beside.append (h : Beside j b) (piece : Bytes) :
    Follows (j.append piece) (b.snprintf piece) := by
  cases hj : j.append piece with
  | some j' =>
      obtain ⟨hlt, htext, hsize⟩ := append_length hj
      obtain ⟨b', hb', hsize', hholds⟩ := h.holds.snprintf (by rw [h.size]; exact hlt)
      exact ⟨b', hb', by rw [hsize', h.size, hsize], htext ▸ hholds⟩
  | none => exact fun b' hb' => h.holds.cut (by rw [h.size]; exact append_none hj) hb'

theorem keepsCut_appendAll (pieces : List Bytes) :
    KeepsCut fun b => pieces.foldlM TextBuffer.snprintf b := by
  induction pieces with
  | nil => exact keepsCut_some
  | cons p pieces ih =>
      simp only [List.foldlM_cons, Option.bind_eq_bind]
      exact (keepsCut_snprintf p).bind ih

/-- The pieces of a metric. -/
theorem Beside.appendAll (pieces : List Bytes) : ∀ {j : JsonBuffer} {b : TextBuffer}, Beside j b →
    Follows (pieces.foldlM JsonBuffer.append j) (pieces.foldlM TextBuffer.snprintf b) := by
  induction pieces with
  | nil => exact fun h => ⟨_, rfl, h⟩
  | cons p pieces ih =>
      intro j b h
      rw [List.foldlM_cons, List.foldlM_cons, Option.bind_eq_bind, Option.bind_eq_bind]
      exact (h.append p).bind (fun _ _ => ih) (keepsCut_appendAll pieces)

theorem Beside.grow (h : Beside j b) : Beside j.grow (b.resize (doubled 512 b.size b.offset)) := by
  have hholds := h.holds.resize (le_doubled 512 b.size b.offset)
  rw [h.holds.offset, h.size] at hholds ⊢
  refine ⟨by rw [TextBuffer.resize_size, grow_size], ?_⟩
  rw [grow_text]
  exact hholds

/-- What is written for a metric, with the separator in front of it. -/
def itemPieces (isFirst : Bool) (m : MetricEntry) : List Bytes :=
  (if isFirst then [] else [str ","]) ++ metricPieces m

theorem listMetrics_cons (m : MetricEntry) (ms : List MetricEntry) (isFirst : Bool) (b : TextBuffer) :
    listMetrics (m :: ms) isFirst b
      = ((itemPieces isFirst m).foldlM TextBuffer.snprintf b).bind fun b =>
          listMetrics ms false (b.resize (doubled 512 b.size b.offset)) := by
  cases isFirst with
  | true => rfl
  | false =>
      show _ = ((str "," :: metricPieces m).foldlM TextBuffer.snprintf b).bind _
      rw [List.foldlM_cons, Option.bind_eq_bind, Option.bind_assoc]
      rfl

theorem metricsLoop_cons (m : MetricEntry) (ms : List MetricEntry) (isFirst : Bool) (j : JsonBuffer) :
    metricsLoop (m :: ms) isFirst j
      = ((itemPieces isFirst m).foldlM JsonBuffer.append j).bind fun j =>
          metricsLoop ms false j.grow := by
  cases isFirst with
  | true => rfl
  | false =>
      show _ = ((str "," :: metricPieces m).foldlM JsonBuffer.append j).bind _
      rw [List.foldlM_cons, Option.bind_eq_bind, Option.bind_assoc]
      rfl

theorem keepsCut_listMetrics (ms : List MetricEntry) :
    ∀ isFirst, KeepsCut (listMetrics ms isFirst) := by
  induction ms with
  | nil => exact fun _ => keepsCut_some
  | cons m ms ih =>
      intro isFirst
      have hnext : KeepsCut fun b => listMetrics ms false (b.resize (doubled 512 b.size b.offset)) :=
        fun b b' hcut hb => ih false _ b' (hcut.resize (le_doubled 512 b.size b.offset)) hb
      intro b b' hcut hb
      rw [listMetrics_cons] at hb
      exact (keepsCut_appendAll (itemPieces isFirst m)).bind hnext b b' hcut hb

/-- The loop. -/
theorem Beside.loop (ms : List MetricEntry) : ∀ {j : JsonBuffer} {b : TextBuffer} (isFirst : Bool),
    Beside j b → Follows (metricsLoop ms isFirst j) (listMetrics ms isFirst b) := by
  induction ms with
  | nil => exact fun _ h => ⟨_, rfl, h⟩
  | cons m ms ih =>
      intro j b isFirst h
      have hnext : KeepsCut fun b => listMetrics ms false (b.resize (doubled 512 b.size b.offset)) :=
        fun b b' hcut hb =>
          keepsCut_listMetrics ms false _ b' (hcut.resize (le_doubled 512 b.size b.offset)) hb
      rw [listMetrics_cons, metricsLoop_cons]
      exact (h.appendAll (itemPieces isFirst m)).bind (fun j b h => ih false h.grow) hnext

/-! ## Where the offset is -/

/-- A continuation moves the offset by a fixed length. -/
def Moves (n : Nat) (g : TextBuffer → Option TextBuffer) : Prop :=
  ∀ b b', g b = some b' → b'.offset = b.offset + n

theorem Moves.bind {m n : Nat} {f g : TextBuffer → Option TextBuffer} (hf : Moves m f)
    (hg : Moves n g) : Moves (m + n) fun b => (f b).bind g := by
  intro b b' hb'
  obtain ⟨c, hc, hb'⟩ := Option.bind_eq_some_iff.mp hb'
  have h1 := hf b c hc
  have h2 := hg c b' hb'
  omega

theorem moves_some : Moves 0 some := by
  intro b b' hb
  obtain rfl := Option.some.inj hb
  rfl

theorem moves_snprintf (piece : Bytes) : Moves piece.length (TextBuffer.snprintf · piece) :=
  fun _ _ hb => (TextBuffer.snprintf_some hb).2.2.1

theorem moves_appendAll (pieces : List Bytes) :
    Moves pieces.flatten.length fun b => pieces.foldlM TextBuffer.snprintf b := by
  induction pieces with
  | nil => exact moves_some
  | cons p pieces ih =>
      simp only [List.foldlM_cons, Option.bind_eq_bind, List.flatten_cons, List.length_append]
      exact (moves_snprintf p).bind ih

/-- What each metric adds to the list, with the separator in front of it. -/
def itemLengths : List MetricEntry → Bool → List Nat
  | [], _ => []
  | m :: ms, isFirst =>
      (itemPieces isFirst m).flatten.length :: itemLengths ms false

theorem moves_listMetrics (ms : List MetricEntry) :
    ∀ isFirst, Moves (itemLengths ms isFirst).sum (listMetrics ms isFirst) := by
  induction ms with
  | nil => exact fun _ => moves_some
  | cons m ms ih =>
      intro isFirst b b' hb
      rw [listMetrics_cons] at hb
      have hnext : Moves (itemLengths ms false).sum
          fun b => listMetrics ms false (b.resize (doubled 512 b.size b.offset)) :=
        fun b b' hb => by rw [ih false _ b' hb, TextBuffer.resize_offset]
      rw [itemLengths, List.sum_cons]
      exact (moves_appendAll (itemPieces isFirst m)).bind hnext b b' hb

theorem length_itemLengths (ms : List MetricEntry) :
    ∀ isFirst, (itemLengths ms isFirst).length = ms.length := by
  induction ms with
  | nil => exact fun _ => rfl
  | cons m ms ih =>
      intro isFirst
      rw [itemLengths, List.length_cons, ih, List.length_cons]

theorem take_itemLengths (ms : List MetricEntry) :
    ∀ i isFirst, itemLengths (ms.take i) isFirst = (itemLengths ms isFirst).take i := by
  induction ms with
  | nil =>
      intro i isFirst
      rw [List.take_nil, itemLengths, List.take_nil]
  | cons m ms ih =>
      intro i isFirst
      cases i with
      | zero => rfl
      | succ i => rw [List.take_succ_cons, itemLengths, itemLengths, List.take_succ_cons, ih]

theorem length_listed (ms : List MetricEntry) : (listed ms).length
    = (str "\x7b\"version\":\"1.0\",\"metrics\":[").length + (itemLengths ms true).sum := by
  have hrest : ∀ ms : List MetricEntry, ((ms.map metricItem).flatMap fun y => ch ',' :: y).length
      = (itemLengths ms false).sum := by
    intro ms
    induction ms with
    | nil => rfl
    | cons m ms ih =>
        rw [List.map_cons, List.flatMap_cons, List.length_append, ih, itemLengths, List.sum_cons]
        rfl
  unfold listed
  rw [List.length_append]
  congr 1
  cases ms with
  | nil => rfl
  | cons m ms =>
      rw [List.map_cons, commaJoin_cons, List.length_append, hrest, itemLengths, List.sum_cons]
      rfl

/-! ## Whether the pieces fit -/

theorem append_isSome_iff {piece : Bytes} :
    (j.append piece).isSome = true ↔ j.text.length + piece.length < j.size := by
  unfold JsonBuffer.append
  by_cases h : j.text.length + piece.length < j.size
  · simp [h]
  · simp [h]

/-- Some pieces fit exactly if all of them together do. -/
theorem appendAll_isSome_iff (pieces : List Bytes) : ∀ {j : JsonBuffer}, j.text.length < j.size →
    ((pieces.foldlM JsonBuffer.append j).isSome = true
      ↔ j.text.length + pieces.flatten.length < j.size) := by
  induction pieces with
  | nil => exact fun h => ⟨fun _ => h, fun _ => rfl⟩
  | cons p pieces ih =>
      intro j h
      rw [List.foldlM_cons, Option.bind_eq_bind, List.flatten_cons, List.length_append]
      cases hj : j.append p with
      | none =>
          have hlong := append_none hj
          refine ⟨fun hsome => by simp at hsome, fun hfits => by omega⟩
      | some j' =>
          obtain ⟨hlt, htext, hsize⟩ := append_length hj
          have hlen : j'.text.length = j.text.length + p.length := by
            rw [htext, List.length_append]
          rw [Option.bind_some, ih (by omega), hlen, hsize, Nat.add_assoc]

theorem appendAll_length {pieces : List Bytes} (h : pieces.foldlM JsonBuffer.append j = some j') :
    j'.text.length = j.text.length + pieces.flatten.length ∧ j'.size = j.size := by
  constructor
  · rw [appendAll_eq_some h, List.length_append]
  · induction pieces generalizing j with
    | nil => rw [← Option.some.inj h]
    | cons p pieces ih =>
        rw [List.foldlM_cons, Option.bind_eq_bind] at h
        obtain ⟨c, hc, h⟩ := Option.bind_eq_some_iff.mp h
        rw [ih h, (append_length hc).2.2]

/-- The loop runs through exactly if the metrics fit. -/
theorem metricsLoop_isSome_iff (ms : List MetricEntry) :
    ∀ {j : JsonBuffer} (isFirst : Bool), j.text.length < j.size →
      ((metricsLoop ms isFirst j).isSome = true
        ↔ PiecesFit 512 (itemLengths ms isFirst) j.text.length j.size) := by
  induction ms with
  | nil => exact fun _ _ => ⟨fun _ => trivial, fun _ => rfl⟩
  | cons m ms ih =>
      intro j isFirst h
      have hall := appendAll_isSome_iff (itemPieces isFirst m) h
      rw [metricsLoop_cons, itemLengths, PiecesFit]
      cases hj : (itemPieces isFirst m).foldlM JsonBuffer.append j with
      | none =>
          rw [hj] at hall
          refine ⟨fun hsome => by simp at hsome, fun hfit => ?_⟩
          exact absurd (hall.mpr hfit.1) (by simp)
      | some j' =>
          rw [hj] at hall
          have hfits := hall.mp rfl
          obtain ⟨hlen, hsize⟩ := appendAll_length hj
          have hgrown : j'.grow.text.length < j'.grow.size := by
            have hle := le_doubled 512 j'.size j'.text.length
            rw [grow_text, grow_size]
            omega
          rw [Option.bind_some, ih false hgrown, grow_text, grow_size, hlen, hsize]
          exact ⟨fun hrest => ⟨hfits, hrest⟩, fun hfit => hfit.2⟩

/-- There is always more than the reserve left behind a metric. -/
theorem metricsLoop_room (ms : List MetricEntry) : ∀ {j j' : JsonBuffer} {isFirst : Bool},
    j.text.length + 512 < j.size → metricsLoop ms isFirst j = some j' →
      j'.text.length + 512 < j'.size := by
  induction ms with
  | nil =>
      intro j j' isFirst hroom h
      rwa [← Option.some.inj h]
  | cons m ms ih =>
      intro j j' isFirst hroom h
      rw [metricsLoop_cons] at h
      obtain ⟨c, hc, h⟩ := Option.bind_eq_some_iff.mp h
      apply ih _ h
      have hfits := (appendAll_isSome_iff (itemPieces isFirst m) (by omega)).mp
        (by rw [hc]; rfl : ((itemPieces isFirst m).foldlM JsonBuffer.append j).isSome = true)
      obtain ⟨hlen, hsize⟩ := appendAll_length hc
      rw [grow_text, grow_size]
      by_cases hgrow : c.size - 512 ≤ c.text.length
      · rw [doubled_of_le hgrow]
        omega
      · rw [doubled_of_lt (Nat.lt_of_not_le hgrow)]
        omega

/-! ## The whole function -/

/-- What is in front of the metrics. -/
def listHead : Bytes := str "\x7b\"version\":\"1.0\",\"metrics\":["

theorem length_listHead : listHead.length = 28 := by decide

/-- The pieces of `generateMetricsJson`. -/
def appendListing (ms : List MetricEntry) (j : JsonBuffer) : Option JsonBuffer :=
  (j.append listHead).bind fun j => (metricsLoop ms true j).bind (·.append (str "]\x7d"))

theorem generateMetricsJson_eq (ms : List MetricEntry) : generateMetricsJson ms
    = (appendListing ms ⟨[], 1024 + ms.length * 512⟩).map (·.text) := by
  unfold generateMetricsJson appendListing
  simp only [Option.bind_eq_bind, Option.pure_def, Option.map_eq_bind, Option.bind_assoc]
  rfl

theorem writeListing_eq (ms : List MetricEntry) (b : TextBuffer) : writeListing ms b
    = (b.snprintf listHead).bind fun b => (listMetrics ms true b).bind (·.snprintf (str "]\x7d")) :=
  rfl

theorem generateMetricsJson_isSome_iff (ms : List MetricEntry) :
    (generateMetricsJson ms).isSome = true
      ↔ PiecesFit 512 (itemLengths ms true) listHead.length (1024 + ms.length * 512) := by
  have hhead := length_listHead
  have hfits : JsonBuffer.append ⟨[], 1024 + ms.length * 512⟩ listHead
      = some ⟨listHead, 1024 + ms.length * 512⟩ := by
    unfold JsonBuffer.append
    rw [if_pos (by simp only [List.length_nil]; omega), List.nil_append]
  have hloop := metricsLoop_isSome_iff ms (j := ⟨listHead, 1024 + ms.length * 512⟩) true
    (by dsimp only; omega)
  rw [← hloop, generateMetricsJson_eq, Option.isSome_map, appendListing, hfits, Option.bind_some]
  cases hj : metricsLoop ms true ⟨listHead, 1024 + ms.length * 512⟩ with
  | none => simp
  | some j =>
      have hroom := metricsLoop_room ms (by dsimp only; omega) hj
      have hclose : (str "]\x7d").length = 2 := rfl
      have happend : (j.append (str "]\x7d")).isSome = true := append_isSome_iff.mpr (by omega)
      exact ⟨fun _ => rfl, fun _ => happend⟩

/-- The memory follows the text to the end. -/
theorem Beside.listing (h : Beside j b) (ms : List MetricEntry) :
    Follows (appendListing ms j) (writeListing ms b) := by
  rw [writeListing_eq]
  refine (h.append listHead).bind (fun j b h => ?_)
    ((keepsCut_listMetrics ms true).bind (keepsCut_snprintf _))
  exact (h.loop ms true).bind (fun j b h => h.append _) (keepsCut_snprintf _)

/-- The offset ends at the length of the list, whatever is in the memory. -/
theorem moves_writeListing (ms : List MetricEntry) : Moves (listing ms).length (writeListing ms) := by
  have hlength : (listing ms).length
      = listHead.length + ((itemLengths ms true).sum + (str "]\x7d").length) := by
    unfold listing
    rw [List.length_append, length_listed, Nat.add_assoc]
    rfl
  rw [hlength]
  exact (moves_snprintf listHead).bind ((moves_listMetrics ms true).bind (moves_snprintf _))

/-- No string is ended by what stands for a character. -/
theorem zero_not_mem_escaped (s : Bytes) : (0 : UInt8) ∉ escaped s := by
  unfold escaped
  rw [cfgJsonEscape_eq]
  exact (bodyText_escapeText isControl_isCntrl s .nil).no_nul

theorem zero_not_mem_listing (ms : List MetricEntry) : (0 : UInt8) ∉ listing ms := by
  have hbool : ∀ b, (0 : UInt8) ∉ boolText b := by decide
  have hitem : ∀ m : MetricEntry, (0 : UInt8) ∉ metricItem m := by
    intro m
    unfold metricItem metricPieces
    cases m.requiresParam <;> simp [zero_not_mem_escaped, hbool] <;> decide
  have hjoin : ∀ ms : List MetricEntry, (0 : UInt8) ∉ commaJoin (ms.map metricItem) := by
    intro ms
    cases ms with
    | nil => exact List.not_mem_nil
    | cons m ms =>
        rw [List.map_cons, commaJoin_cons, List.mem_append, List.mem_flatMap]
        rintro (hmem | ⟨y, hy, hmem⟩)
        · exact hitem m hmem
        · obtain ⟨m', _, rfl⟩ := List.mem_map.mp hy
          rcases List.mem_cons.mp hmem with hcomma | hmem
          · exact absurd hcomma (by decide)
          · exact hitem m' hmem
  unfold listing listed
  rw [List.mem_append, List.mem_append]
  rintro ((hmem | hmem) | hmem)
  · exact absurd hmem (by decide)
  · exact hjoin ms hmem
  · exact absurd hmem (by decide)

/-- The end of a run: a terminator is behind what was written. -/
theorem writeListing_end {ms : List MetricEntry} (h : writeListing ms b = some b')
    (hfits : b'.offset < b'.size) : b'.mem b'.offset = 0 := by
  rw [writeListing_eq] at h
  obtain ⟨_, -, h⟩ := Option.bind_eq_some_iff.mp h
  obtain ⟨_, -, h⟩ := Option.bind_eq_some_iff.mp h
  exact TextBuffer.snprintf_end h hfits

/-- The memory returns the list exactly if the size is an `int` and every piece fits. -/
theorem writeMetricsJson_iff (mem : Nat → UInt8) (ms : List MetricEntry) :
    writeMetricsJson mem ms = some (listing ms)
      ↔ 1024 + ms.length * 512 < 2 ^ 31 ∧ (generateMetricsJson ms).isSome = true := by
  by_cases hint : 1024 + ms.length * 512 < 2 ^ 31
  · have hrun : writeMetricsJson mem ms
        = (writeListing ms ⟨mem, 1024 + ms.length * 512, 0⟩).map TextBuffer.text := by
      unfold writeMetricsJson initialSize
      rw [if_pos hint, Option.map_eq_bind]
      rfl
    have hstart : Beside ⟨[], 1024 + ms.length * 512⟩ ⟨mem, 1024 + ms.length * 512, 0⟩ :=
      ⟨rfl, rfl, by show 0 < 1024 + ms.length * 512; omega, fun i hi => absurd hi (Nat.not_lt_zero i)⟩
    have hfollows := hstart.listing ms
    rw [hrun]
    cases htext : appendListing ms ⟨[], 1024 + ms.length * 512⟩ with
    | some j =>
        have hgen : generateMetricsJson ms = some j.text := by
          rw [generateMetricsJson_eq, htext, Option.map_some]
        have hlisting : j.text = listing ms := by
          rw [generateMetricsJson_some hgen, listing, listed, List.append_assoc]
        rw [htext] at hfollows
        obtain ⟨b, hb, hbeside⟩ := hfollows
        have hholds := hbeside.holds
        have hend := writeListing_end hb (by rw [hholds.offset]; exact hholds.fits)
        have hstring := hholds.text hend (by rw [hlisting]; exact zero_not_mem_listing ms)
        rw [hb, Option.map_some, hstring, hlisting, hgen]
        exact ⟨fun _ => ⟨hint, rfl⟩, fun _ => rfl⟩
    | none =>
        rw [htext] at hfollows
        have hgen : generateMetricsJson ms = none := by
          rw [generateMetricsJson_eq, htext, Option.map_none]
        rw [hgen]
        refine ⟨fun h => ?_, fun h => absurd h.2 (by simp)⟩
        -- something was cut, so the string is too short
        obtain ⟨b, hb, htextb⟩ := Option.map_eq_some_iff.mp h
        have hshort := (hfollows b hb).length_text
        have hoffset := moves_writeListing ms _ b hb
        rw [htextb, hoffset] at hshort
        simp at hshort
  · have hnone : writeMetricsJson mem ms = none := by
      unfold writeMetricsJson initialSize
      rw [if_neg hint]
      rfl
    rw [hnone]
    exact ⟨fun h => (nomatch h), fun h => absurd h.1 hint⟩

/-- **The list is safe exactly if every metric fits into the first doubling of the buffer that
leaves more than 512 bytes behind the metrics before it.** -/
theorem listing_safe_iff (mem : Nat → UInt8) (ms : List MetricEntry) :
    writeMetricsJson mem ms = some (listing ms)
      ↔ 1024 + ms.length * 512 < 2 ^ 31 ∧ ∀ i < ms.length, ∀ k,
        (listed (ms.take i)).length + 512 < (1024 + ms.length * 512) * 2 ^ k
          → (listed (ms.take (i + 1))).length < (1024 + ms.length * 512) * 2 ^ k := by
  have htight : Tight 512 (1024 + ms.length * 512) (1024 + ms.length * 512) listHead.length := by
    have hhead := length_listHead
    refine ⟨by omega, fun k _ => ?_, 0, by rw [Nat.pow_zero, Nat.mul_one]⟩
    exact Nat.le_mul_of_pos_right _ (Nat.two_pow_pos k)
  have hlisted : ∀ i, (listed (ms.take i)).length
      = listHead.length + ((itemLengths ms true).take i).sum := by
    intro i
    rw [length_listed, take_itemLengths]
    rfl
  rw [writeMetricsJson_iff, generateMetricsJson_isSome_iff, piecesFit_iff (by omega) _ htight,
    length_itemLengths]
  simp only [hlisted]

/-- A metric of a configuration file whose strings are full of control characters. -/
def controlJson : Json :=
  .obj [(str "endpoint", .str (List.replicate 127 1)), (str "rrd_path", .str (str "cpu.rrd")),
    (str "requires_param", .bool true), (str "param_name", .str (List.replicate 63 1)),
    (str "title", .str (List.replicate 127 1)), (str "y_label", .str (List.replicate 63 1))]

/-- Its entry alone is longer than the first buffer. -/
theorem listing_control_overflows :
    loadMetric controlJson = some (parseMetricConfig controlJson)
      ∧ writeMetricsJson (fun _ => 0) [parseMetricConfig controlJson] = none
      ∧ writeMetricsJson (fun _ => 0) [parseMetricConfig controlJson]
        ≠ some (listing [parseMetricConfig controlJson]) := by
  have hnone : writeMetricsJson (fun _ => 0) [parseMetricConfig controlJson] = none := by
    decide +kernel
  refine ⟨by decide +kernel, hnone, ?_⟩
  rw [hnone]
  exact nofun

end Svgd.Backend
