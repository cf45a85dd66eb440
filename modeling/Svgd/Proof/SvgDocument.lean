import Svgd.Lib.JsDouble
import Svgd.Panel.GenerateSvg

/-!
# The rendered document

Both panels are put together from parts, each of which leads the XML reader back to where it
was. The script escapes none of the strings it splices in for XML: a backslash in front of a
quote does not change what an attribute value may hold. So the document is well formed exactly
if each string that is rendered happens to be character data, and each name of a drawn series
part of an attribute value.
-/

namespace Svgd.Panel

open Lib Lib.Js Lib.Xml

/-! ## Plain texts -/

theorem isPlainChar_of_isNumeric {c : Char} (h : isNumeric c = true) : isPlainChar c = true := by
  have hall : (txt "0123456789+-.eaNIfinty").all isPlainChar = true := by decide +kernel
  exact List.all_eq_true.mp hall c (List.contains_iff_mem.mp h)

theorem isPlainChar_of_isAsciiAlnum {c : Char} (h : isAsciiAlnum c = true) :
    isPlainChar c = true := by
  unfold isPlainChar
  rw [Bool.and_eq_true, Bool.not_eq_true']
  constructor
  · have hrange : 48 ≤ c.toNat ∧ c.toNat ≤ 122 := by
      have hclass : ((c.isUpper || c.isLower) || c.isDigit) = true := h
      rw [Bool.or_eq_true, Bool.or_eq_true] at hclass
      rcases hclass with (hupper | hlower) | hdigit
      · have hrange : 65 ≤ c.toNat ∧ c.toNat ≤ 90 := of_decide_eq_true hupper
        omega
      · obtain ⟨h1, h2⟩ := (Bool.and_eq_true _ _).mp hlower
        have hlow : 97 ≤ c.toNat := of_decide_eq_true h1
        have hhigh : c.toNat ≤ 122 := of_decide_eq_true h2
        omega
      · obtain ⟨h1, h2⟩ := (Bool.and_eq_true _ _).mp hdigit
        have hlow : 48 ≤ c.toNat := of_decide_eq_true h1
        have hhigh : c.toNat ≤ 57 := of_decide_eq_true h2
        omega
    have hne : c.toNat ≠ 0xFFFE ∧ c.toNat ≠ 0xFFFF := by omega
    unfold isXmlChar
    simp [hne, show 32 ≤ c.toNat by omega]
  · rw [Bool.eq_false_iff]
    intro hmem
    have hcases : c = '<' ∨ c = '&' ∨ c = '>' ∨ c = ']' ∨ c = '"' := by simpa [txt] using hmem
    rcases hcases with rfl | rfl | rfl | rfl | rfl <;> exact absurd h (by decide +kernel)

section

variable {N : Type} [Num N]

@[simp] theorem toText_plain (x : N) : (toText x).all isPlainChar = true :=
  List.all_eq_true.mpr fun c hc => isPlainChar_of_isNumeric (Num.toText_numeric x c hc)

@[simp] theorem toFixed_plain (k : Nat) (x : N) : (toFixed k x).all isPlainChar = true :=
  List.all_eq_true.mpr fun c hc => isPlainChar_of_isNumeric (Num.toFixed_numeric k x c hc)

@[simp] theorem valueFormatter_plain (options : PanelOptions N) (v : N) :
    (valueFormatter options v).all isPlainChar = true := by
  unfold valueFormatter
  split_ifs <;> simp

@[simp] theorem statFormatter_plain (options : PanelOptions N) (v : N) :
    (statFormatter options v).all isPlainChar = true := by
  unfold statFormatter
  split_ifs <;> simp

@[simp] theorem xText_plain (g : Plot N) (d : Point N) : (g.xText d).all isPlainChar = true :=
  toFixed_plain 2 _

@[simp] theorem yText_plain (g : Plot N) (d : Point N) : (g.yText d).all isPlainChar = true :=
  toFixed_plain 2 _

/-- The characters the script adds to its numbers. -/
@[simp] theorem separators_plain : isPlainChar '0' = true ∧ isPlainChar ':' = true
    ∧ isPlainChar '/' = true ∧ isPlainChar ' ' = true ∧ isPlainChar ',' = true
    ∧ isPlainChar '-' = true ∧ isPlainChar 'g' = true := by decide +kernel

@[simp] theorem padded_plain (x : N) : (padded x).all isPlainChar = true := by
  unfold padded twoDigits
  refine List.all_eq_true.mpr fun c hc => ?_
  rcases List.mem_cons.mp (List.mem_of_mem_drop hc) with rfl | hc
  · exact separators_plain.1
  · exact List.all_eq_true.mp (toText_plain x) c hc

@[simp] theorem clock_plain (host : Host N) (ts : N) : (clock host ts).all isPlainChar = true := by
  simp [clock]

@[simp] theorem formatTime_plain (host : Host N) (timeRange ts : N) :
    (formatTime host timeRange ts).all isPlainChar = true := by
  unfold formatTime
  split_ifs <;> simp

theorem flatMap_plain {α : Type} {l : List α} {f : α → Text}
    (h : ∀ x ∈ l, (f x).all isPlainChar = true) : (l.flatMap f).all isPlainChar = true := by
  rw [List.all_flatMap]
  exact List.all_eq_true.mpr h

@[simp] theorem moves_plain : (txt "M").all isPlainChar = true ∧ (txt " L").all isPlainChar = true
    ∧ (txt " Z").all isPlainChar = true := by decide +kernel

@[simp] theorem linePath_plain (g : Plot N) (segment : List (Point N)) :
    (linePath g segment).all isPlainChar = true := by
  refine flatMap_plain fun (d, i) _ => ?_
  dsimp only
  split_ifs <;> simp

@[simp] theorem areaPath_plain (g : Plot N) (segment : List (Point N)) :
    (areaPath g segment).all isPlainChar = true := by
  unfold areaPath
  rw [List.all_append, Bool.and_eq_true]
  constructor
  · refine flatMap_plain fun (d, i) _ => ?_
    dsimp only
    split_ifs <;> simp
  · cases segment.getLast? with
    | none => rfl
    | some lastPoint => simp

theorem underscored_plain (s : Text) : (underscored s).all isPlainChar = true := by
  refine flatMap_plain fun c _ => ?_
  by_cases hc : isAsciiAlnum c = true
  · rw [if_pos hc, List.all_cons, isPlainChar_of_isAsciiAlnum hc]
    rfl
  · rw [if_neg hc]
    refine List.all_eq_true.mpr fun u hu => ?_
    rw [List.eq_of_mem_replicate hu]
    decide +kernel

@[simp] theorem sparklinePath_plain (allData : List (Point N)) (first last : Point N)
    (height sparklineHeight sparklineWidth : N) :
    (sparklinePath allData first last height sparklineHeight sparklineWidth).all isPlainChar = true := by
  refine flatMap_plain fun (d, i) _ => ?_
  dsimp only
  split_ifs <;> simp

@[simp] theorem signed_plain (x : N) (text : Text) (h : text.all isPlainChar = true) :
    (signed x text).all isPlainChar = true := by
  have hplus : (txt "+").all isPlainChar = true := by decide +kernel
  unfold signed
  split_ifs <;> simp [h, hplus]

/-! ## Colours -/

/-- The colours print as plain texts. -/
structure PlainInk (colors : Option (Palette N)) : Prop where
  background : (ink colors (·.background)).clean = true
  gridLines : (ink colors (·.gridLines)).clean = true
  text : (ink colors (·.text)).clean = true
  textPrimary : (ink colors (·.textPrimary)).clean = true
  fontFamily : (ink colors (·.fontFamily)).clean = true
  border : (ink colors (·.border)).clean = true
  positive : (ink colors (·.positive)).clean = true
  negative : (ink colors (·.negative)).clean = true
  neutral : (ink colors (·.neutral)).clean = true
  sparkline : (ink colors (·.sparkline)).clean = true
  tooltipFill : (ink colors (·.tooltipFill)).clean = true
  tooltipStroke : (ink colors (·.tooltipStroke)).clean = true
  added : (inkAdded colors (·.background)).clean = true
  series : ∀ si color, seriesColor colors si = some color → color.all isPlainChar = true

@[simp] theorem ink_number (colors : Option (Palette N)) (field : Palette N → N) :
    (ink colors fun c => toText (field c)).clean = true := by
  cases colors with
  | none => rfl
  | some palette => exact toText_plain _

omit [Num N] in
theorem plainInk_none : PlainInk (none : Option (Palette N)) := by
  have hundefined : (txt "undefined").all isPlainChar = true := by decide +kernel
  constructor
  case series => exact fun si color h => absurd h (by simp [seriesColor])
  case added => exact hundefined
  all_goals rfl

/-- The texts of a palette. -/
def Palette.texts (p : Palette N) : List Text :=
  [p.background, p.gridLines, p.text, p.textPrimary, p.fontFamily, p.border, p.positive, p.negative,
    p.neutral, p.sparkline, p.tooltipFill, p.tooltipStroke] ++ p.series

omit [Num N] in
theorem plainInk_some {p : Palette N} (h : p.texts.all (fun t => t.all isPlainChar) = true) :
    PlainInk (some p) := by
  have hmem : ∀ t ∈ p.texts, t.all isPlainChar = true := List.all_eq_true.mp h
  constructor
  case series =>
    intro si color hcolor
    have hget : p.series.getD (si % p.series.length) [] = color := Option.some.inj hcolor
    rw [← hget, List.getD_eq_getElem?_getD]
    cases hsi : p.series[si % p.series.length]? with
    | none => rfl
    | some t => exact hmem t (List.mem_append_right _ (List.mem_of_getElem? hsi))
  all_goals exact hmem _ (List.mem_append_left _ (by simp))

theorem plainInk_themes {key : Text} {palette : Palette N} (h : (key, palette) ∈ themes) :
    PlainInk (some palette) := by
  have hcases : palette = light ∨ palette = dark ∨ palette = highContrast := by
    rcases List.mem_cons.mp h with heq | h
    · exact .inl (Prod.mk.inj heq).2
    rcases List.mem_cons.mp h with heq | h
    · exact .inr (.inl (Prod.mk.inj heq).2)
    · exact .inr (.inr (Prod.mk.inj (List.mem_singleton.mp h)).2)
  rcases hcases with rfl | rfl | rfl
  · exact plainInk_some rfl
  · exact plainInk_some rfl
  · exact plainInk_some rfl

theorem plainInk_resolveTheme (host : Host N) (name : Option Text) :
    PlainInk (resolveTheme host name) := by
  have hlight : PlainInk (some (light : Palette N)) := plainInk_themes List.mem_cons_self
  unfold resolveTheme
  split
  · exact hlight
  · exact hlight
  · dsimp only
    split
    · rename_i hlookup
      obtain ⟨l₁, l₂, heq, -⟩ := List.lookup_eq_some_iff.mp hlookup
      exact plainInk_themes (heq ▸ List.mem_append_right l₁ List.mem_cons_self)
    · split_ifs
      · exact plainInk_none
      · exact hlight

/-! ## The parts of the panels -/

@[simp] theorem lit_clean (s : String) : (lit s).clean = true := rfl
@[simp] theorem put_clean (x : N) : (put x).clean = true := toText_plain x
@[simp] theorem lit_fits (s : String) : (lit s).fits = true := rfl
@[simp] theorem put_fits (x : N) : (put x).fits = true := rfl
omit [Num N] in
@[simp] theorem ink_fits (colors : Option (Palette N)) (field : Palette N → Text) :
    (ink colors field).fits = true := rfl
omit [Num N] in
@[simp] theorem inkAdded_fits (colors : Option (Palette N)) (field : Palette N → Text) :
    (inkAdded colors field).fits = true := rfl

/-- In the root element. -/
def inSvg : State := .content [txt "svg"] (none, 0)

/-- In a group. -/
def inGroup : State := .content [txt "g", txt "svg"] (none, 0)

variable (host : Host N) (options : PanelOptions N) {colors : Option (Palette N)} (g : Plot N)

theorem svgHead_part (hc : PlainInk colors) (width height : N) :
    Part .prolog inSvg (svgHead width height colors) True where
  walks := rfl
  clean := by simp [svgHead, hc.fontFamily]
  strings := by simp [svgHead]

theorem noSeries_part (width height : N) :
    Part inSvg .epilog (chartError width height "Error: No data series") True where
  walks := rfl
  clean := by simp [chartError]
  strings := by simp [chartError]

theorem noPoints_part (width height : N) :
    Part inSvg .epilog (chartError width height "Error: No valid data points") True where
  walks := rfl
  clean := by simp [chartError]
  strings := by simp [chartError]

theorem yGridLine_part (hc : PlainInk colors) (i : Nat) :
    Part inGroup inGroup (yGridLine options colors g i) True where
  walks := rfl
  clean := by simp [yGridLine, hc.gridLines, hc.text]
  strings := by simp [yGridLine]

theorem xGridLine_part (hc : PlainInk colors) (i : Nat) :
    Part inGroup inGroup (xGridLine host colors g i) True where
  walks := rfl
  clean := by simp [xGridLine, hc.gridLines, hc.text]
  strings := by simp [xGridLine]

theorem drawSegment_part (colors : Option (Palette N)) {color : Text} (hcolor : color.all isPlainChar = true)
    (si : Nat) (segment : List (Point N)) (segi : Nat) :
    Part inGroup inGroup (drawSegment colors g color si segment segi) True := by
  unfold drawSegment
  split_ifs
  · exact Part.nil inGroup
  · exact ⟨rfl, by simp [hcolor], by simp⟩

theorem hoverPoint_part {color : Text} (hcolor : color.all isPlainChar = true) (name : Text)
    (d : Point N) (i : Nat) :
    Part inGroup inGroup (hoverPoint host options g color name d i)
      (isValue (quoteEscaped name) = true) where
  walks := rfl
  clean := by
    have hp : (txt "p-").all isPlainChar = true := by decide +kernel
    simp [hoverPoint, hcolor, hp, underscored_plain]
  strings := by simp [hoverPoint]

theorem legendEntry_part (hc : PlainInk colors) {color : Text} (hcolor : color.all isPlainChar = true)
    (name : Text) (rawValue legendX legendY : N) :
    Part inGroup inGroup (legendEntry options colors color name rawValue legendX legendY)
      (isData name = true) where
  walks := rfl
  clean := by simp [legendEntry, hc.gridLines, hc.textPrimary, hcolor]
  strings := by simp [legendEntry]

theorem labels_part (hc : PlainInk colors) :
    Part inSvg inSvg (labels options colors g)
      (isData (chartTitle options) = true ∧ isData (chartLabel options) = true) where
  walks := rfl
  clean := by simp [labels, hc.text, hc.textPrimary]
  strings := by simp [labels]

theorem tooltip_part (hc : PlainInk colors) :
    Part inSvg .epilog (tooltip colors) True where
  walks := rfl
  clean := by
    simp [tooltip, hc.tooltipFill, hc.tooltipStroke, hc.text, hc.textPrimary]
  strings := by simp [tooltip]

theorem plotFrame_part (hc : PlainInk colors) :
    Part inSvg inGroup (plotFrame colors g) True where
  walks := rfl
  clean := by simp [plotFrame, hc.background, hc.gridLines]
  strings := by simp [plotFrame]

theorem plotHead_part (hc : PlainInk colors) :
    Part inSvg inGroup (plotHead host options colors g) True := by
  have hrows := Part.flatMap fun i (_ : i ∈ List.range 6) => yGridLine_part options g hc i
  have hcolumns := Part.flatMap fun i
    (_ : i ∈ (List.range 9).takeWhile fun i : Nat => ge (xSteps g) (num i)) =>
      xGridLine_part host g hc i
  exact ((plotFrame_part g hc).append (hrows.append hcolumns)).congr (by simp)

omit [Num N] in
theorem forall_mem_zipIdx {α : Type} {l : List α} {P : α → Prop} :
    (∀ x ∈ l.zipIdx, P x.1) ↔ ∀ a ∈ l, P a := by
  have hmap : (∀ a ∈ l.zipIdx.map Prod.fst, P a) ↔ ∀ x ∈ l.zipIdx, P x.1 := List.forall_mem_map
  rw [← hmap, List.zipIdx_map_fst]

variable {host options g}

/-- Some point of a series is drawn. -/
def Drawn (options : PanelOptions N) (s : Series N) : Prop :=
  ∃ d ∈ s.data, isValid (chartTransform options d.value) = true

/-- The last point of a series is a number that is not negative, so the legend has an entry. -/
def InLegend (s : Series N) : Prop :=
  ∃ d, s.data.getLast? = some d ∧ isNaN d.value = false ∧ Num.lt d.value (num 0) = false

theorem exists_mem_validData {s : Series N} :
    (∃ d, d ∈ validData options s) ↔ Drawn options s := by
  constructor
  · rintro ⟨d, hd⟩
    obtain ⟨d', hmem, hpoint⟩ := List.mem_filterMap.mp hd
    refine ⟨d', hmem, ?_⟩
    unfold chartPoint at hpoint
    dsimp only at hpoint
    split_ifs at hpoint with hvalid
    exact hvalid
  · rintro ⟨d, hmem, hvalid⟩
    refine ⟨⟨d.timestamp, chartTransform options d.value⟩, List.mem_filterMap.mpr ⟨d, hmem, ?_⟩⟩
    unfold chartPoint
    dsimp only
    rw [if_pos hvalid]

theorem drawSeries_part (hc : PlainInk colors) {gap : N} {s : Series N} {si : Nat} {ps : List Piece}
    (h : drawSeries host options colors g gap s si = some ps) :
    Part inGroup inGroup ps (Drawn options s → isValue (quoteEscaped s.name) = true) := by
  unfold drawSeries at h
  split_ifs at h with hdata
  · obtain rfl := Option.some.inj h
    refine (Part.nil inGroup).congr (iff_of_true trivial ?_)
    rintro ⟨d, hd, -⟩
    rw [hdata] at hd
    exact absurd hd List.not_mem_nil
  · rw [Option.bind_eq_bind, Option.bind_eq_some_iff] at h
    obtain ⟨color, hcolor, hps⟩ := h
    obtain rfl := Option.some.inj hps
    have hplain := hc.series si color hcolor
    have hsegments := Part.flatMap fun x (_ : x ∈ (segments gap (validData options s)).zipIdx) =>
      drawSegment_part g colors hplain si x.1 x.2
    have hpoints := Part.flatMap fun x (_ : x ∈ (validData options s).zipIdx) =>
      hoverPoint_part host options g hplain s.name x.1 x.2
    refine (hsegments.append hpoints).congr ?_
    rw [forall_mem_zipIdx (P := fun _ => isValue (quoteEscaped s.name) = true),
      ← exists_mem_validData, forall_exists_index]
    exact and_iff_right fun _ _ => trivial

theorem legendValue_eq_some {d : Point N} {v : N} :
    legendValue options d = some v ↔
      (isNaN d.value = false ∧ Num.lt d.value (num 0) = false) ∧ chartTransform options d.value = v := by
  unfold legendValue
  cases isNaN d.value with
  | true => simp
  | false =>
      cases Num.lt d.value (num 0) with
      | true => simp
      | false => simp

theorem inLegend_iff {s : Series N} :
    InLegend s ↔ ∃ v, s.data.getLast?.bind (legendValue options) = some v := by
  constructor
  · rintro ⟨d, hlast, hd⟩
    exact ⟨_, Option.bind_eq_some_iff.mpr ⟨d, hlast, legendValue_eq_some.mpr ⟨hd, rfl⟩⟩⟩
  · rintro ⟨v, hv⟩
    obtain ⟨d, hlast, hd⟩ := Option.bind_eq_some_iff.mp hv
    exact ⟨d, hlast, (legendValue_eq_some.mp hd).1⟩

theorem legendFrom_part (hc : PlainInk colors) {width left legendX legendY : N}
    {l : List (Series N × Nat)} {ps : List Piece}
    (h : legendFrom options colors width left l legendX legendY = some ps) :
    Part inGroup inGroup ps (∀ x ∈ l, InLegend x.1 → isData x.1.name = true) := by
  induction l generalizing legendX legendY ps with
  | nil =>
      obtain rfl := Option.some.inj h
      exact (Part.nil inGroup).congr (iff_of_true trivial fun x hx => absurd hx List.not_mem_nil)
  | cons x l ih =>
      obtain ⟨s, si⟩ := x
      rw [legendFrom] at h
      rcases Option.eq_none_or_eq_some (s.data.getLast?.bind (legendValue options)) with hv | ⟨v, hv⟩
      · rw [hv] at h
        refine (ih h).congr ?_
        rw [List.forall_mem_cons]
        refine (and_iff_right fun hin => ?_).symm
        obtain ⟨v, hv'⟩ := inLegend_iff.mp hin
        rw [hv] at hv'
        exact absurd hv' (by simp)
      · rw [hv] at h
        have hin : InLegend s := inLegend_iff.mpr ⟨v, hv⟩
        dsimp only at h
        rw [Option.bind_eq_bind, Option.bind_eq_some_iff] at h
        obtain ⟨color, hcolor, h⟩ := h
        rw [Option.bind_eq_bind, Option.bind_eq_some_iff] at h
        obtain ⟨more, hmore, h⟩ := h
        obtain rfl := Option.some.inj h
        have hentry := legendEntry_part options hc (hc.series si color hcolor) s.name v
          legendX legendY
        refine (hentry.append (ih hmore)).congr ?_
        rw [List.forall_mem_cons]
        exact and_congr_left' ⟨fun hname _ => hname, fun hname => hname hin⟩

/-! ## The escaping -/

/-- A backslash before each quote changes nothing for XML. -/
theorem foldlM_quoteEscaped (s : Text) (ref : Option Text) :
    (quoteEscaped s).foldlM valueStep ref = s.foldlM valueStep ref := by
  induction s generalizing ref with
  | nil => rfl
  | cons c s ih =>
      have hcons : quoteEscaped (c :: s)
          = (if c = quote then ['\\', quote] else [c]) ++ quoteEscaped s := rfl
      rw [hcons]
      split_ifs with hc
      · subst hc
        cases ref with
        | none => exact ih none
        -- neither occurs in a reference
        | some name => rfl
      · rw [List.singleton_append, List.foldlM_cons, List.foldlM_cons]
        exact bind_congr fun ref' => ih ref'

theorem isValue_quoteEscaped (s : Text) : isValue (quoteEscaped s) = isValue s := by
  unfold isValue
  rw [foldlM_quoteEscaped]

/-! ## The chart -/

/-- Some point of some series is a number that is not negative. -/
def HasData (series : List (Series N)) : Prop := ∃ s ∈ series, ∃ d ∈ s.data, isValid d.value = true

theorem collected_eq_nil {series : List (Series N)} : collected series = [] ↔ ¬HasData series := by
  unfold collected HasData
  simp [List.flatMap_eq_nil_iff, List.filter_eq_nil_iff]

/-- The strings a chart renders are what they are meant to be. -/
def ChartStrings (options : PanelOptions N) (series : List (Series N)) : Prop :=
  isData (chartTitle options) = true ∧ isData (chartLabel options) = true
    ∧ ∀ s ∈ series, (Drawn options s → isValue s.name = true)
      ∧ (InLegend s → isData s.name = true)

omit [Num N] in
theorem background_part (hc : PlainInk colors) : Part inSvg inSvg (background colors) True where
  walks := rfl
  clean := by simp [background, hc.background]
  strings := by simp [background]

theorem chartHead_part (hc : PlainInk colors) (width height : N) :
    Part .prolog inSvg (svgHead width height colors ++ background colors) True :=
  ((svgHead_part hc width height).append (background_part hc)).congr (and_self_iff)

theorem closeGroup_part : Part inGroup inSvg [lit "</g>"] True :=
  ⟨rfl, by simp, by simp⟩

theorem openLegend_part : Part inSvg inGroup [lit "<g font-size=\"11\">"] True :=
  ⟨rfl, by simp, by simp⟩

theorem generateChart_part {series : List (Series N)} {ps : List Piece}
    (h : generateChart host series options = some ps) :
    Part .prolog .epilog ps (HasData series → ChartStrings options series) := by
  have hc := plainInk_resolveTheme host options.theme
  have hhead := chartHead_part hc options.chartWidth options.chartHeight
  unfold generateChart at h
  dsimp only at h
  split_ifs at h with hseries hdata
  · obtain rfl := Option.some.inj h
    refine (hhead.append (noSeries_part _ _)).congr (iff_of_true ⟨trivial, trivial⟩ ?_)
    rintro ⟨s, hs, -⟩
    rw [hseries] at hs
    exact absurd hs List.not_mem_nil
  · obtain rfl := Option.some.inj h
    refine (hhead.append (noPoints_part _ _)).congr (iff_of_true ⟨trivial, trivial⟩ ?_)
    exact fun hdata' => absurd hdata' (collected_eq_nil.mp hdata)
  · rw [Option.bind_eq_bind, Option.bind_eq_some_iff] at h
    obtain ⟨drawn, hdrawn, h⟩ := h
    rw [Option.bind_eq_bind, Option.bind_eq_some_iff] at h
    obtain ⟨legend, hlegend, h⟩ := h
    obtain rfl := Option.some.inj h
    have hplot := plotHead_part host options (plot options series) hc
    have hseriesPart := Part.mapM (fun x (_ : x ∈ series.zipIdx) ps hps => drawSeries_part hc hps) hdrawn
    have hlabels := labels_part options (plot options series) hc
    have hlegendPart := legendFrom_part hc hlegend
    have hall := hhead.append (hplot.append (hseriesPart.append (closeGroup_part.append
      (hlabels.append (openLegend_part.append (hlegendPart.append
        (closeGroup_part.append (tooltip_part hc))))))))
    have hd : HasData series := by
      by_contra hnone
      exact hdata (collected_eq_nil.mpr hnone)
    have hnames : (∀ x ∈ series.zipIdx, Drawn options x.1 → isValue (quoteEscaped x.1.name) = true)
        ↔ ∀ s ∈ series, Drawn options s → isValue s.name = true := by
      simp only [isValue_quoteEscaped]
      exact forall_mem_zipIdx (P := fun s => Drawn options s → isValue s.name = true)
    have hentries : (∀ x ∈ series.zipIdx, InLegend x.1 → isData x.1.name = true)
        ↔ ∀ s ∈ series, InLegend s → isData s.name = true :=
      forall_mem_zipIdx (P := fun s => InLegend s → isData s.name = true)
    refine hall.congr ?_
    rw [hnames, hentries, forall_prop_of_true hd]
    unfold ChartStrings
    constructor
    · rintro ⟨-, -, hdrawn, -, ⟨htitle, hlabel⟩, -, hlegend, -⟩
      exact ⟨htitle, hlabel, fun s hs => ⟨hdrawn s hs, hlegend s hs⟩⟩
    · rintro ⟨htitle, hlabel, hs⟩
      exact ⟨trivial, trivial, fun s h => (hs s h).1, trivial, ⟨htitle, hlabel⟩, trivial,
        fun s h => (hs s h).2, trivial, trivial⟩

/-! ## The stat panel -/

theorem noData_part (hc : PlainInk colors) (width height : N) :
    Part .prolog .epilog (noData width height colors) True where
  walks := rfl
  clean := by simp [noData, hc.added]
  strings := by simp [noData]

theorem statHead_part (hc : PlainInk colors) (titleSize : N) (title : Text) :
    Part inSvg inSvg (statHead colors titleSize title) (isData title = true) where
  walks := rfl
  clean := by simp [statHead, hc.background, hc.border, hc.text]
  strings := by simp [statHead]

theorem statValue_part (hc : PlainInk colors) (height valueSize : N) {formattedValue : Text}
    (hvalue : formattedValue.all isPlainChar = true) (yLabel : Text) :
    Part inSvg inSvg (statValue colors height valueSize formattedValue yLabel)
      (isData yLabel = true) := by
  have hempty : isData [] = true := rfl
  unfold statValue
  split_ifs with hlabel
  · exact ⟨rfl, by simp [hc.textPrimary, hvalue], by simp [hlabel, hempty]⟩
  · exact ⟨rfl, by simp [hc.textPrimary, hc.text, hvalue], by simp⟩

omit [Num N] in
theorem closeSvg_part : Part inSvg .epilog [lit "</svg>"] True :=
  ⟨rfl, by simp, by simp⟩

theorem trendColor_clean (hc : PlainInk colors) (trend : N) :
    (ink colors (trendColor trend)).clean = true := by
  by_cases hup : Num.lt (num 0) trend = true
  · have hcolor : trendColor trend = (·.positive) := funext fun _ => if_pos hup
    rw [hcolor]
    exact hc.positive
  by_cases hdown : Num.lt trend (num 0) = true
  · have hcolor : trendColor trend = (·.negative) :=
      funext fun _ => (if_neg hup).trans (if_pos hdown)
    rw [hcolor]
    exact hc.negative
  · have hcolor : trendColor trend = (·.neutral) :=
      funext fun _ => (if_neg hup).trans (if_neg hdown)
    rw [hcolor]
    exact hc.neutral

theorem trendArrow_plain (trend : N) : (trendArrow trend).all isPlainChar = true := by
  have harrows : (txt "↑").all isPlainChar = true ∧ (txt "↓").all isPlainChar = true
      ∧ (txt "→").all isPlainChar = true := by decide +kernel
  unfold trendArrow
  split_ifs <;> simp [harrows]

theorem statTrend_part (hc : PlainInk colors) (height trend trendPercent : N) (yLabel : Text) :
    Part inSvg inSvg (statTrend options colors height trend trendPercent yLabel) True := by
  have hpercent : (txt "%").all isPlainChar = true := by decide +kernel
  have hcolor := trendColor_clean hc trend
  have harrow := trendArrow_plain trend
  unfold statTrend
  split_ifs
  · exact ⟨rfl, by simp [hcolor, harrow], by simp⟩
  · exact ⟨rfl, by simp [hcolor, harrow, hpercent], by simp⟩

omit [Num N] in
theorem sparkline_part (hc : PlainInk colors) (count : Nat) {pathPoints : Text}
    (hpath : pathPoints.all isPlainChar = true) :
    Part inSvg inSvg (sparkline colors count pathPoints) True := by
  unfold sparkline
  split_ifs
  · exact ⟨rfl, by simp [hc.sparkline, hpath], by simp⟩
  · exact Part.nil inSvg

/-- The strings a stat panel renders are what they are meant to be. -/
def StatStrings (options : PanelOptions N) : Prop :=
  isData (statTitle options) = true ∧ isData (statLabel options) = true

theorem statData_eq_nil (options : PanelOptions N) {series : List (Series N)} :
    statData options series = [] ↔ ¬HasData series := by
  unfold statData HasData statPoint
  simp [List.flatMap_eq_nil_iff]

theorem sortedData_eq_nil {series : List (Series N)} :
    sortedData host options series = [] ↔ ¬HasData series := by
  have hperm := host.sort_perm (fun a b => a.timestamp - b.timestamp) (statData options series)
  rw [← statData_eq_nil options]
  constructor
  · intro h
    unfold sortedData at h
    rw [h] at hperm
    exact hperm.nil_eq.symm
  · intro h
    rw [h] at hperm
    unfold sortedData
    rw [h]
    exact hperm.eq_nil

theorem generateStatSVG_part (series : List (Series N)) :
    Part .prolog .epilog (generateStatSVG host series options)
      (HasData series → StatStrings options) := by
  have hc := plainInk_resolveTheme host options.theme
  unfold generateStatSVG
  dsimp only
  split
  · rename_i first last hfirst hlast
    have hd : HasData series := by
      by_contra hnone
      rw [sortedData_eq_nil.mpr hnone] at hfirst
      exact absurd hfirst (by simp)
    refine Part.congr ((svgHead_part hc _ _).append ((statHead_part hc _ _).append
      ((statValue_part hc _ _ (statFormatter_plain options last.value) _).append
      ((statTrend_part hc _ _ _ _).append
      ((sparkline_part hc _ (sparklinePath_plain _ first last _ _ _)).append closeSvg_part))))) ?_
    rw [forall_prop_of_true hd]
    unfold StatStrings
    simp only [true_and, and_true]
  · rename_i hnot
    refine (noData_part hc _ _).congr (iff_of_true trivial fun hd => ?_)
    have hne : sortedData host options series ≠ [] := fun h => sortedData_eq_nil.mp h hd
    exact absurd (List.getLast?_eq_some_getLast hne)
      (hnot _ _ (List.head?_eq_some_head hne))

/-! ## The document -/

theorem exists_mapM {α β : Type} {l : List α} {f : α → Option β} (h : ∀ x ∈ l, ∃ y, f x = some y) :
    ∃ ys, l.mapM f = some ys := by
  induction l with
  | nil => exact ⟨[], rfl⟩
  | cons x l ih =>
      obtain ⟨y, hy⟩ := h x List.mem_cons_self
      obtain ⟨ys, hys⟩ := ih fun z hz => h z (List.mem_cons_of_mem x hz)
      exact ⟨y :: ys, by rw [List.mapM_cons, hy, hys]; rfl⟩

theorem exists_legendFrom (options : PanelOptions N) (palette : Palette N) {width left : N} (l : List (Series N × Nat))
    (legendX legendY : N) :
    ∃ ps, legendFrom options (some palette) width left l legendX legendY = some ps := by
  induction l generalizing legendX legendY with
  | nil => exact ⟨[], rfl⟩
  | cons x l ih =>
      obtain ⟨s, si⟩ := x
      rw [legendFrom]
      cases s.data.getLast?.bind (legendValue options) with
      | none => exact ih legendX legendY
      | some rawValue =>
          have hbind : ∀ {o : Option (List Piece)} (f : List Piece → List Piece),
              (∃ more, o = some more) → ∃ ps, (o.bind fun more => some (f more)) = some ps :=
            fun f ⟨more, hmore⟩ => ⟨f more, Option.bind_eq_some_iff.mpr ⟨more, hmore, rfl⟩⟩
          exact hbind _ (ih _ _)

/-- With a palette the script does not throw. -/
theorem exists_generateSVG (host : Host N) (options : PanelOptions N) (series : List (Series N))
    {palette : Palette N}
    (h : resolveTheme host options.theme = some palette) :
    ∃ ps, generateSVG host series options = some ps := by
  unfold generateSVG
  split_ifs
  · exact ⟨_, rfl⟩
  unfold generateChart
  dsimp only
  split_ifs
  · exact ⟨_, rfl⟩
  · exact ⟨_, rfl⟩
  rw [h]
  obtain ⟨drawn, hdrawn⟩ := exists_mapM (l := series.zipIdx)
    (f := fun x => drawSeries host options (some palette) (plot options series)
      (gapThreshold options series) x.1 x.2) fun x _ => by
    unfold drawSeries
    split_ifs
    · exact ⟨_, rfl⟩
    · exact ⟨_, rfl⟩
  obtain ⟨legend, hlegend⟩ := exists_legendFrom options palette series.zipIdx
    (plot options series).left (options.chartHeight - num 35)
  exact ⟨_, by rw [hdrawn, Option.bind_eq_bind, Option.bind_some, hlegend]; rfl⟩

/-- The strings a panel renders are what they are meant to be. -/
def RenderedStrings (options : PanelOptions N) (series : List (Series N)) : Prop :=
  HasData series →
    if orText options.panelType (txt "chart") = txt "stat" then StatStrings options
    else ChartStrings options series

theorem generateSVG_part {series : List (Series N)} {ps : List Piece}
    (h : generateSVG host series options = some ps) :
    Part .prolog .epilog ps (RenderedStrings options series) := by
  unfold generateSVG at h
  unfold RenderedStrings
  split_ifs at h ⊢ with hpanel
  · obtain rfl := Option.some.inj h
    exact generateStatSVG_part series
  · exact generateChart_part h

/-- The document is well formed, with every string where it was meant to be, if and only if each
string that is rendered is by itself character data or part of an attribute value. -/
theorem generateSVG_sound_iff (host : Host N) (series : List (Series N)) (options : PanelOptions N)
    {ps : List Piece} (h : generateSVG host series options = some ps) :
    Sound ps ↔ RenderedStrings options series :=
  (generateSVG_part h).sound_iff

end

/-- A name is harmless where it is not rendered. -/
theorem generateSVG_sound_stat :
    Sound (generateStatSVG utcHost [⟨txt "cpu=\"0\"", [⟨num 0, num 1⟩]⟩]
      { panelType := some (txt "stat"), title := some (txt "R&amp;D") }) :=
  (generateSVG_sound_iff utcHost _ { panelType := some (txt "stat"), title := some (txt "R&amp;D") }
    (if_pos rfl)).mpr fun _ => by
      have hpanel : orText (some (txt "stat")) (txt "chart") = txt "stat" := rfl
      rw [if_pos hpanel]
      exact ⟨by decide +kernel, by decide +kernel⟩

/-- The labels of a Prometheus sample, as the name of a series, close the attribute they are put
in. -/
theorem generateSVG_label_name :
    ∃ ps, generateSVG utcHost [⟨txt "cpu=\"0\",mode=\"idle\"", [⟨num 0, num 1⟩]⟩] {} = some ps
      ∧ ¬Sound ps := by
  obtain ⟨ps, hps⟩ := exists_generateSVG utcHost {}
    [⟨txt "cpu=\"0\",mode=\"idle\"", [⟨num 0, num 1⟩]⟩] rfl
  refine ⟨ps, hps, fun hsound => ?_⟩
  have hstrings := (generateSVG_part hps).sound_iff.mp hsound
  have hdata : HasData (N := Double) [⟨txt "cpu=\"0\",mode=\"idle\"", [⟨num 0, num 1⟩]⟩] :=
    ⟨_, List.mem_cons_self, _, List.mem_cons_self, by decide +kernel⟩
  obtain ⟨-, -, hnames⟩ := hstrings hdata
  have hname := (hnames _ List.mem_cons_self).1 ⟨_, List.mem_cons_self, by decide +kernel⟩
  exact absurd hname (by decide +kernel)

end Svgd.Panel
