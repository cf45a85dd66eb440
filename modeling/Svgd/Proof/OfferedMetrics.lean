import Svgd.Gate.NewPanels
import Svgd.Proof.FleetFreshness
import Svgd.Proof.MetricsListing
import Svgd.Proof.ParamLookup

/-!
# What is offered is drawn

The way of a metric from the configuration of a backend to a picture of it: the list the backend
prints, the option the page makes of it, the panel, the URL, the gate, the parameters and the
lookup in the configuration again. Nothing on this way keeps the metric itself, only its endpoint;
it is found again if no other metric is listed at the endpoint or below it.
-/

namespace Svgd.Gate

open Lib

/-! ## The list on the page -/

section

variable {offered : List OfferedMetric} {m : Backend.MetricEntry} {parameter title : Bytes}

end

/-! ## The metric of an address -/

section

variable {config : Backend.Config} {m : Backend.MetricConfig}

end

/-! ## The query of a picture -/

/-- A byte of an endpoint that passes a URL, the routes of the gate and its parameters as it is. -/
def endpointByte (b : UInt8) : Bool :=
  !(Url.pathSet b || (str "\\&=.%").contains b)

/-- A request for a picture whose address nothing on its way changes. -/
structure PlainRequest (r : PanelRequest) : Prop where
  endpoint_ne : r.endpoint ≠ []
  endpoint_short : r.endpoint.length ≤ 254
  endpoint_bytes : ∀ b ∈ r.endpoint, endpointByte b = true
  /-- A slash would start a URL with a host, and the gate keeps the rest for itself. -/
  endpoint_free : r.endpoint.head? ≠ some (ch '/') ∧ r.endpoint.head? ≠ some (ch '_')
    ∧ isGrafanaPath (ch '/' :: r.endpoint) = false
  datasource_short : r.datasource ≠ [] ∧ r.datasource.length ≤ 63
  datasource_bytes : ∀ b ∈ r.datasource, urlPlain b = true
  period : 0 < r.period ∧ r.period < 2 ^ 31

/-- A byte that stands in a query as it is. -/
def queryByte (b : UInt8) : Bool := !(Url.pathSet b || Url.querySet b)

theorem queryByte_of_isDigit {b : UInt8} (h : isDigit b = true) : queryByte b = true := by
  have hall : (List.range 10).all (fun d => queryByte (UInt8.ofNat (48 + d))) = true := by decide
  rw [isDigit_iff] at h
  have hb := List.all_eq_true.mp hall (b.toNat - 48) (List.mem_range.mpr (by omega))
  rwa [Nat.add_sub_cancel' h.1, UInt8.ofNat_toNat] at hb

theorem queryByte_printInt {b : UInt8} {z : Int} (h : b ∈ printInt z) : queryByte b = true := by
  rcases mem_printInt h with hdigit | rfl
  · exact queryByte_of_isDigit hdigit
  · decide

/-- The item of a number. -/
theorem not_mem_pairItem {key : Bytes} {z : Int} {c : UInt8} (hkey : c ∉ key ++ str "=-")
    (hdigit : isDigit c = false) : c ∉ pairItem (key, printInt z) := by
  have hsplit : str "=-" = [ch '=', ch '-'] := rfl
  rw [hsplit] at hkey
  simp only [List.mem_append, List.mem_cons, List.not_mem_nil, or_false, not_or] at hkey
  unfold pairItem
  rw [List.mem_append, List.mem_cons, not_or, not_or]
  refine ⟨hkey.1, hkey.2.1, fun hm => ?_⟩
  rcases mem_printInt hm with h | h
  · rw [hdigit] at h
    cases h
  · exact hkey.2.2 h

section

variable {r : PanelRequest} {width height : Int} (h : PlainRequest r)

include h

theorem PlainRequest.pairs_eq : r.pairs width height
    = [(str "period", printInt r.period), (str "width", printInt (if width = 0 then 800 else width)),
      (str "height", printInt (if height = 0 then 450 else height)),
      (str "datasource", r.datasource)] := by
  unfold PanelRequest.pairs
  rw [if_neg h.datasource_short.1]
  rfl

theorem PlainRequest.plainPairs : ∀ p ∈ r.pairs width height, PlainPair p := by
  have hnumber : ∀ (key : Bytes) (z : Int), ch '=' ∉ key → ch '&' ∉ key →
      PlainPair (key, printInt z) := by
    refine fun key z heq hamp => ⟨heq, hamp, fun hm => ?_⟩
    rcases mem_printInt hm with hdigit | hminus
    · exact absurd hdigit (by decide)
    · exact absurd hminus (by decide)
  rw [h.pairs_eq]
  intro p hp
  simp only [List.mem_cons, List.not_mem_nil, or_false] at hp
  rcases hp with rfl | rfl | rfl | rfl
  · exact hnumber _ _ (by decide) (by decide)
  · exact hnumber _ _ (by decide) (by decide)
  · exact hnumber _ _ (by decide) (by decide)
  · have hkey : ch '=' ∉ str "datasource" ∧ ch '&' ∉ str "datasource" := by decide
    exact ⟨hkey.1, hkey.2, fun hm => (urlPlain_iff.mp (h.datasource_bytes _ hm)).2.2.2.2 rfl⟩

theorem PlainRequest.queryBytes : ∀ b ∈ pairsText (r.pairs width height), queryByte b = true := by
  have hkey : ∀ key ∈ [str "period", str "width", str "height", str "datasource"],
      ∀ b ∈ key, queryByte b = true := by
    have hall : [str "period", str "width", str "height", str "datasource"].all
        (fun key => key.all queryByte) = true := by decide
    exact fun key hk b hb => List.all_eq_true.mp (List.all_eq_true.mp hall key hk) b hb
  intro b hb
  rcases mem_pairsText hb with rfl | ⟨p, hp, hb⟩
  · decide
  · unfold pairItem at hb
    rw [List.mem_append, List.mem_cons] at hb
    rw [h.pairs_eq] at hp
    simp only [List.mem_cons, List.not_mem_nil, or_false] at hp
    rcases hb with hb | rfl | hb
    · refine hkey p.1 ?_ b hb
      rcases hp with rfl | rfl | rfl | rfl <;> simp
    · decide
    · rcases hp with rfl | rfl | rfl | rfl
      · exact queryByte_printInt hb
      · exact queryByte_printInt hb
      · exact queryByte_printInt hb
      · obtain ⟨hpath, hquery, -⟩ := urlPlain_iff.mp (h.datasource_bytes b hb)
        unfold queryByte
        rw [hpath, hquery]
        rfl

/-- A size is read back. -/
theorem PlainRequest.read_size {key : Bytes} {size : Int}
    (hsize : (key = str "width" ∧ size = if width = 0 then 800 else width)
      ∨ (key = str "height" ∧ size = if height = 0 then 450 else height)) :
    Backend.handlerGetParam (pairsText (r.pairs width height)) key = some (printInt size) := by
  rcases hsize with ⟨rfl, rfl⟩ | ⟨rfl, rfl⟩
  · rw [Backend.handlerGetParam_pairs h.plainPairs (by decide) (by decide), h.pairs_eq,
      List.findSome?_cons, behind_eq_none (c := ch 'w') (by decide)
        (not_mem_pairItem (by decide) (by decide)), List.findSome?_cons, behind_self]
  · rw [Backend.handlerGetParam_pairs h.plainPairs (by decide) (by decide), h.pairs_eq,
      List.findSome?_cons, behind_eq_none (c := ch 'g') (by decide)
        (not_mem_pairItem (by decide) (by decide)), List.findSome?_cons,
      behind_eq_none (c := ch 'g') (by decide) (not_mem_pairItem (by decide) (by decide)),
      List.findSome?_cons, behind_self]

theorem PlainRequest.read_period :
    Backend.httpPeriod (pairsText (r.pairs width height)) = r.period := by
  obtain ⟨t, ht⟩ : ∃ t, pairsText (r.pairs width height)
      = str "period=" ++ (printInt r.period ++ ch '&' :: t) := by
    rw [h.pairs_eq]
    refine ⟨pairsText [(str "width", printInt (if width = 0 then 800 else width)),
      (str "height", printInt (if height = 0 then 450 else height)),
      (str "datasource", r.datasource)], ?_⟩
    rw [pairsText, pairItem, List.append_assoc]
    rfl
  have hstop : ∀ b ∈ (ch '&' :: t).head?, isDigit b = false := by
    intro b hb
    rw [← Option.some.inj hb]
    decide
  have hseven : (str "period=" ++ (printInt r.period ++ ch '&' :: t)).drop 7
      = printInt r.period ++ ch '&' :: t := List.drop_left' rfl
  have hpos := h.period.1
  unfold Backend.httpPeriod
  rw [ht, strstr_head (startsWith_append _ _)]
  dsimp only
  rw [hseven, atoi_printInt (by omega) h.period.2 hstop, if_neg (by omega)]

theorem PlainRequest.read_datasource :
    ∃ t, strstr (pairsText (r.pairs width height)) (str "datasource=") = some t
      ∧ (t.drop 11).takeWhile (· ≠ ch '&') = r.datasource := by
  have hword : str "datasource=" = ch 'd' :: str "atasource=" := rfl
  have hamp : ch '&' ∉ ch 'd' :: str "atasource=" := by decide
  have hplain : ∀ p ∈ r.pairs width height, PlainPair p := h.plainPairs
  have hfound : (r.pairs width height).findSome? (behind (str "datasource=")) = some r.datasource := by
    have hself : behind (str "datasource=") (str "datasource", r.datasource) = some r.datasource := by
      have hsplit : str "datasource=" = str "datasource" ++ str "=" := rfl
      rw [hsplit]
      exact behind_self
    rw [h.pairs_eq, List.findSome?_cons, behind_eq_none (c := ch 'a') (by decide)
        (not_mem_pairItem (by decide) (by decide)), List.findSome?_cons,
      behind_eq_none (c := ch 'a') (by decide) (not_mem_pairItem (by decide) (by decide)),
      List.findSome?_cons, behind_eq_none (c := ch 'a') (by decide)
        (not_mem_pairItem (by decide) (by decide)), List.findSome?_cons, hself]
  rw [hword, ← behind_pairsText hamp hplain, ← hword] at hfound
  obtain ⟨t, ht, hvalue⟩ := Option.map_eq_some_iff.mp hfound
  refine ⟨t, ht, ?_⟩
  rw [← untilOr_strchr]
  exact hvalue

/-! ## The request -/

theorem PlainRequest.endpoint_plain : ∀ b ∈ r.endpoint, Url.pathSet b = false ∧ b ≠ ch '\\'
    ∧ b ≠ ch '&' ∧ b ≠ ch '=' ∧ b ≠ ch '.' ∧ b ≠ ch '%' := by
  have hsep : str "\\&=.%" = [ch '\\', ch '&', ch '=', ch '.', ch '%'] := rfl
  intro b hb
  have hbyte := h.endpoint_bytes b hb
  unfold endpointByte at hbyte
  rw [hsep] at hbyte
  simpa using hbyte

/-- The routes of the gate and the special endpoints of the backend start with an underscore. -/
theorem PlainRequest.not_prefix {s : Bytes} (hs : s.head? = some (ch '_')) : ¬ s <+: r.endpoint := by
  rintro ⟨t, ht⟩
  obtain ⟨b, s, rfl⟩ := List.exists_cons_of_ne_nil (l := s) (by rintro rfl; cases hs)
  refine h.endpoint_free.2.1 ?_
  rw [← ht]
  exact hs

theorem PlainRequest.not_special {s : Bytes} (hs : s.head? = some (ch '_')) : r.endpoint ≠ s := by
  rintro rfl
  exact h.not_prefix hs (List.prefix_refl _)

/-- No byte of the endpoint ends it, in the request or in the parameters. -/
theorem PlainRequest.endpoint_clean : ∀ c ∈ str "&=?. \r\x00", c ∉ r.endpoint := by
  have hall : (str "&=?. \r\x00").all
      (fun c => Url.pathSet c || (c == ch '&' || c == ch '=' || c == ch '.')) = true := by decide
  intro c hc hm
  obtain ⟨hset, -, hamp, heq, hdot, -⟩ := h.endpoint_plain c hm
  have hc := List.all_eq_true.mp hall c hc
  simp [hset, hamp, heq, hdot] at hc

theorem PlainRequest.query_clean : ∀ c ∈ str " \r\x00", c ∉ pairsText (r.pairs width height) := by
  have hall : (str " \r\x00").all (fun c => !queryByte c) = true := by decide
  intro c hc hm
  have hc := List.all_eq_true.mp hall c hc
  rw [h.queryBytes c hm] at hc
  cases hc

/-- The browser sends the address as it is. -/
theorem PlainRequest.target_eq : Url.target (r.url width height)
    = Backend.getTarget r.endpoint (pairsText (r.pairs width height)) := by
  have hquery : ∀ b ∈ pairsText (r.pairs width height),
      Url.pathSet b = false ∧ Url.querySet b = false := by
    intro b hb
    have hbyte := h.queryBytes b hb
    unfold queryByte at hbyte
    simpa using hbyte
  have hpath : ∀ b ∈ ch '/' :: r.endpoint, Url.pathSet b = false := by
    intro b hb
    rcases List.mem_cons.mp hb with rfl | hb
    · decide
    · exact (h.endpoint_plain b hb).1
  have hdots : ∀ seg ∈ Url.segments r.endpoint, Url.isDot seg = false ∧ Url.isDotDot seg = false := by
    intro seg hseg
    have hmem : ∀ b ∈ seg, b ∈ ch '/' :: r.endpoint := by
      intro b hb
      rw [← Url.join_segments fun hm => (h.endpoint_plain _ hm).2.1 rfl]
      exact List.mem_flatMap.mpr ⟨seg, hseg, List.mem_cons_of_mem _ hb⟩
    refine Url.not_dots (fun hm => ?_) fun hm => ?_
    · rcases List.mem_cons.mp (hmem _ hm) with heq | hm
      · exact absurd heq (by decide)
      · exact (h.endpoint_plain _ hm).2.2.2.2.1 rfl
    · rcases List.mem_cons.mp (hmem _ hm) with heq | hm
      · exact absurd heq (by decide)
      · exact (h.endpoint_plain _ hm).2.2.2.2.2 rfl
  obtain ⟨htext, hsent⟩ := Url.target_query hpath fun b hb => (hquery b hb).1
  have hplain := Url.pathText_plain (fun b hb => ⟨(h.endpoint_plain b hb).1, (h.endpoint_plain b hb).2.1⟩)
    hdots
  have hself := Url.percentEncode_eq_self fun b hb => (hquery b hb).2
  have hurl : r.url width height
      = (ch '/' :: r.endpoint) ++ ch '?' :: pairsText (r.pairs width height) := rfl
  unfold Url.target
  rw [hurl, htext, hsent, hplain, hself]
  rfl

theorem PlainRequest.request_eq (rest : Bytes) : (r.line width height).request rest
    = Backend.getRequest r.endpoint (pairsText (r.pairs width height)) rest := by
  have htarget : (r.line width height).target = Url.target (r.url width height) := rfl
  unfold RequestLine.request
  rw [htarget, h.target_eq]
  rfl

end

/-! ## The request is for a chart -/

theorem strtol_printInt {z : Int} (hz : 0 < z) (hmax : z < 2 ^ 31) :
    Backend.strtol (printInt z) = (z, []) := by
  have hprint : printInt z = printNat z.toNat := by
    unfold printInt
    rw [if_neg (by omega), ← Int.natAbs_of_nonneg hz.le]
    rfl
  have hdigits : ∀ b ∈ printNat z.toNat, isDigit b = true := fun _ => isDigit_of_mem_printNat
  obtain ⟨d, ds, hd⟩ := List.exists_cons_of_ne_nil (printNat_ne_nil z.toNat)
  have hdig : isDigit d = true := hdigits d (by rw [hd]; simp)
  have hval : strtoll (printInt z ++ []) = some (saturate64 z) := strtoll_printInt z (by simp)
  have hspace : (printNat z.toNat).dropWhile isSpace = printNat z.toNat := by
    rw [hd, List.dropWhile_cons_of_neg (by simp [isSpace_of_isDigit hdig])]
  have hsign : ∀ c, isDigit c = false → startsWith (printNat z.toNat) [c] = false := by
    intro c hc
    rw [hd]
    have hne : c ≠ d := ne_of_class (f := fun b => !isDigit b) (by simp [hc]) (by simp [hdig])
    simp [hne]
  have hend : (printNat z.toNat).dropWhile isDigit = [] := by
    rw [List.dropWhile_eq_nil_iff]
    exact hdigits
  have hminus : str "-" = [ch '-'] := rfl
  have hplus : str "+" = [ch '+'] := rfl
  have hsaturate : saturate64 z = z := by
    unfold saturate64
    omega
  rw [List.append_nil, hprint] at hval
  rw [hprint]
  unfold Backend.strtol
  simp only [hval, hspace, hminus, hplus, hsign (ch '-') (by decide), hsign (ch '+') (by decide),
    Bool.or_self, Bool.false_eq_true, if_false, hend, hsaturate]

/-- An `int`. -/
def IsInt (z : Int) : Prop := -2 ^ 31 ≤ z ∧ z < 2 ^ 31

instance (z : Int) : Decidable (IsInt z) := inferInstanceAs (Decidable (_ ∧ _))

theorem isInt_size {size dflt : Int} (hsize : IsInt size) (hdflt : IsInt dflt) :
    IsInt (if size = 0 then dflt else size) := by
  split
  · exact hdflt
  · exact hsize

theorem length_pairItem (key v : Bytes) :
    (pairItem (key, v)).length = key.length + (v.length + 1) := by
  unfold pairItem
  rw [List.length_append, List.length_cons]

theorem length_pairItem_le {key : Bytes} {z : Int} (h : IsInt z) :
    (pairItem (key, printInt z)).length ≤ key.length + 22 := by
  obtain ⟨hmin, hmax⟩ := h
  have hprint : (printInt z).length ≤ 21 := length_printInt_le (by omega)
  rw [length_pairItem]
  omega

/-- A printed size means the same to both readers. -/
theorem sizeAgrees_print {q key : Bytes} {size dflt : Int}
    (hread : Backend.handlerGetParam q key = some (printInt size)) (hsize : IsInt size) :
    Backend.SizeAgrees q key dflt := by
  intro v hv
  obtain rfl := Option.some.inj (hread.symm.trans hv)
  by_cases hpos : 0 < size
  · rw [strtol_printInt hpos hsize.2]
    exact Or.inl ⟨rfl, hpos⟩
  · have hatoi := atoi_printInt (s := []) hsize.1 hsize.2 (by simp)
    rw [List.append_nil] at hatoi
    exact Or.inr (Or.inl (by rw [hatoi]; omega))

section

variable {r : PanelRequest} {width height : Int} (h : PlainRequest r) (hwidth : IsInt width)
  (hheight : IsInt height)

include h hwidth hheight

theorem PlainRequest.query_short : (pairsText (r.pairs width height)).length ≤ 255 := by
  have hpos := h.period.1
  have hlen : ∀ (key : Bytes) (z : Int), IsInt z →
      (pairItem (key, printInt z)).length ≤ key.length + 22 := fun _ _ => length_pairItem_le
  have hp := hlen (str "period") r.period ⟨by omega, h.period.2⟩
  have hw := hlen (str "width") _ (isInt_size hwidth (by decide : IsInt 800))
  have hh := hlen (str "height") _ (isInt_size hheight (by decide : IsInt 450))
  have hd := h.datasource_short.2
  have hname := length_pairItem (str "datasource") r.datasource
  have hten : (str "datasource").length = 10 := rfl
  have hsix : (str "period").length = 6 := rfl
  have hfive : (str "width").length = 5 := rfl
  have hsix' : (str "height").length = 6 := rfl
  rw [h.pairs_eq]
  simp only [pairsText, List.length_append, List.length_cons]
  omega

theorem PlainRequest.chart {a : Arrival} {rest : Bytes}
    (hreceived : a.received = (r.line width height).request rest)
    (htoken : hasValidToken a.env (cstr a.received) = true)
    (hfits : (apiParams r.endpoint (pairsText (r.pairs width height))).length < a.env.maxParamsLen)
    (hlsrp : a.lsrp.Reliable a.env.maxParamsLen) :
    ChartRequest a r.endpoint (pairsText (r.pairs width height)) := by
  have hbelow : startsWith r.endpoint (str "_datasources/") = false := by
    rw [Bool.eq_false_iff]
    intro hstart
    obtain ⟨t, ht⟩ := startsWith_iff.mp hstart
    exact h.not_prefix rfl ⟨t, ht.symm⟩
  have hfree : ∀ s ∈ [str "_auth/login", str "_auth/verify", str "_datasources"], r.endpoint ≠ s := by
    intro s hs
    refine h.not_special ?_
    simp only [List.mem_cons, List.not_mem_nil, or_false] at hs
    rcases hs with rfl | rfl | rfl <;> rfl
  refine ⟨⟨rest, hreceived.trans (h.request_eq rest)⟩,
    ⟨h.endpoint_ne, h.endpoint_short, h.endpoint_clean⟩, hfree, ⟨hbelow, h.endpoint_free.2.2⟩,
    ⟨h.query_short hwidth hheight, h.query_clean⟩, htoken, hfits, hlsrp, ?_, ?_⟩
  · exact sizeAgrees_print (h.read_size (Or.inl ⟨rfl, rfl⟩)) (isInt_size hwidth (by decide))
  · exact sizeAgrees_print (h.read_size (Or.inr ⟨rfl, rfl⟩)) (isInt_size hheight (by decide))

end

/-! ## What the backend is asked for -/

/-- A printed size is bounded like the size itself. -/
theorem boundSize_print {z dflt lo hi : Int} (h : IsInt z) :
    Backend.boundSize dflt lo hi (Backend.querySize (some (printInt z)) 0)
      = Backend.boundSize dflt lo hi z := by
  obtain ⟨hmin, hmax⟩ := h
  by_cases hpos : 0 < z
  · have hfits : toInt32 z = z := by
      unfold toInt32
      omega
    unfold Backend.querySize
    dsimp only
    rw [strtol_printInt hpos hmax, if_pos ⟨rfl, hpos⟩, hfits]
  · have hnot : Backend.querySize (some (printInt z)) 0 = 0 := by
      have hatoi : strtoll (printInt z ++ []) = some (saturate64 z) := strtoll_printInt z (by simp)
      have hvalue : (Backend.strtol (printInt z)).1 = z := by
        rw [List.append_nil] at hatoi
        unfold Backend.strtol
        rw [hatoi]
        unfold saturate64
        dsimp only
        omega
      unfold Backend.querySize
      dsimp only
      rw [hvalue, if_neg fun hand => hpos hand.2]
    unfold Backend.boundSize
    dsimp only
    rw [hnot, if_pos (Int.le_refl 0), if_pos (by omega : z ≤ 0)]

section

variable {r : PanelRequest} {width height : Int} (h : PlainRequest r) (hwidth : IsInt width)
  (hheight : IsInt height)

include h hwidth hheight

/-- The size is the one the panel has on the page. -/
theorem PlainRequest.sizes {a : Arrival}
    (hchart : ChartRequest a r.endpoint (pairsText (r.pairs width height)))
    (config : Backend.ServerConfig) :
    Backend.svgWidth (lsrpChart r.endpoint (pairsText (r.pairs width height)))
        = Backend.boundSize 800 200 1600 (if width = 0 then 800 else width)
      ∧ Backend.svgHeight (lsrpChart r.endpoint (pairsText (r.pairs width height)))
        = Backend.boundSize 450 120 800 (if height = 0 then 450 else height) := by
  have hjob := renderJob_chart hchart.path hchart.sizes config
  have hw : Backend.handlerGetParam (pairsText (r.pairs width height)) (str "width")
      = some (printInt (if width = 0 then 800 else width)) := h.read_size (Or.inl ⟨rfl, rfl⟩)
  have hh : Backend.handlerGetParam (pairsText (r.pairs width height)) (str "height")
      = some (printInt (if height = 0 then 450 else height)) := h.read_size (Or.inr ⟨rfl, rfl⟩)
  constructor
  · refine (congrArg Backend.RenderJob.width hjob).symm.trans ?_
    show Backend.boundSize 800 200 1600 (Backend.querySize (Backend.handlerGetParam _ _) 0) = _
    rw [hw, boundSize_print (isInt_size hwidth (by decide))]
  · refine (congrArg Backend.RenderJob.height hjob).symm.trans ?_
    show Backend.boundSize 450 120 800 (Backend.querySize (Backend.handlerGetParam _ _) 0) = _
    rw [hh, boundSize_print (isInt_size hheight (by decide))]

end

section

variable {r : PanelRequest} {width height : Int} (h : PlainRequest r)

include h

/-- The name in the address decides the backend, whatever the headers say. -/
theorem PlainRequest.backend {config : Config} {ds : DatasourceList} {source : Datasource}
    (hsource : findDatasource ds r.datasource = some source) (rest : Bytes) :
    targetBackend config ds (cstr ((r.line width height).request rest))
      = .ok (source.host, source.port) := by
  have hmark : ch '?' ∉ r.endpoint := fun hm =>
    absurd (h.endpoint_plain _ hm).1 (by decide)
  have hquery : strchr (r.line width height).target (ch '?')
      = some (ch '?' :: pairsText (r.pairs width height)) := by
    have htarget : (r.line width height).target = Url.target (r.url width height) := rfl
    rw [htarget, h.target_eq]
    simpa using Backend.strchr_getTarget (q := pairsText (r.pairs width height)) hmark []
  obtain ⟨t, ht, hvalue⟩ : ∃ t, strstr (pairsText (r.pairs width height)) (str "datasource=") = some t
      ∧ (t.drop 11).takeWhile (· ≠ ch '&') = r.datasource := h.read_datasource
  have hne : ch '?' ≠ ch 'd' := by decide
  have hword : str "datasource=" = ch 'd' :: str "atasource=" := rfl
  have hfind : strstr (ch '?' :: pairsText (r.pairs width height)) (str "datasource=") = some t := by
    rw [hword, strstr_cons_ne hne, ← hword]
    exact ht
  rw [cstr_request, targetBackend_eq, requested_of_found hquery hfind, hvalue]
  dsimp only
  rw [hsource]

/-- The handler looks for a metric, and the request fetches it. -/
theorem PlainRequest.route {config : Backend.ServerConfig} {m : Backend.MetricConfig}
    {param : Option Bytes} {period : Int}
    (hfind : Backend.findMetricConfig config.toConfig r.endpoint = some m)
    (hparam : (m.requiresParam = false ∧ param = none) ∨ (m.requiresParam = true
      ∧ ∃ p, param = some p ∧ Backend.extractParamFromPath r.endpoint m.endpoint = some p)) :
    Backend.handlerRoute config r.endpoint period = .fetch ⟨m, param, period⟩ := by
  unfold Backend.handlerRoute
  rw [if_neg (h.not_special rfl), if_neg (h.not_special rfl), if_neg (h.not_special rfl), hfind]
  dsimp only
  rcases hparam with ⟨hreq, rfl⟩ | ⟨hreq, p, rfl, hextract⟩
  · rw [hreq, if_neg (by decide)]
  · rw [hreq, if_pos rfl, hextract]

/-- A metric that needs a parameter is not drawn without one. -/
theorem PlainRequest.refused {config : Backend.ServerConfig} {m : Backend.MetricConfig} {period : Int}
    (hfind : Backend.findMetricConfig config.toConfig r.endpoint = some m)
    (hreq : m.requiresParam = true)
    (hnone : Backend.extractParamFromPath r.endpoint m.endpoint = none) :
    ∃ message, Backend.handlerRoute config r.endpoint period = .refused message := by
  unfold Backend.handlerRoute
  rw [if_neg (h.not_special rfl), if_neg (h.not_special rfl), if_neg (h.not_special rfl), hfind]
  dsimp only
  rw [hreq, if_pos rfl, hnone]
  exact ⟨_, rfl⟩

end

section

variable {ask : Ask} {args : Backend.HandlerArgs} (hargs : Backend.lsrpArgs ask.params = .ok args)

include hargs

end

/-! ## The whole way -/

/-- The browser's request for a picture is at the gate: with an address that nothing on the way
changes, with a token that is valid, short enough for the client library, which delivers it, and
for a datasource that is stored. The backend there has the configuration. -/
structure AtGate (c : Backend.LoadedConfig) (r : PanelRequest) (width height : Int)
    (source : Datasource) (d : Deployment) (a : Arrival) : Prop where
  plain : PlainRequest r
  sizes : IsInt width ∧ IsInt height
  received : ∃ rest, a.received = (r.line width height).request rest
  token : hasValidToken a.env (cstr a.received) = true
  fits : (apiParams r.endpoint (pairsText (r.pairs width height))).length < a.env.maxParamsLen
  lsrp : a.lsrp.Reliable a.env.maxParamsLen
  stored : findDatasource d.datasources r.datasource = some source
  config : (a.world (source.host, source.port)).config.toConfig = c.toConfig

/-- One backend is asked, and it reads the size. -/
theorem AtGate.asks {c : Backend.LoadedConfig} {r : PanelRequest} {width height : Int}
    {source : Datasource} {d : Deployment} {a : Arrival} (h : AtGate c r width height source d a) :
    ∃ ask, d.asks a = [((source.host, source.port), ask)] ∧ ask.env = a.world (source.host, source.port)
      ∧ ∃ args, Backend.lsrpArgs ask.params = .ok args ∧ args.endpoint = r.endpoint
        ∧ args.period = r.period
        ∧ Backend.svgWidth args = Backend.boundSize 800 200 1600 (if width = 0 then 800 else width)
        ∧ Backend.svgHeight args = Backend.boundSize 450 120 800 (if height = 0 then 450 else height) := by
  obtain ⟨rest, hrest⟩ := h.received
  have hchart := h.plain.chart h.sizes.1 h.sizes.2 hrest h.token h.fits h.lsrp
  have hbackend : targetBackend a.env.config d.datasources (cstr a.received)
      = .ok (source.host, source.port) := by
    rw [hrest]
    exact h.plain.backend h.stored rest
  have hsizes := h.plain.sizes h.sizes.1 h.sizes.2 hchart (a.world (source.host, source.port)).config
  have heq : ch '=' ∉ r.endpoint := fun hm => (h.plain.endpoint_plain _ hm).2.2.2.1 rfl
  have hperiod : Backend.lsrpPeriod (apiParams r.endpoint (pairsText (r.pairs width height))) = r.period :=
    (Backend.lsrpPeriod_eq heq).trans h.plain.read_period
  have hargs : Backend.lsrpArgs (apiParams r.endpoint (pairsText (r.pairs width height)))
      = .ok (lsrpChart r.endpoint (pairsText (r.pairs width height))) := lsrpArgs_chart hchart.path
  exact ⟨_, hchart.asks_eq hbackend, rfl, _, hargs, rfl, hperiod, hsizes⟩

end Svgd.Gate
