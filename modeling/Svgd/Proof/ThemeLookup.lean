import Svgd.Backend.Handler
import Svgd.Proof.SvgDocument

/-!
# The theme of a panel

A theme is looked up as a property of an object, and an object has more properties than the
keys it was written with. `generateSVG` reads the theme only through the palette it resolves to
(`generateSVG_theme`), so a theme that resolves like `light` renders like `light`; and with a
palette nothing throws. What remains is which names resolve to a palette: all but those that
every object inherits. What these resolve to has no colours, and a chart of some point throws
(`generateSVG_eq_none_iff`).
-/

namespace Svgd.Panel

open Lib Lib.Js Lib.Xml Backend

section

variable {N : Type} [Num N] (options : PanelOptions N) (theme : Option Text)

/-! ## What does not read the theme -/

theorem plot_theme (series : List (Series N)) :
    plot { options with theme := theme } series = plot options series := rfl

theorem gapThreshold_theme (series : List (Series N)) :
    gapThreshold { options with theme := theme } series = gapThreshold options series := rfl

theorem drawSeries_theme (host : Host N) (colors : Option (Palette N)) (g : Plot N) (gap : N)
    (s : Series N) (si : Nat) :
    drawSeries host { options with theme := theme } colors g gap s si
      = drawSeries host options colors g gap s si := rfl

theorem plotHead_theme (host : Host N) (colors : Option (Palette N)) (g : Plot N) :
    plotHead host { options with theme := theme } colors g = plotHead host options colors g := rfl

theorem labels_theme (colors : Option (Palette N)) (g : Plot N) :
    labels { options with theme := theme } colors g = labels options colors g := rfl

theorem legendFrom_theme (colors : Option (Palette N)) (width left : N)
    (l : List (Series N × Nat)) (legendX legendY : N) :
    legendFrom { options with theme := theme } colors width left l legendX legendY
      = legendFrom options colors width left l legendX legendY := by
  induction l generalizing legendX legendY with
  | nil => rfl
  | cons x l ih =>
      obtain ⟨s, si⟩ := x
      rw [legendFrom, legendFrom]
      have hvalue : legendValue { options with theme := theme } = legendValue options := rfl
      rw [hvalue]
      cases s.data.getLast?.bind (legendValue options) with
      | none => exact ih legendX legendY
      | some rawValue => simp only [ih]; rfl

theorem sortedData_theme (host : Host N) (series : List (Series N)) :
    sortedData host { options with theme := theme } series = sortedData host options series := rfl

theorem statTrend_theme (colors : Option (Palette N)) (height trend trendPercent : N)
    (yLabel : Text) :
    statTrend { options with theme := theme } colors height trend trendPercent yLabel
      = statTrend options colors height trend trendPercent yLabel := rfl

theorem statFormatter_theme (v : N) :
    statFormatter { options with theme := theme } v = statFormatter options v := rfl

theorem generateChart_theme (host : Host N) (series : List (Series N)) {theme' : Option Text}
    (h : resolveTheme host theme = resolveTheme host theme') :
    generateChart host series { options with theme := theme }
      = generateChart host series { options with theme := theme' } := by
  have hwidth (t : Option Text) :
      PanelOptions.chartWidth { options with theme := t } = options.chartWidth := rfl
  have hheight (t : Option Text) :
      PanelOptions.chartHeight { options with theme := t } = options.chartHeight := rfl
  unfold generateChart
  simp only [h, hwidth, hheight, plot_theme, gapThreshold_theme, drawSeries_theme, plotHead_theme,
    labels_theme, legendFrom_theme]

theorem generateStatSVG_theme (host : Host N) (series : List (Series N)) {theme' : Option Text}
    (h : resolveTheme host theme = resolveTheme host theme') :
    generateStatSVG host series { options with theme := theme }
      = generateStatSVG host series { options with theme := theme' } := by
  have htitle (t : Option Text) :
      statTitle { options with theme := t } = statTitle options := rfl
  have hlabel (t : Option Text) :
      statLabel { options with theme := t } = statLabel options := rfl
  unfold generateStatSVG
  simp only [h, htitle, hlabel, sortedData_theme, statTrend_theme, statFormatter_theme]

/-- The theme is read only through the palette. -/
theorem generateSVG_theme (host : Host N) (series : List (Series N)) {theme' : Option Text}
    (h : resolveTheme host theme = resolveTheme host theme') :
    generateSVG host series { options with theme := theme }
      = generateSVG host series { options with theme := theme' } := by
  unfold generateSVG
  rw [generateChart_theme options theme host series h,
    generateStatSVG_theme options theme host series h]

end

/-! ## When the script throws -/

section

variable {N : Type} [Num N] {host : Host N} {options : PanelOptions N} {series : List (Series N)}

theorem mapM_eq_none {α β : Type} {f : α → Option β} {l : List α} {x : α} (hx : x ∈ l)
    (hf : f x = none) : l.mapM f = none := by
  induction l with
  | nil => exact absurd hx List.not_mem_nil
  | cons y l ih =>
      rw [List.mapM_cons]
      rcases List.mem_cons.mp hx with rfl | hx
      · rw [hf]
        rfl
      · rw [ih hx]
        cases f y <;> rfl

/-- A series with a point is drawn, in a colour of its own. -/
theorem exists_drawn (h : collected series ≠ []) : ∃ s si, (s, si) ∈ series.zipIdx ∧ s.data ≠ [] := by
  obtain ⟨d, hd⟩ := List.exists_mem_of_ne_nil _ h
  obtain ⟨s, hs, hd⟩ := List.mem_flatMap.mp hd
  obtain ⟨si, hsi, rfl⟩ := List.mem_iff_getElem.mp hs
  exact ⟨_, si, List.mk_mem_zipIdx_iff_getElem?.mpr (List.getElem?_eq_getElem hsi),
    List.ne_nil_of_mem (List.mem_of_mem_filter hd)⟩

/-- The script throws in a chart of some point, and there only if the theme is no palette. -/
theorem generateSVG_eq_none_iff :
    generateSVG host series options = none
      ↔ resolveTheme host options.theme = none ∧ collected series ≠ []
        ∧ orText options.panelType (txt "chart") ≠ txt "stat" := by
  refine ⟨fun h => ?_, ?_⟩
  · have hcolors : resolveTheme host options.theme = none := by
      cases hcolors : resolveTheme host options.theme with
      | none => rfl
      | some palette =>
          obtain ⟨ps, hps⟩ := exists_generateSVG host options series hcolors
          rw [h] at hps
          contradiction
    unfold generateSVG at h
    split_ifs at h with hpanel
    refine ⟨hcolors, fun hcollected => ?_, hpanel⟩
    unfold generateChart at h
    dsimp only at h
    rw [if_pos hcollected] at h
    split_ifs at h
  · rintro ⟨hcolors, hcollected, hpanel⟩
    have hseries : series ≠ [] := by
      rintro rfl
      exact hcollected rfl
    obtain ⟨s, si, hmem, hdata⟩ := exists_drawn hcollected
    unfold generateSVG
    rw [if_neg hpanel]
    unfold generateChart
    dsimp only
    rw [if_neg hseries, if_neg hcollected, hcolors, mapM_eq_none hmem]
    · rfl
    · unfold drawSeries
      rw [if_neg hdata]
      rfl

end

/-! ## Which themes resolve -/

/-- `toLowerCase` takes a text without letters of other scripts letter by letter. -/
def LowersAscii {N : Type} (host : Host N) : Prop :=
  ∀ s : Text, (s.all fun c => c.toNat < 128) = true → host.toLowerCase s = s.map Char.toLower

section

variable {N : Type} [Num N] (host : Host N) (theme : Text)

/-- The palette a theme names, in whatever case, or else `light`. -/
def paletteFor : Palette N := (themes.lookup (host.toLowerCase theme)).getD light

/-- No theme breaks a panel, and an unknown one makes it a panel of `light`. -/
structure Themed : Prop where
  resolves : resolveTheme host (some theme) = some (paletteFor host theme)
  unknown : host.toLowerCase theme ∉ (themes (N := N)).map Prod.fst →
    ∀ (series : List (Series N)) (options : PanelOptions N),
      generateSVG host series { options with theme := some theme }
        = generateSVG host series { options with theme := some (txt "light") }
  renders : ∀ (series : List (Series N)) (options : PanelOptions N),
    ∃ ps, generateSVG host series { options with theme := some theme } = some ps

variable {host theme}

theorem lookup_themes_light : (themes (N := N)).lookup (txt "light") = some light := rfl

theorem paletteFor_light (hlower : LowersAscii host) : paletteFor host (txt "light") = light := by
  have hkey : host.toLowerCase (txt "light") = txt "light" := hlower _ (by decide)
  rw [paletteFor, hkey, lookup_themes_light]
  rfl

theorem paletteFor_unknown (h : host.toLowerCase theme ∉ (themes (N := N)).map Prod.fst) :
    paletteFor host theme = light := by
  have hnone : (themes (N := N)).lookup (host.toLowerCase theme) = none := by
    rw [List.lookup_eq_none_iff]
    intro entry hentry
    exact bne_iff_ne.mpr fun hkey => h (List.mem_map.mpr ⟨entry, hentry, hkey.symm⟩)
  rw [paletteFor, hnone]
  rfl

/-- An inherited name is no key of the themes. -/
theorem lookup_themes_inherited {key : Text} (h : key ∈ inheritedNames) :
    (themes (N := N)).lookup key = none := by
  obtain rfl | rfl := List.mem_pair.mp h <;> rfl

theorem resolveTheme_iff (hlower : LowersAscii host) :
    resolveTheme host (some theme) = some (paletteFor host theme)
      ↔ host.toLowerCase theme ∉ inheritedNames := by
  have hempty : host.toLowerCase [] = [] := hlower [] rfl
  cases theme with
  | nil =>
      rw [hempty]
      unfold paletteFor resolveTheme
      rw [hempty]
      exact iff_of_true rfl (by decide)
  | cons c rest =>
      unfold paletteFor resolveTheme
      dsimp only
      by_cases hin : host.toLowerCase (c :: rest) ∈ inheritedNames
      · rw [lookup_themes_inherited hin, if_pos (List.contains_iff_mem.mpr hin)]
        exact iff_of_false (by simp) (not_not_intro hin)
      · refine iff_of_true ?_ hin
        cases (themes (N := N)).lookup (host.toLowerCase (c :: rest)) with
        | none => exact if_neg fun h => hin (List.contains_iff_mem.mp h)
        | some palette => rfl

/-- **Themes**: a theme is one of the palettes, or rendered as `light`, if and only if in lower case
it is no name that every object inherits. -/
theorem themed_iff (hlower : LowersAscii host) :
    Themed host theme ↔ host.toLowerCase theme ∉ inheritedNames := by
  refine ⟨fun h => (resolveTheme_iff hlower).mp h.resolves, fun hname => ?_⟩
  have hresolves := (resolveTheme_iff hlower).mpr hname
  refine ⟨hresolves, fun hunknown series options => ?_, fun series options => ?_⟩
  · have hlight : resolveTheme host (some (txt "light")) = some (paletteFor host (txt "light")) := by
      refine (resolveTheme_iff hlower).mpr ?_
      rw [hlower _ (by decide)]
      decide
    refine generateSVG_theme options _ host series ?_
    rw [hresolves, hlight, paletteFor_unknown hunknown, paletteFor_light hlower]
  · exact exists_generateSVG host _ series hresolves

end

/-- A misspelt theme is rendered as `light`. -/
theorem themed_misspelt : Themed utcHost (txt "Drak") :=
  (themed_iff fun _ _ => rfl).mpr (by decide)

/-- The theme of a query that names the constructor of an object, and a chart of one point. -/
theorem theme_constructor :
    renderTheme {} ⟨str "cpu", some (str "theme=constructor"), 0, 0, 0⟩ = str "constructor"
      ∧ generateSVG utcHost [⟨txt "cpu", [⟨num 0, num 1⟩]⟩] { theme := some (txt "constructor") }
        = none
      ∧ ¬Themed utcHost (txt "constructor") := by
  have hthrows : generateSVG utcHost [⟨txt "cpu", [⟨num 0, num 1⟩]⟩]
      { theme := some (txt "constructor") } = none :=
    generateSVG_eq_none_iff.mpr ⟨rfl, by decide +kernel, by decide⟩
  refine ⟨by decide +kernel, hthrows, fun h => ?_⟩
  obtain ⟨ps, hps⟩ := h.renders [⟨txt "cpu", [⟨num 0, num 1⟩]⟩] {}
  rw [hthrows] at hps
  contradiction

end Svgd.Panel
