import Svgd.Lib.Xml

/-!
# Rendering

`src/scripts/generate_svg.js`. `svg_generate` always passes an array of series, each with an
array of points, and an object of options some of whose fields may be missing.

The texts the script pushes are the pieces of the document: its own markup, the numbers and
colours it prints, and the strings that come from the configuration, the query or a backend.
The script may also throw; then there is no document.
-/

namespace Svgd.Panel

open Lib Lib.Js Lib.Xml

/-- The options of a panel. -/
structure PanelOptions (N : Type) where
  panelType : Option Text := none
  width : Option N := none
  height : Option N := none
  theme : Option Text := none
  param1 : Option Text := none
  title : Option Text := none
  yLabel : Option Text := none
  isPercentage : Bool := false
  transformType : Option Text := none
  valueMultiplier : Option N := none
  transformDivisor : Option N := none
  valueFormat : Option Text := none

/-- A data point. -/
structure Point (N : Type) where
  timestamp : N
  value : N
deriving DecidableEq

structure Series (N : Type) where
  name : Text
  data : List (Point N)

/-- What the script uses of a theme. -/
structure Palette (N : Type) where
  background : Text
  gridLines : Text
  text : Text
  textPrimary : Text
  series : List Text
  seriesWidth : N
  fontFamily : Text
  border : Text
  positive : Text
  negative : Text
  neutral : Text
  sparkline : Text
  tooltipFill : Text
  tooltipOpacity : N
  tooltipStroke : Text

/-! ## Themes -/

section

variable {N : Type} [Num N]

def light : Palette N where
  background := txt "#ffffff"
  gridLines := txt "#e2e8f0"
  text := txt "#4a5568"
  textPrimary := txt "#1a202c"
  series := [txt "#3b82f6", txt "#10b981", txt "#f59e0b", txt "#ef4444", txt "#8b5cf6",
    txt "#ec4899"]
  seriesWidth := num 2
  fontFamily := txt "-apple-system, BlinkMacSystemFont, 'Segoe UI', Roboto, sans-serif"
  border := txt "#e2e8f0"
  positive := txt "#10b981"
  negative := txt "#ef4444"
  neutral := txt "#6b7280"
  sparkline := txt "#3b82f6"
  tooltipFill := txt "#ffffff"
  tooltipOpacity := num 0.98
  tooltipStroke := txt "#e2e8f0"

def dark : Palette N where
  background := txt "#1f2023"
  gridLines := txt "#2d2e32"
  text := txt "#9fa6b2"
  textPrimary := txt "#ffffff"
  series := [txt "#60a5fa", txt "#34d399", txt "#fbbf24", txt "#f87171", txt "#a78bfa",
    txt "#f472b6"]
  seriesWidth := num 2
  fontFamily := txt "-apple-system, BlinkMacSystemFont, 'Segoe UI', Roboto, sans-serif"
  border := txt "#2d2e32"
  positive := txt "#34d399"
  negative := txt "#f87171"
  neutral := txt "#9ca3af"
  sparkline := txt "#60a5fa"
  tooltipFill := txt "#000000"
  tooltipOpacity := num 0.9
  tooltipStroke := txt "#2d2e32"

def highContrast : Palette N where
  background := txt "#000000"
  gridLines := txt "#ffffff"
  text := txt "#ffffff"
  textPrimary := txt "#ffff00"
  series := [txt "#ffff00", txt "#00ffff", txt "#ff00ff", txt "#00ff00", txt "#ff0000",
    txt "#ffffff"]
  seriesWidth := num 3
  fontFamily := txt "'Courier New', Courier, monospace"
  border := txt "#ffffff"
  positive := txt "#00ff00"
  negative := txt "#ff0000"
  neutral := txt "#ffffff"
  sparkline := txt "#ffff00"
  tooltipFill := txt "#000000"
  tooltipOpacity := num 1.0
  tooltipStroke := txt "#ffffff"

/-- `THEMES`, by the keys of its own. -/
def themes : List (Text × Palette N) :=
  [(txt "light", light), (txt "dark", dark), (txt "high-contrast", highContrast)]

/-- The properties every object inherits that are spelled in lower case. -/
def inheritedNames : List Text := [txt "constructor", txt "__proto__"]

/-- `resolveTheme`. What an object inherits is no palette, and all the fields the script reads
from it are `undefined`: that is `none`. -/
def resolveTheme (host : Host N) (name : Option Text) : Option (Palette N) :=
  match name with
  | none => some light
  | some [] => some light
  | some (c :: name) =>
      let key := host.toLowerCase (c :: name)
      match themes.lookup key with
      | some palette => some palette
      | none => if inheritedNames.contains key then none else some light

/-- A field of the colours as `join` prints it, `undefined` as nothing. -/
def ink (colors : Option (Palette N)) (field : Palette N → Text) : Piece :=
  .plain (colors.elim [] field)

/-- A field of the colours as `+` prints it. -/
def inkAdded (colors : Option (Palette N)) (field : Palette N → Text) : Piece :=
  .plain (colors.elim (txt "undefined") field)

/-- `colors.series[si % colors.series.length]`, which throws if there is no `colors.series`. -/
def seriesColor (colors : Option (Palette N)) (si : Nat) : Option Text :=
  colors.map fun palette => palette.series.getD (si % palette.series.length) []

/-! ## Values -/

/-- Markup of the script. -/
def lit (s : String) : Piece := .markup (txt s)

/-- A number. -/
def put (x : N) : Piece := .plain (toText x)

/-- `!isNaN(v) && v >= 0`. -/
def isValid (v : N) : Bool := !isNaN v && ge v (num 0)

/-- `options.transformType || 'none'`. -/
def PanelOptions.transform (options : PanelOptions N) : Text :=
  orText options.transformType (txt "none")

/-- `options.transformDivisor || 1.0`. -/
def PanelOptions.divisor (options : PanelOptions N) : N := orNum options.transformDivisor (num 1)

/-- `options.valueMultiplier || 1.0`. -/
def PanelOptions.multiplier (options : PanelOptions N) : N := orNum options.valueMultiplier (num 1)

/-- `options.valueFormat || '%.2f'`. -/
def PanelOptions.format (options : PanelOptions N) : Text :=
  orText options.valueFormat (txt "%.2f")

/-- A value as the chart transforms it. -/
def chartTransform (options : PanelOptions N) (v : N) : N :=
  if options.transform = txt "multiply" then v * options.multiplier
  else if options.transform = txt "divide" then v / options.divisor
  else v

/-- `valueFormatter` of the chart. -/
def valueFormatter (options : PanelOptions N) (v : N) : Text :=
  if options.format = txt "%d" ∨ options.format = txt "%.0f" then toText (Num.round v)
  else if options.format = txt "%.1f" then toFixed 1 v
  else if options.format = txt "%.2f" then toFixed 2 v
  else toFixed 2 v

/-- `valueFormatter` of the stat panel. -/
def statFormatter (options : PanelOptions N) (v : N) : Text :=
  if options.format = txt "%d" ∨ options.format = txt "%.0f" then toText (Num.round v)
  else if options.format = txt "%.1f" then toFixed 1 v
  else toFixed 2 v

/-! ## What the loops collect -/

/-- The points of `allData`, as first collected. -/
def collected (series : List (Series N)) : List (Point N) :=
  series.flatMap fun s => s.data.filter fun d => isValid d.value

/-- `allData` after the transformation. -/
def rangeData (options : PanelOptions N) (series : List (Series N)) : List (Point N) :=
  (collected series).map fun d => ⟨d.timestamp, chartTransform options d.value⟩

/-- What the chart draws for a point. -/
def chartPoint (options : PanelOptions N) (d : Point N) : Option (Point N) :=
  let val := chartTransform options d.value
  if isValid val then some ⟨d.timestamp, val⟩ else none

/-- `validData` of a series. -/
def validData (options : PanelOptions N) (s : Series N) : List (Point N) :=
  s.data.filterMap (chartPoint options)

/-- The value the legend shows for the last point of a series. -/
def legendValue (options : PanelOptions N) (lastPoint : Point N) : Option N :=
  if isNaN lastPoint.value || Num.lt lastPoint.value (num 0) then none
  else some (chartTransform options lastPoint.value)

/-- What the stat panel keeps of a point. -/
def statPoint (options : PanelOptions N) (d : Point N) : Option (Point N) :=
  if isValid d.value then
    let val := if options.transform = txt "divide" then d.value / options.divisor else d.value
    some ⟨d.timestamp, val⟩
  else none

/-- `allData` of the stat panel, before it is sorted. -/
def statData (options : PanelOptions N) (series : List (Series N)) : List (Point N) :=
  series.flatMap fun s => s.data.filterMap (statPoint options)

/-! ## Ranges -/

/-- The least and greatest value and time. -/
structure Extent (N : Type) where
  minVal : N
  maxVal : N
  minTime : N
  maxTime : N

/-- The bounds before the loop. -/
def startExtent (isPercentage : Bool) : Extent N :=
  if isPercentage then ⟨num 0, num 100, Num.infinity, Num.negInfinity⟩
  else ⟨Num.infinity, Num.negInfinity, Num.infinity, Num.negInfinity⟩

/-- One point of the loop. -/
def Extent.widen (isPercentage : Bool) (e : Extent N) (d : Point N) : Extent N where
  minVal := if !isPercentage && Num.lt d.value e.minVal then d.value else e.minVal
  maxVal := if !isPercentage && Num.lt e.maxVal d.value then d.value else e.maxVal
  minTime := if Num.lt d.timestamp e.minTime then d.timestamp else e.minTime
  maxTime := if Num.lt e.maxTime d.timestamp then d.timestamp else e.maxTime

/-- The padding around values that are no percentages. -/
def Extent.padded (isPercentage : Bool) (e : Extent N) : Extent N :=
  if isPercentage then e
  else
    let padding := (e.maxVal - e.minVal) * num 0.1
    let padding :=
      if Num.eq padding (num 0) then orNum (some (Num.abs e.maxVal * num 0.1)) (num 1) else padding
    { e with minVal := Num.max (num 0) (e.minVal - padding), maxVal := e.maxVal + padding }

/-- The plot: its size, the margins to the left and the top, and what it spans. -/
structure Plot (N : Type) where
  width : N
  height : N
  left : N
  top : N
  graphWidth : N
  graphHeight : N
  minVal : N
  maxVal : N
  minTime : N
  timeRange : N
  valueRange : N

/-- `options.width || 800`. -/
def PanelOptions.chartWidth (options : PanelOptions N) : N := orNum options.width (num 800)

/-- `options.height || 450`. -/
def PanelOptions.chartHeight (options : PanelOptions N) : N := orNum options.height (num 450)

/-- The dimensions and ranges of the chart. -/
def plot (options : PanelOptions N) (series : List (Series N)) : Plot N :=
  let width := options.chartWidth
  let height := options.chartHeight
  let top := Num.max (num 30) (height * num 0.08)
  let right := Num.max (num 30) (width * num 0.05)
  let bottom := Num.max (num 65) (height * num 0.18)
  let left := Num.max (num 50) (width * num 0.08)
  let e := (rangeData options series).foldl (Extent.widen options.isPercentage)
    (startExtent options.isPercentage)
  let e := e.padded options.isPercentage
  let timeRange := e.maxTime - e.minTime
  { width, height, left, top
    graphWidth := width - left - right
    graphHeight := height - top - bottom
    minVal := e.minVal
    maxVal := e.maxVal
    minTime := e.minTime
    timeRange := if Num.eq timeRange (num 0) then num 1 else timeRange
    valueRange := e.maxVal - e.minVal }

/-- The place of a time on the chart. -/
def Plot.xText (g : Plot N) (d : Point N) : Text :=
  toFixed 2 (g.graphWidth * (d.timestamp - g.minTime) / g.timeRange)

/-- The place of a value on the chart. -/
def Plot.yText (g : Plot N) (d : Point N) : Text :=
  toFixed 2 (g.graphHeight
    * (num 1 - (Num.min g.maxVal (Num.max g.minVal d.value) - g.minVal) / g.valueRange))

/-! ## Times -/

/-- `('0' + x).slice(-2)` of a number. -/
def padded (x : N) : Text := twoDigits (toText x)

/-- Hours, minutes and seconds. -/
def clock (host : Host N) (ts : N) : Text :=
  let d := ts * num 1000
  padded (host.hours d) ++ ':' :: padded (host.minutes d) ++ ':' :: padded (host.seconds d)

/-- `formatTime`. -/
def formatTime (host : Host N) (timeRange ts : N) : Text :=
  let d := ts * num 1000
  let date := toText (host.month d + num 1) ++ '/' :: toText (host.date d)
  let minutes := padded (host.hours d) ++ ':' :: padded (host.minutes d)
  if Num.lt (num 604800) timeRange then date
  else if Num.lt (num 86400) timeRange then date ++ ' ' :: minutes
  else if Num.lt (num 3600) timeRange then minutes
  else clock host ts

/-! ## Segments -/

/-- The loop that groups points into segments. -/
def segmentsFrom (gapThreshold : N) (segments : List (List (Point N)))
    (currentSegment : List (Point N)) (previous : Point N) :
    List (Point N) → List (List (Point N))
  | [] => segments ++ [currentSegment]
  | d :: rest =>
      if Num.lt gapThreshold (d.timestamp - previous.timestamp) then
        segmentsFrom gapThreshold (segments ++ [currentSegment]) [d] d rest
      else segmentsFrom gapThreshold segments (currentSegment ++ [d]) d rest

/-- The segments of a series; the script gets here only with some point. -/
def segments (gapThreshold : N) : List (Point N) → List (List (Point N))
  | [] => []
  | d :: rest => segmentsFrom gapThreshold [] [d] d rest

/-- `gapThreshold`. -/
def gapThreshold (options : PanelOptions N) (series : List (Series N)) : N :=
  let avgStep := (plot options series).timeRange / (len (rangeData options series) / len series)
  avgStep * num 3

/-! ## The parts of the chart -/

/-- A horizontal grid line with its label. -/
def yGridLine (options : PanelOptions N) (colors : Option (Palette N)) (g : Plot N) (i : Nat) :
    List Piece :=
  let y := toFixed 2 (g.graphHeight * (num 1 - num i / num 5))
  let value := g.minVal + g.valueRange * (num i / num 5)
  [lit "<line x1=\"0\" y1=\"", .plain y, lit "\" x2=\"", put g.graphWidth, lit "\" y2=\"", .plain y,
    lit "\" stroke=\"", ink colors (·.gridLines), lit "\" stroke-width=\"1\" opacity=\"0.5\"/>",
    lit "<text x=\"-10\" y=\"", .plain (toFixed 2 (Num.parseFloat y + num 4 : N)),
    lit "\" text-anchor=\"end\" font-size=\"11\" fill=\"", ink colors (·.text), lit "\">",
    .plain (valueFormatter options value), lit "</text>"]

/-- `xSteps`. -/
def xSteps (g : Plot N) : N :=
  Num.min (num 8) (Num.max (num 4) (Num.floor (g.graphWidth / num 100)))

/-- A vertical grid line with its label. -/
def xGridLine (host : Host N) (colors : Option (Palette N)) (g : Plot N) (i : Nat) : List Piece :=
  let x := toFixed 2 (g.graphWidth * num i / xSteps g)
  let timestamp := g.minTime + g.timeRange * num i / xSteps g
  [lit "<line x1=\"", .plain x, lit "\" y1=\"0\" x2=\"", .plain x, lit "\" y2=\"", put g.graphHeight,
    lit "\" stroke=\"", ink colors (·.gridLines), lit "\" stroke-width=\"1\" opacity=\"0.5\"/>",
    lit "<text x=\"", .plain x, lit "\" y=\"", put (g.graphHeight + num 20),
    lit "\" text-anchor=\"middle\" font-size=\"11\" fill=\"", ink colors (·.text), lit "\">",
    .plain (formatTime host g.timeRange timestamp), lit "</text>"]

/-- `linePath` of a segment. -/
def linePath (g : Plot N) (segment : List (Point N)) : Text :=
  segment.zipIdx.flatMap fun (d, i) =>
    (if i = 0 then txt "M" else txt " L") ++ (g.xText d ++ ',' :: g.yText d)

/-- `areaPath` of a segment. -/
def areaPath (g : Plot N) (segment : List (Point N)) : Text :=
  (segment.zipIdx.flatMap fun (d, i) =>
    if i = 0 then
      txt "M" ++ (g.xText d ++ ',' :: (toText g.graphHeight ++ (txt " L" ++ (g.xText d ++ ',' :: g.yText d))))
    else txt " L" ++ (g.xText d ++ ',' :: g.yText d))
  ++ match segment.getLast? with
    | some lastPoint => txt " L" ++ (g.xText lastPoint ++ ',' :: (toText g.graphHeight ++ txt " Z"))
    | none => []

/-- A segment of a series; one point makes no line. -/
def drawSegment (colors : Option (Palette N)) (g : Plot N) (color : Text) (si : Nat)
    (segment : List (Point N)) (segi : Nat) : List Piece :=
  if segment.length < 2 then []
  else
    let gradientId := 'g' :: toText (num si : N) ++ '-' :: toText (num segi : N)
    [lit "<defs><linearGradient id=\"", .plain gradientId,
      lit "\" x1=\"0%\" y1=\"0%\" x2=\"0%\" y2=\"100%\">",
      lit "<stop offset=\"0%\" style=\"stop-color:", .plain color, lit ";stop-opacity:0.3\"/>",
      lit "<stop offset=\"100%\" style=\"stop-color:", .plain color, lit ";stop-opacity:0.05\"/>",
      lit "</linearGradient></defs>",
      lit "<path d=\"", .plain (areaPath g segment), lit "\" fill=\"url(#", .plain gradientId, lit ")\"/>",
      lit "<path d=\"", .plain (linePath g segment), lit "\" stroke=\"", .plain color,
      lit "\" fill=\"none\" stroke-width=\"", ink colors (fun c => toText c.seriesWidth),
      lit "\" stroke-linejoin=\"round\" stroke-linecap=\"round\"/>"]

/-- A hover point. -/
def hoverPoint (host : Host N) (options : PanelOptions N) (g : Plot N) (color : Text) (name : Text)
    (d : Point N) (i : Nat) : List Piece :=
  let pointId := txt "p-" ++ (underscored name ++ '-' :: toText (num i : N))
  [lit "<circle id=\"", .plain pointId, lit "\" cx=\"", .plain (g.xText d), lit "\" cy=\"",
    .plain (g.yText d), lit "\" r=\"4\" fill=\"", .plain color,
    lit "\" opacity=\"0\" style=\"cursor: pointer;\" onmouseover=\"showTooltip(evt, '",
    .attr (quoteEscaped name), lit "', '", .plain (valueFormatter options d.value), lit "', '",
    .plain (clock host d.timestamp), lit "', ", .plain (g.xText d), lit ", ", .plain (g.yText d),
    lit ")\" onmouseout=\"hideTooltip()\"/>"]

/-- A series on the chart. -/
def drawSeries (host : Host N) (options : PanelOptions N) (colors : Option (Palette N)) (g : Plot N)
    (gap : N) (s : Series N) (si : Nat) : Option (List Piece) :=
  if s.data = [] then some []
  else do
    let color ← seriesColor colors si
    let points := validData options s
    return ((segments gap points).zipIdx.flatMap fun (segment, segi) =>
        drawSegment colors g color si segment segi)
      ++ points.zipIdx.flatMap fun (d, i) => hoverPoint host options g color s.name d i

/-- The legend entry of a series, at a place. -/
def legendEntry (options : PanelOptions N) (colors : Option (Palette N)) (color : Text) (name : Text)
    (rawValue legendX legendY : N) : List Piece :=
  [lit "<rect x=\"", put legendX, lit "\" y=\"", put (legendY - num 12), lit "\" width=\"",
    put (num 180 : N), lit "\" height=\"18\" fill=\"", ink colors (·.gridLines),
    lit "\" opacity=\"0.3\" rx=\"3\"/>",
    lit "<rect x=\"", put (legendX + num 5), lit "\" y=\"", put (legendY - num 7),
    lit "\" width=\"10\" height=\"10\" fill=\"", .plain color, lit "\" rx=\"2\"/>",
    lit "<text x=\"", put (legendX + num 20), lit "\" y=\"", put (legendY + num 2), lit "\" fill=\"",
    ink colors (·.textPrimary), lit "\" font-weight=\"500\">", .text name, lit ":</text>",
    lit "<text x=\"", put (legendX + num 90), lit "\" y=\"", put (legendY + num 2), lit "\" fill=\"",
    .plain color, lit "\" font-weight=\"600\">", .plain (valueFormatter options rawValue), lit "</text>"]

/-- The legend; the place of the next entry moves on only behind an entry. -/
def legendFrom (options : PanelOptions N) (colors : Option (Palette N)) (width left : N) :
    List (Series N × Nat) → N → N → Option (List Piece)
  | [], _, _ => some []
  | (s, si) :: rest, legendX, legendY =>
      match s.data.getLast?.bind (legendValue options) with
      | none => legendFrom options colors width left rest legendX legendY
      | some rawValue => do
          let color ← seriesColor colors si
          let entry := legendEntry options colors color s.name rawValue legendX legendY
          let nextX := legendX + (num 180 + num 15)
          let wraps := Num.lt (width - num 200) nextX
          let more ← legendFrom options colors width left rest (if wraps then left else nextX)
            (if wraps then legendY + num 25 else legendY)
          return entry ++ more

/-- The tooltip group. -/
def tooltip (colors : Option (Palette N)) : List Piece :=
  [lit "<g id=\"tooltip\" visibility=\"hidden\">",
    lit "<rect x=\"0\" y=\"0\" width=\"160\" height=\"50\" fill=\"", ink colors (·.tooltipFill),
    lit "\" opacity=\"", ink colors (fun c => toText c.tooltipOpacity), lit "\" rx=\"6\" stroke=\"",
    ink colors (·.tooltipStroke),
    lit "\" stroke-width=\"1\" style=\"filter: drop-shadow(0px 2px 4px rgba(0,0,0,0.1))\"/>",
    lit "<text x=\"8\" y=\"18\" font-size=\"11\" fill=\"", ink colors (·.text),
    lit "\" id=\"tooltip-series\"></text>",
    lit "<text x=\"8\" y=\"35\" font-size=\"12\" font-weight=\"600\" fill=\"", ink colors (·.textPrimary),
    lit "\" id=\"tooltip-value\"></text>", lit "</g>", lit "</svg>"]

/-! ## The chart -/

/-- The start of a panel. -/
def svgHead (width height : N) (colors : Option (Palette N)) : List Piece :=
  [lit "<svg width=\"100%\" height=\"100%\" viewBox=\"0 0 ", put width, lit " ", put height,
    lit "\" preserveAspectRatio=\"none\" xmlns=\"http://www.w3.org/2000/svg\" style=\"font-family: ",
    ink colors (·.fontFamily), lit ";\">"]

/-- The background of the chart. -/
def background (colors : Option (Palette N)) : List Piece :=
  [lit "<rect width=\"100%\" height=\"100%\" fill=\"", ink colors (·.background), lit "\"/>"]

/-- The text of a chart that has nothing to show. -/
def chartError (width height : N) (message : String) : List Piece :=
  [lit "<text x=\"", put (width / num 2), lit "\" y=\"", put (height / num 2),
    lit "\" text-anchor=\"middle\" fill=\"#ef4444\" font-size=\"14\">", lit message,
    lit "</text></svg>"]

/-- The title of the chart, with the parameter in its place. -/
def chartTitle (options : PanelOptions N) : Text :=
  let param1 := orText options.param1 []
  let title := orText options.title (txt "Metric")
  if (splitFirst (txt "%s") title).isSome ∧ param1 ≠ [] then replaceFirst title (txt "%s") param1
  else title

/-- `options.yLabel || 'Value'`. -/
def chartLabel (options : PanelOptions N) : Text := orText options.yLabel (txt "Value")

/-- The start of the group of the plot. -/
def plotFrame (colors : Option (Palette N)) (g : Plot N) : List Piece :=
  [lit "<g transform=\"translate(", put g.left, lit ",", put g.top, lit ")\">",
    lit "<rect width=\"", put g.graphWidth, lit "\" height=\"", put g.graphHeight, lit "\" fill=\"",
    ink colors (·.background), lit "\" stroke=\"", ink colors (·.gridLines),
    lit "\" stroke-width=\"1\"/>"]

/-- The group of the plot up to the series. -/
def plotHead (host : Host N) (options : PanelOptions N) (colors : Option (Palette N)) (g : Plot N) :
    List Piece :=
  plotFrame colors g ++ ((List.range 6).flatMap (yGridLine options colors g)
    -- the loop runs while `i <= xSteps`, and `xSteps` is at most 8
    ++ ((List.range 9).takeWhile fun i : Nat => ge (xSteps g) (num i)).flatMap
      (xGridLine host colors g))

/-- The title and the label of the chart. -/
def labels (options : PanelOptions N) (colors : Option (Palette N)) (g : Plot N) : List Piece :=
  [lit "<text x=\"", put (g.width / num 2), lit "\" y=\"25\" text-anchor=\"middle\" font-size=\"",
    put (Num.max (num 12) (Num.min (num 18) (g.width * num 0.02))), lit "\" font-weight=\"600\" fill=\"",
    ink colors (·.textPrimary), lit "\">", .text (chartTitle options), lit "</text>",
    lit "<text x=\"20\" y=\"", put (g.height / num 2),
    lit "\" text-anchor=\"middle\" transform=\"rotate(-90,20,", put (g.height / num 2),
    lit ")\" font-size=\"12\" font-weight=\"500\" fill=\"", ink colors (·.text), lit "\">",
    .text (chartLabel options), lit "</text>"]

/-- The chart of `generateSVG`. -/
def generateChart (host : Host N) (series : List (Series N)) (options : PanelOptions N) :
    Option (List Piece) :=
  let colors := resolveTheme host options.theme
  let width := options.chartWidth
  let height := options.chartHeight
  let head := svgHead width height colors ++ background colors
  if series = [] then some (head ++ chartError width height "Error: No data series")
  else if collected series = [] then
    some (head ++ chartError width height "Error: No valid data points")
  else do
    let g := plot options series
    let drawn ← series.zipIdx.mapM fun (s, si) =>
      drawSeries host options colors g (gapThreshold options series) s si
    let legend ← legendFrom options colors width g.left series.zipIdx g.left (height - num 35)
    return head ++ (plotHead host options colors g ++ (drawn.flatten
      ++ (lit "</g>" :: (labels options colors g
      ++ (lit "<g font-size=\"11\">" :: (legend ++ (lit "</g>" :: tooltip colors)))))))

/-! ## The stat panel -/

/-- The background and the title. -/
def statHead (colors : Option (Palette N)) (titleSize : N) (title : Text) : List Piece :=
  [lit "<rect width=\"100%\" height=\"100%\" fill=\"", ink colors (·.background), lit "\" stroke=\"",
    ink colors (·.border), lit "\" stroke-width=\"1\" rx=\"4\"/>",
    lit "<text x=\"12\" y=\"22\" font-size=\"", put titleSize, lit "\" font-weight=\"600\" fill=\"",
    ink colors (·.text), lit "\">", .text title, lit "</text>"]

/-- The main value. -/
def statValue (colors : Option (Palette N)) (height valueSize : N) (formattedValue yLabel : Text) :
    List Piece :=
  [lit "<text x=\"12\" y=\"", .plain (toFixed 0 (height * num 0.45)), lit "\" font-size=\"",
    put valueSize, lit "\" font-weight=\"700\" fill=\"", ink colors (·.textPrimary), lit "\">",
    .plain formattedValue]
  ++ ((if yLabel = [] then []
    else [lit "<tspan font-size=\"12\" font-weight=\"400\" fill=\"", ink colors (·.text), lit "\"> ",
      .text yLabel, lit "</tspan>"])
  ++ [lit "</text>"])

/-- A number with a plus sign if it is not negative. -/
def signed (x : N) (text : Text) : Text := (if ge x (num 0) then txt "+" else []) ++ text

/-- `trendColor`. -/
def trendColor (trend : N) (colors : Palette N) : Text :=
  if Num.lt (num 0) trend then colors.positive
  else if Num.lt trend (num 0) then colors.negative
  else colors.neutral

/-- `trendArrow`. -/
def trendArrow (trend : N) : Text :=
  if Num.lt (num 0) trend then txt "↑" else if Num.lt trend (num 0) then txt "↓" else txt "→"

/-- The trend indicator. -/
def statTrend (options : PanelOptions N) (colors : Option (Palette N)) (height trend trendPercent : N)
    (yLabel : Text) : List Piece :=
  let formattedTrend := signed trend (statFormatter options (Num.abs trend))
  let formattedTrendPercent := signed trendPercent (toFixed 1 trendPercent) ++ txt "%"
  [lit "<text x=\"12\" y=\"", .plain (toFixed 0 (height * num 0.6)),
    lit "\" font-size=\"12\" font-weight=\"500\">", lit "<tspan fill=\"",
    ink colors (trendColor trend), lit "\">", .plain (trendArrow trend), lit " ", .plain formattedTrend]
  ++ ((if yLabel = [] then [] else [lit " (", .plain formattedTrendPercent, lit ")"])
  ++ [lit "</tspan></text>"])

/-- The path of the sparkline. -/
def sparklinePath (allData : List (Point N)) (first last : Point N) (height sparklineHeight
    sparklineWidth : N) : Text :=
  let sparklineX := num 10
  let sparklineY := height - sparklineHeight - num 10
  let minVal := allData.foldl (fun m d => if Num.lt d.value m then d.value else m) Num.infinity
  let maxVal := allData.foldl (fun m d => if Num.lt m d.value then d.value else m) Num.negInfinity
  let valueRange := if Num.eq (maxVal - minVal) (num 0) then num 1 else maxVal - minVal
  let timeRange :=
    if Num.eq (last.timestamp - first.timestamp) (num 0) then num 1
    else last.timestamp - first.timestamp
  allData.zipIdx.flatMap fun (d, i) =>
    let x := sparklineX + (d.timestamp - first.timestamp) / timeRange * sparklineWidth
    let y := sparklineY + sparklineHeight - (d.value - minVal) / valueRange * sparklineHeight
    (if i = 0 then txt "M" else txt " L") ++ (toFixed 2 x ++ ',' :: toFixed 2 y)

/-- The sparkline, of at least two points. -/
def sparkline (colors : Option (Palette N)) (count : Nat) (pathPoints : Text) : List Piece :=
  if 1 < count then
    [lit "<path d=\"", .plain pathPoints, lit "\" stroke=\"", ink colors (·.sparkline),
      lit "\" fill=\"none\" stroke-width=\"1.5\" stroke-linecap=\"round\" stroke-linejoin=\"round\"/>"]
  else []

/-- The panel without data. Here the strings are added up, so a missing colour is printed. -/
def noData (width height : N) (colors : Option (Palette N)) : List Piece :=
  [lit "<svg width=\"100%\" height=\"100%\" viewBox=\"0 0 ", put width, lit " ", put height,
    lit "\" preserveAspectRatio=\"none\" xmlns=\"http://www.w3.org/2000/svg\">",
    lit "<rect width=\"100%\" height=\"100%\" fill=\"", inkAdded colors (·.background), lit "\"/>",
    lit "<text x=\"", put (width / num 2), lit "\" y=\"", put (height / num 2),
    lit "\" text-anchor=\"middle\" fill=\"#ef4444\" font-size=\"12\">No data</text></svg>"]

/-- The data of the stat panel by time. -/
def sortedData (host : Host N) (options : PanelOptions N) (series : List (Series N)) :
    List (Point N) :=
  host.sort (fun a b => a.timestamp - b.timestamp) (statData options series)

/-- `options.yLabel || ''`. -/
def statLabel (options : PanelOptions N) : Text := orText options.yLabel []

/-- `options.title || 'Metric'`. -/
def statTitle (options : PanelOptions N) : Text := orText options.title (txt "Metric")

/-- `generateStatSVG`. -/
def generateStatSVG (host : Host N) (series : List (Series N)) (options : PanelOptions N) :
    List Piece :=
  let width := orNum options.width (num 300)
  let height := orNum options.height (num 150)
  let colors := resolveTheme host options.theme
  let valueSize := Num.max (num 18) (Num.min (num 32) (height * num 0.25))
  let titleSize := Num.max (num 10) (Num.min (num 14) (height * num 0.1))
  let sparklineHeight := Num.max (num 12) (Num.min (num 30) (height * num 0.2))
  let sparklineWidth := Num.max (num 40) (Num.min (num 100) (width * num 0.3))
  let allData := sortedData host options series
  match allData.head?, allData.getLast? with
  | some first, some last =>
      let trend := last.value - first.value
      let trendPercent :=
        if Num.eq first.value (num 0) then num 0 else trend / first.value * num 100
      svgHead width height colors ++ (statHead colors titleSize (statTitle options)
        ++ (statValue colors height valueSize (statFormatter options last.value) (statLabel options)
        ++ (statTrend options colors height trend trendPercent (statLabel options)
        ++ (sparkline colors allData.length
          (sparklinePath allData first last height sparklineHeight sparklineWidth)
        ++ [lit "</svg>"]))))
  | _, _ => noData width height colors

/-- `generateSVG`; `none` if it throws. -/
def generateSVG (host : Host N) (series : List (Series N)) (options : PanelOptions N) :
    Option (List Piece) :=
  if orText options.panelType (txt "chart") = txt "stat" then
    some (generateStatSVG host series options)
  else generateChart host series options

end

end Svgd.Panel
